import Highlighter.Live.LineRange
import Highlighter.Proofs.Live.Knowledge

set_option autoImplicit false

namespace Highlighter

theorem Edit.mem_move (edit : Edit) (lines : Set Nat) (line : Nat) :
    line ∈ edit.move lines ↔
      line < edit.start ∧ line ∈ lines ∨
        edit.newStop ≤ line ∧ line - edit.added + edit.removed ∈ lines :=
  Iff.rfl

namespace Live.LineRange

def lines (ranges : List LineRange) : Set Nat :=
  { line | ∃ range ∈ ranges, range.first ≤ line ∧ line ≤ range.last }

@[simp] theorem lines_nil : lines [] = ∅ := by simp [lines]

theorem mem_lines_cons (range : LineRange) (ranges : List LineRange) (line : Nat) :
    line ∈ lines (range :: ranges) ↔
      (range.first ≤ line ∧ line ≤ range.last) ∨ line ∈ lines ranges := by
  simp [lines]

theorem mem_lines_append (ranges others : List LineRange) (line : Nat) :
    line ∈ lines (ranges ++ others) ↔ line ∈ lines ranges ∨ line ∈ lines others := by
  simp [lines, or_and_right, exists_or]

-- Most ranges are there only where they are not empty.
theorem mem_lines_ite (present : Prop) [Decidable present] (range : LineRange) (line : Nat) :
    line ∈ lines (if present then [range] else []) ↔
      present ∧ range.first ≤ line ∧ line ≤ range.last := by
  split <;> simp_all [lines]

theorem mem_lines_between (start stop line : Nat) :
    line ∈ lines (between start stop) ↔ start ≤ line ∧ line < stop := by
  rw [between, mem_lines_ite]
  dsimp only
  omega

def Proper (limit : Nat) (ranges : List LineRange) : Prop :=
  ∀ range ∈ ranges, range.first ≤ range.last ∧ range.last < limit

theorem Proper.append {limit : Nat} {ranges others : List LineRange} (first : Proper limit ranges)
    (second : Proper limit others) : Proper limit (ranges ++ others) :=
  fun range member => (List.mem_append.mp member).elim (first range) (second range)

theorem between_proper {start stop limit : Nat} (bound : stop ≤ limit) :
    Proper limit (between start stop) := by
  intro range member
  obtain ⟨filled, only⟩ := List.mem_ite_nil_right.mp member
  obtain rfl := List.mem_singleton.mp only
  dsimp only
  omega

theorem lines_shift (edit : Edit) (ranges : List LineRange) :
    lines (shift edit ranges) = edit.move (lines ranges) := by
  ext line
  induction ranges with
  | nil => simp [shift, Edit.move]
  | cons range rest ih =>
    have first : line ∈ lines (before edit range) ↔
        line < edit.start ∧ range.first ≤ line ∧ line ≤ range.last := by
      rw [before, mem_lines_ite]
      dsimp only
      omega
    have second : line ∈ lines (behind edit range) ↔ edit.newStop ≤ line ∧
        range.first ≤ line - edit.added + edit.removed ∧
          line - edit.added + edit.removed ≤ range.last := by
      rw [behind, mem_lines_ite, Edit.oldStop, Edit.newStop]
      dsimp only
      omega
    have split : shift edit (range :: rest) =
        before edit range ++ behind edit range ++ shift edit rest := rfl
    rw [split, mem_lines_append, mem_lines_append, first, second, ih, Edit.mem_move,
      Edit.mem_move, mem_lines_cons, mem_lines_cons, and_or_left, and_or_left]
    exact or_or_or_comm

theorem shift_proper (edit : Edit) {ranges : List LineRange} {limit : Nat}
    (proper : Proper limit ranges) (fits : edit.Fits limit) :
    Proper (limit - edit.removed + edit.added) (shift edit ranges) := by
  intro range member
  obtain ⟨old, known, moved⟩ := List.mem_flatMap.mp member
  have here := proper old known
  unfold Edit.Fits Edit.oldStop at fits
  rcases List.mem_append.mp moved with first | second
  · obtain ⟨kept, only⟩ := List.mem_ite_nil_right.mp first
    obtain rfl := List.mem_singleton.mp only
    dsimp only
    omega
  · obtain ⟨kept, only⟩ := List.mem_ite_nil_right.mp second
    obtain rfl := List.mem_singleton.mp only
    unfold Edit.oldStop at kept ⊢
    dsimp only
    omega

def Apart (ranges : List LineRange) : Prop :=
  ranges.Pairwise fun range later => range.last + 1 < later.first

theorem join?_cons {range last : LineRange} {rest joined : List LineRange}
    (done : join? range (last :: rest) = some joined) :
    joined = if range.first ≤ last.last + 1 then
        ⟨last.first, max last.last range.last⟩ :: rest
      else range :: last :: rest := by
  rw [join?, Text.nextIndex?] at done
  split at done
  · exact (Option.some.inj done).symm
  · exact nomatch done

section Join

variable {limit : Nat} {range : LineRange} {merged joined : List LineRange}
  (done : join? range merged = some joined)
  (here : range.first ≤ range.last ∧ range.last < limit) (proper : Proper limit merged)
  (starts : ∀ other ∈ merged, other.first ≤ range.first)

include done

include here proper in
theorem join?_proper : Proper limit joined := by
  have alone : Proper limit [range] := fun other member => List.mem_singleton.mp member ▸ here
  cases merged with
  | nil => exact Option.some.inj done ▸ alone
  | cons last rest =>
    rw [join?_cons done]
    split
    · intro other member
      rcases List.mem_cons.mp member with rfl | old
      · have known := proper last (by simp)
        dsimp only
        omega
      · exact proper other (List.mem_cons_of_mem _ old)
    · exact alone.append proper

include starts

include proper in
theorem join?_apart (apart : Apart merged.reverse) : Apart joined.reverse := by
  unfold Apart at apart ⊢
  rw [List.pairwise_reverse] at apart ⊢
  cases merged with
  | nil => exact Option.some.inj done ▸ List.pairwise_singleton _ _
  | cons last rest =>
    obtain ⟨before, others⟩ := List.pairwise_cons.mp apart
    rw [join?_cons done]
    split
    · exact .cons before others
    · refine .cons (fun other member => ?_) apart
      rcases List.mem_cons.mp member with rfl | old
      · omega
      · have first := before other old
        have known := proper last (by simp)
        omega

theorem join?_starts : ∀ other ∈ joined, other.first ≤ range.first := by
  cases merged with
  | nil =>
    intro other member
    rw [← Option.some.inj done] at member
    exact List.mem_singleton.mp member ▸ le_rfl
  | cons last rest =>
    rw [join?_cons done]
    split
    · intro other member
      rcases List.mem_cons.mp member with rfl | old
      · exact starts last (by simp)
      · exact starts other (List.mem_cons_of_mem _ old)
    · intro other member
      rcases List.mem_cons.mp member with rfl | old
      · exact le_rfl
      · exact starts other old

include proper in
theorem mem_lines_join? (line : Nat) :
    line ∈ lines joined ↔ (range.first ≤ line ∧ line ≤ range.last) ∨ line ∈ lines merged := by
  cases merged with
  | nil => exact Option.some.inj done ▸ mem_lines_cons _ _ _
  | cons last rest =>
    rw [join?_cons done]
    split
    · have known := proper last (by simp)
      have first := starts last (by simp)
      rw [mem_lines_cons, mem_lines_cons, ← or_assoc]
      refine or_congr_left ?_
      dsimp only
      omega
    · exact mem_lines_cons _ _ _

omit starts in
theorem join?_ne_nil : joined ≠ [] := by
  cases merged with
  | nil => exact Option.some.inj done ▸ List.cons_ne_nil _ _
  | cons last rest =>
    rw [join?_cons done]
    split <;> exact List.cons_ne_nil _ _

end Join

theorem joinAll?_normal {limit : Nat} {ranges merged all : List LineRange}
    (done : joinAll? merged ranges = some all) (proper : Proper limit ranges)
    (sorted : ranges.Pairwise fun a b => a.first ≤ b.first) (known : Proper limit merged)
    (apart : Apart merged.reverse)
    (starts : ∀ other ∈ merged, ∀ range ∈ ranges, other.first ≤ range.first) :
    Proper limit all ∧ Apart all.reverse ∧
      (∀ line, line ∈ lines all ↔ line ∈ lines ranges ∨ line ∈ lines merged) ∧
      (all = [] → ranges = [] ∧ merged = []) := by
  induction ranges generalizing merged with
  | nil =>
    obtain rfl := Option.some.inj done
    exact ⟨known, apart, fun line => by simp, fun empty => ⟨rfl, empty⟩⟩
  | cons range rest ih =>
    have here := proper range (by simp)
    have earlier (other : LineRange) (member : other ∈ merged) :=
      starts other member range (by simp)
    obtain ⟨first, later⟩ := List.pairwise_cons.mp sorted
    rw [joinAll?] at done
    split at done
    · exact nomatch done
    · rename_i joined step
      obtain ⟨proper', apart', same, empty⟩ := ih done
        (fun other member => proper other (List.mem_cons_of_mem _ member)) later
        (join?_proper step here known) (join?_apart step known earlier apart)
        fun other member next behind =>
          (join?_starts step earlier other member).trans (first next behind)
      refine ⟨proper', apart', fun line => ?_, fun none => absurd (empty none).2 (join?_ne_nil step)⟩
      rw [same, mem_lines_join? step known earlier, mem_lines_cons]
      tauto

section Merge

variable {limit : Nat} {ranges merged : List LineRange} (proper : Proper limit ranges)

theorem sort_perm (ranges : List LineRange) :
    (ranges.mergeSort fun a b => a.first ≤ b.first).Perm ranges :=
  List.mergeSort_perm ranges fun a b => a.first ≤ b.first

theorem sort_sorted (ranges : List LineRange) :
    (ranges.mergeSort fun a b => a.first ≤ b.first).Pairwise fun a b => a.first ≤ b.first := by
  refine (List.pairwise_mergeSort (fun a b c first second => ?_) (fun a b => ?_) ranges).imp ?_
  · simp only [decide_eq_true_eq] at first second ⊢
    exact first.trans second
  · simpa using Nat.le_total a.first b.first
  · exact fun ordered => of_decide_eq_true ordered

include proper

theorem merge?_normal (done : merge? ranges = some merged) :
    Proper limit merged ∧ Apart merged ∧ lines merged = lines ranges ∧
      (merged = [] → ranges = []) := by
  obtain ⟨all, joined, rfl⟩ := Option.map_eq_some_iff.mp done
  have same := sort_perm ranges
  obtain ⟨known, apart, covered, empty⟩ := joinAll?_normal joined (fun range member =>
    proper range (same.mem_iff.mp member)) (sort_sorted ranges) (fun _ => nofun) .nil
      (fun _ => nofun)
  refine ⟨fun range member => known range (List.mem_reverse.mp member), apart, ?_, fun none => ?_⟩
  · ext line
    have reversed : line ∈ lines all.reverse ↔ line ∈ lines all := by simp [lines]
    rw [reversed, covered]
    simp [lines, same.mem_iff]
  · have nothing := (empty (List.reverse_eq_nil_iff.mp none)).1
    rw [nothing] at same
    exact same.symm.eq_nil

end Merge

theorem joinAll?_isSome_iff (merged ranges : List LineRange) :
    (joinAll? merged ranges).isSome = true ↔
      ∀ range ∈ (merged.head?.toList ++ ranges).dropLast, range.last < Text.largestIndex := by
  induction ranges generalizing merged with
  | nil => cases merged <;> simp [joinAll?]
  | cons range rest ih =>
    cases merged with
    | nil => exact ih [range]
    | cons last others =>
      rw [joinAll?, join?, Text.nextIndex?]
      by_cases small : last.last < Text.largestIndex
      · simp only [if_pos small, Option.map_some]
        refine (ih _).trans ?_
        cases rest with
        | nil => split <;> simp [small]
        | cons next rest => split <;> simp [small]
      · simp [small]

theorem merge?_isSome_iff (ranges : List LineRange) :
    (merge? ranges).isSome = true ↔
      ∀ range ∈ (ranges.mergeSort fun a b => a.first ≤ b.first).dropLast,
        range.last < Text.largestIndex := by
  rw [merge?, Option.isSome_map]
  exact joinAll?_isSome_iff [] _

theorem merge?_isSome {limit : Nat} (small : limit ≤ Text.largestIndex) {ranges : List LineRange}
    (proper : Proper limit ranges) : ∃ merged, merge? ranges = some merged := by
  refine Option.isSome_iff_exists.mp ((merge?_isSome_iff ranges).mpr fun range member => ?_)
  have known := (sort_perm ranges).mem_iff.mp (List.mem_of_mem_dropLast member)
  exact (proper range known).2.trans_le small

theorem merge?_nil : merge? [] = some [] := by
  simp [merge?, joinAll?]

theorem merge?_singleton (range : LineRange) : merge? [range] = some [range] := by
  simp [merge?, joinAll?, join?]

end Live.LineRange

end Highlighter
