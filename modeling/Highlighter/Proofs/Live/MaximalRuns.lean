import Highlighter.Proofs.Live.LineRange

set_option autoImplicit false

namespace Highlighter.Live.LineRange

/-- All lines of the range are in the set, and the lines next to it on both sides are not. -/
structure IsRun (set : Set Nat) (range : LineRange) : Prop where
  filled : range.first ≤ range.last
  inside : ∀ line, range.first ≤ line → line ≤ range.last → line ∈ set
  noneBefore : ∀ line, line + 1 = range.first → line ∉ set
  noneAfter : range.last + 1 ∉ set

namespace IsRun

variable {set : Set Nat} {range other : LineRange} (run : IsRun set range)
  (another : IsRun set other) (starts : range.first ≤ other.last)

include run another starts

theorem first_le : range.first ≤ other.first := by
  by_contra later
  -- The line before the one run would be a line of the other.
  have shared : range.first - 1 ∈ set := another.inside _ (by omega) (by omega)
  exact run.noneBefore _ (by omega) shared

theorem last_le : range.last ≤ other.last := by
  by_contra longer
  have shared : other.last + 1 ∈ set := run.inside _ (by omega) (by omega)
  exact another.noneAfter shared

theorem eq_of_meets (stops : other.first ≤ range.last) : range = other := by
  have first : range.first = other.first :=
    le_antisymm (run.first_le another starts) (another.first_le run stops)
  have last : range.last = other.last :=
    le_antisymm (run.last_le another starts) (another.last_le run stops)
  cases range
  cases other
  exact congrArg₂ LineRange.mk first last

end IsRun

def Filled (ranges : List LineRange) : Prop := ∀ range ∈ ranges, range.first ≤ range.last

theorem Filled.exists_proper {ranges : List LineRange} (filled : Filled ranges) :
    ∃ limit, Proper limit ranges := by
  obtain ⟨bound, above⟩ := (ranges.map (·.last)).finite_toSet.bddAbove
  exact ⟨bound + 1, fun range member => ⟨filled range member,
    Nat.lt_succ_of_le (above (List.mem_map_of_mem member))⟩⟩

namespace Apart

variable {ranges : List LineRange} (apart : Apart ranges)

include apart

theorem eq_or_gap {range other : LineRange} (member : range ∈ ranges) (another : other ∈ ranges) :
    range = other ∨ range.last + 1 < other.first ∨ other.last + 1 < range.first := by
  have symm : Std.Symm fun a b : LineRange => a.last + 1 < b.first ∨ b.last + 1 < a.first :=
    ⟨fun _ _ => Or.symm⟩
  have either : ranges.Pairwise fun a b => a.last + 1 < b.first ∨ b.last + 1 < a.first :=
    apart.imp .inl
  exact or_iff_not_imp_left.mpr (either.forall member another)

variable (filled : Filled ranges)

include filled

theorem isRun {range : LineRange} (member : range ∈ ranges) : IsRun (lines ranges) range := by
  have here := filled range member
  refine ⟨here, fun line first last => ⟨range, member, first, last⟩, ?_, ?_⟩
  · rintro line next ⟨other, another, first, last⟩
    rcases apart.eq_or_gap member another with rfl | before | after <;> omega
  · rintro ⟨other, another, first, last⟩
    rcases apart.eq_or_gap member another with rfl | before | after <;> omega

theorem mem_iff_isRun (range : LineRange) : range ∈ ranges ↔ IsRun (lines ranges) range := by
  refine ⟨apart.isRun filled, fun run => ?_⟩
  obtain ⟨other, member, first, last⟩ := run.inside _ le_rfl run.filled
  obtain rfl := run.eq_of_meets (apart.isRun filled member) last (first.trans run.filled)
  exact member

theorem sorted : ranges.Pairwise fun range later => range.first < later.first := by
  refine apart.imp_of_mem fun {range later} member _ gap => ?_
  have here := filled range member
  omega

theorem eq_of_lines_eq {others : List LineRange} (apart' : Apart others) (filled' : Filled others)
    (same : lines ranges = lines others) : ranges = others := by
  have irrefl : Std.Irrefl fun range later : LineRange => range.first < later.first :=
    ⟨fun range => lt_irrefl range.first⟩
  have antisymm : Std.Antisymm fun range later : LineRange => range.first < later.first :=
    ⟨fun _ _ before after => absurd after before.asymm⟩
  refine (apart.sorted filled).eq_of_mem_iff (apart'.sorted filled') fun range => ?_
  rw [apart.mem_iff_isRun filled, same, apart'.mem_iff_isRun filled']

end Apart

theorem joinAll?_tail {ranges merged all : List LineRange} (done : joinAll? merged ranges = some all)
    (small : ∀ range ∈ merged.tail, range.last < Text.largestIndex) :
    ∀ range ∈ all.tail, range.last < Text.largestIndex := by
  induction ranges generalizing merged with
  | nil => exact Option.some.inj done ▸ small
  | cons range rest ih =>
    rw [joinAll?] at done
    split at done
    · cases done
    · rename_i joined step
      refine ih done ?_
      cases merged with
      | nil =>
        obtain rfl := Option.some.inj step
        simp
      | cons last others =>
        have counted : last.last < Text.largestIndex := by
          by_contra large
          rw [join?, Text.nextIndex?, if_neg large] at step
          cases step
        rw [join?_cons step]
        split
        · exact small
        · exact fun other member => (List.mem_cons.mp member).elim (· ▸ counted) (small other)

section Merge

variable {ranges others merged merged' : List LineRange} (done : merge? ranges = some merged)
  (filled : Filled ranges)

include done

theorem merge?_dropLast : ∀ range ∈ merged.dropLast, range.last < Text.largestIndex := by
  obtain ⟨all, joined, rfl⟩ := Option.map_eq_some_iff.mp done
  intro range member
  rw [List.dropLast_reverse, List.mem_reverse] at member
  exact joinAll?_tail joined (fun _ => nofun) range member

include filled

theorem merge?_normal_of_filled : Filled merged ∧ Apart merged ∧ lines merged = lines ranges := by
  obtain ⟨limit, proper⟩ := filled.exists_proper
  obtain ⟨known, apart, same, -⟩ := merge?_normal proper done
  exact ⟨fun range member => (known range member).1, apart, same⟩

theorem mem_merge?_iff_isRun (range : LineRange) :
    range ∈ merged ↔ IsRun (lines ranges) range := by
  obtain ⟨known, apart, same⟩ := merge?_normal_of_filled done filled
  rw [apart.mem_iff_isRun known, same]

theorem merge?_eq_of_lines_eq (done' : merge? others = some merged') (filled' : Filled others)
    (alike : lines ranges = lines others) : merged = merged' := by
  obtain ⟨known, apart, same⟩ := merge?_normal_of_filled done filled
  obtain ⟨known', apart', same'⟩ := merge?_normal_of_filled done' filled'
  exact apart.eq_of_lines_eq known apart' known' (same.trans (alike.trans same'.symm))

theorem merge?_merged : merge? merged = some merged := by
  obtain ⟨known, apart, same⟩ := merge?_normal_of_filled done filled
  have sorted : (merged.mergeSort fun a b => a.first ≤ b.first) = merged :=
    List.mergeSort_of_pairwise ((apart.sorted known).imp fun before => decide_eq_true before.le)
  have some := (merge?_isSome_iff merged).mpr (sorted.symm ▸ merge?_dropLast done)
  obtain ⟨again, redone⟩ := Option.isSome_iff_exists.mp some
  rw [redone, merge?_eq_of_lines_eq redone known done filled same]

end Merge

theorem lines_perm {ranges others : List LineRange} (perm : ranges.Perm others) :
    lines ranges = lines others := by
  ext line
  exact exists_congr fun range => and_congr_left' perm.mem_iff

theorem mem_lines_singleton (range : LineRange) (line : Nat) :
    line ∈ lines [range] ↔ range.first ≤ line ∧ line ≤ range.last := by
  simp [lines]

example : merge? [⟨0, Text.largestIndex⟩, ⟨5, 6⟩] = none := by cbv

end Highlighter.Live.LineRange
