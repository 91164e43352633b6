import Highlighter.Proofs.Live.LineRange

set_option autoImplicit false

namespace Highlighter

namespace Edit

variable (edit : Edit) (size : Nat)

def within : Edit :=
  let start := min edit.start size
  ⟨start, min edit.oldStop size - start, edit.added⟩

def origin? (line : Nat) : Option Nat :=
  if line < edit.start then some line
  else if line < edit.newStop then none
  else some (line - edit.added + edit.removed)

theorem oldStop_within : (edit.within size).oldStop = min edit.oldStop size := by
  simp only [within, oldStop]
  omega

theorem within_fits : (edit.within size).Fits size := by
  unfold Fits
  rw [oldStop_within]
  exact Nat.min_le_right _ _

theorem within_of_fits (fits : edit.Fits size) : edit.within size = edit := by
  unfold Fits oldStop at fits
  have start : min edit.start size = edit.start := by omega
  have stop : min edit.oldStop size - edit.start = edit.removed := by
    unfold oldStop
    omega
  rw [within, start, stop]

theorem splice_within {α : Type} (inserted items : List α) :
    (edit.within items.length).splice inserted items = edit.splice inserted items := by
  unfold splice
  rw [oldStop_within, ← List.drop_eq_drop_min]
  change items.take (min edit.start items.length) ++ _ ++ _ = _
  rw [← List.take_eq_take_min]

theorem getElem?_splice_origin {α : Type} (inserted items : List α)
    (count : inserted.length = edit.added) (line : Nat) :
    (edit.splice inserted items)[line]? =
      match (edit.within items.length).origin? line with
      | some old => items[old]?
      | none => inserted[line - (edit.within items.length).start]? := by
  rw [← splice_within, (edit.within items.length).getElem?_splice _ _ count (edit.within_fits _)]
  unfold origin?
  by_cases before : line < (edit.within items.length).start
  · simp only [if_pos before]
  · simp only [if_neg before]
    by_cases new : line < (edit.within items.length).newStop
    · simp only [if_pos new]
    · simp only [if_neg new]

theorem origin?_eq_some_iff (line old : Nat) :
    edit.origin? line = some old ↔
      line < edit.start ∧ line = old ∨
        edit.newStop ≤ line ∧ line - edit.added + edit.removed = old := by
  unfold origin? newStop
  by_cases before : line < edit.start
  · simp only [if_pos before, Option.some.injEq]
    omega
  · by_cases new : line < edit.start + edit.added
    · simp only [if_neg before, if_pos new, reduceCtorEq, false_iff]
      omega
    · simp only [if_neg before, if_neg new, Option.some.injEq]
      omega

theorem survives_iff (old : Nat) :
    old < edit.start ∨ edit.oldStop ≤ old ↔ ∃! line, edit.origin? line = some old := by
  simp only [ExistsUnique, origin?_eq_some_iff, oldStop, newStop]
  constructor
  · rintro (before | behind)
    · exact ⟨old, by omega, fun other same => by omega⟩
    · exact ⟨old - edit.removed + edit.added, by omega, fun other same => by omega⟩
  · rintro ⟨line, same, -⟩
    omega

theorem mem_move_iff_origin (lines : Set Nat) (inside : ∀ line ∈ lines, line < size) (line : Nat) :
    line ∈ edit.move lines ↔ ∃ old, (edit.within size).origin? line = some old ∧ old ∈ lines := by
  simp only [mem_move, origin?_eq_some_iff, within, newStop, oldStop]
  constructor
  · rintro (⟨before, member⟩ | ⟨behind, member⟩)
    · have bound := inside _ member
      exact ⟨line, .inl ⟨by omega, rfl⟩, member⟩
    · have bound := inside _ member
      exact ⟨_, .inr ⟨by omega, by omega⟩, member⟩
  · rintro ⟨old, ⟨before, rfl⟩ | ⟨behind, same⟩, member⟩
    · exact .inl ⟨by omega, member⟩
    · have bound := inside _ member
      obtain rfl : line - edit.added + edit.removed = old := by omega
      exact .inr ⟨by omega, member⟩

end Edit

namespace Live.Slots

variable (slots : Slots) (edit : Edit)

theorem carried?_within : slots.carried? (edit.within slots.length) = slots.carried? edit := by
  unfold carried?
  rw [Edit.oldStop_within]
  simp only [Edit.within, min_assoc, min_self]

theorem modify_within (items : List Slot) (short : items.length ≤ slots.length) :
    items.modify (edit.within slots.length).start markStale =
      items.modify edit.start markStale := by
  by_cases inside : edit.start ≤ slots.length
  · rw [Edit.within, Nat.min_eq_left inside]
  · have outside : slots.length ≤ (edit.within slots.length).start :=
      le_min (Nat.le_of_not_le inside) le_rfl
    rw [List.modify_eq_self (short.trans outside), List.modify_eq_self (by omega)]

theorem splice_within : slots.splice (edit.within slots.length) = slots.splice edit := by
  have added : (edit.within slots.length).added = edit.added := rfl
  have entries : (edit.within slots.length).splice (inserted edit.added (slots.carried? edit))
      slots.entries = edit.splice (inserted edit.added (slots.carried? edit)) slots.entries :=
    edit.splice_within _ slots.entries
  have pending : min (edit.within slots.length).start slots.length =
      min edit.start slots.length := by
    simp [Edit.within]
  unfold splice
  rw [carried?_within, pending, added, entries]
  by_cases nothing : edit.added = 0
  · have short : (edit.splice (inserted edit.added (slots.carried? edit)) slots.entries).length ≤
        slots.length := by
      simp [Edit.splice, nothing, inserted, Edit.oldStop, length]
      omega
    simp only [if_pos nothing, slots.modify_within edit _ short]
  · simp only [if_neg nothing]

theorem entries_splice_origin (line : Nat) :
    match (edit.within slots.length).origin? line with
    | some old => (slots.splice edit).entries[line]? = slots.entries[old]?.map fun slot =>
        if edit.added = 0 ∧ line = (edit.within slots.length).start then markStale slot else slot
    | none => ∃ stack, (slots.splice edit).entries[line]? = some (Slot.unread stack) := by
  rw [← splice_within, getElem?_splice _ _ (edit.within_fits slots.length)]
  unfold Edit.origin?
  by_cases before : line < (edit.within slots.length).start
  · have same (slot : Slot) : (if edit.added = 0 ∧ line = (edit.within slots.length).start then
        markStale slot else slot) = slot := if_neg fun marked => before.ne marked.2
    simp only [if_pos before, same, Option.map_id']
  · by_cases new : line < (edit.within slots.length).newStop
    · simp only [if_neg before, if_pos new]
      exact ⟨_, rfl⟩
    · simp only [if_neg before, if_neg new]
      rfl

end Live.Slots

namespace Document

open Live

theorem line?_replace_origin (document : Document) (start count : Nat) (lines : List String)
    (line : Nat) :
    (document.replace start count lines).1.line? line =
      match (document.editFor start count lines).origin? line with
      | some old => document.line? old
      | none => lines[line - (document.editFor start count lines).start]? := by
  have moved := (document.editFor start count lines).getElem?_splice_origin lines document.lines
    rfl line
  rw [Edit.within_of_fits _ document.lines.length (document.editFor_fits start count lines)] at moved
  exact moved

/-- A document, its slots and ranges of its lines agree on where an edit leaves a line. The edit that
replacing lines comes to leaves as many slots as lines, and it takes each line that is not replaced
along with its slot, of which it only marks the one behind lines that give way to none. Of the
inserted lines nothing is known. Each line that is not replaced has a place of its own afterwards,
and whatever the edit, the ranges have just the lines afterwards that were theirs before. -/
theorem lines_move_alike (document : Document) (start count : Nat) (lines : List String)
    (slots : Slots) (same : slots.length = document.length) (edit : Edit) (ranges : List LineRange)
    (inside : ∀ range ∈ ranges, range.last < document.length) :
    let after := (document.replace start count lines).1
    let made := (document.replace start count lines).2
    let spliced := slots.splice made
    spliced.length = after.length ∧
    (∀ line, match made.origin? line with
      | some old => after.line? line = document.line? old ∧
        spliced.entries[line]? = slots.entries[old]?.map fun slot =>
          if made.added = 0 ∧ line = made.start then Slots.markStale slot else slot
      | none => after.line? line = lines[line - made.start]? ∧
        ∃ stack, spliced.entries[line]? = some (Slot.unread stack)) ∧
    (∀ old, old < made.start ∨ made.oldStop ≤ old ↔ ∃! line, made.origin? line = some old) ∧
    ∀ line, line ∈ LineRange.lines (LineRange.shift edit ranges) ↔
      ∃ old, (edit.within document.length).origin? line = some old ∧
        old ∈ LineRange.lines ranges := by
  intro after made spliced
  have fits : made.Fits slots.length := same.symm ▸ document.editFor_fits start count lines
  refine ⟨?_, fun line => ?_, made.survives_iff, fun line => ?_⟩
  · change (slots.splice made).length = after.length
    rw [slots.length_splice made fits, document.length_replace, same]
    rfl
  · have texts := document.line?_replace_origin start count lines line
    have moved := slots.entries_splice_origin made line
    rw [made.within_of_fits _ fits] at moved
    change after.line? line = match made.origin? line with
      | some old => document.line? old
      | none => lines[line - made.start]? at texts
    cases known : made.origin? line <;> rw [known] at texts moved <;> exact ⟨texts, moved⟩
  · have known (line : Nat) (member : line ∈ LineRange.lines ranges) : line < document.length := by
      obtain ⟨range, here, -, last⟩ := member
      exact last.trans_lt (inside range here)
    rw [LineRange.lines_shift]
    exact edit.mem_move_iff_origin _ _ known line

theorem lines_move_alike_halved :
    ((Slots.unread 4).splice ⟨1, 2, 1⟩).length = 3 ∧
      ∀ line, line ∈ LineRange.lines (LineRange.shift ⟨1, 2, 1⟩ [⟨0, 3⟩]) ↔
        ∃ old, (Edit.within ⟨1, 2, 1⟩ 4).origin? line = some old ∧ old ∈ LineRange.lines [⟨0, 3⟩] :=
  have alike := lines_move_alike ⟨["a", "b", "c", "d"]⟩ 1 2 ["e"] (Slots.unread 4) rfl ⟨1, 2, 1⟩
    [⟨0, 3⟩] (by decide)
  ⟨alike.1, alike.2.2.2⟩

end Document

end Highlighter
