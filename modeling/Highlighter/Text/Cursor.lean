import Highlighter.Text.Split

set_option autoImplicit false

namespace Highlighter.Text

theorem byteLength_append (a b : List Char) :
    byteLength (a ++ b) = byteLength a + byteLength b := by
  induction a with
  | nil => simp [byteLength]
  | cons c rest ih => simp [byteLength, ih, Nat.add_assoc]

theorem byteLength_reverse (cs : List Char) : byteLength cs.reverse = byteLength cs := by
  induction cs with
  | nil => rfl
  | cons c rest ih => simp [byteLength, byteLength_append, ih, Nat.add_comm]

-- `before` is in reverse: the nearest character comes first.
structure Cursor (text : List Char) where
  before : List Char
  after : List Char
  offset : Nat
  joined : before.reverse ++ after = text
  measured : offset = byteLength before

namespace Cursor

variable {text : List Char}

def first (text : List Char) : Cursor text := ⟨[], text, 0, rfl, rfl⟩

def next? (cursor : Cursor text) : Option (Char × Cursor text) :=
  match cursor with
  | ⟨_, [], _, _, _⟩ => none
  | ⟨before, c :: after, offset, joined, measured⟩ =>
    some (c, ⟨c :: before, after, offset + c.utf8Size, by simpa using joined, by
      simp [byteLength, measured, Nat.add_comm]⟩)

def previous? (cursor : Cursor text) : Option (Char × Cursor text) :=
  match cursor with
  | ⟨[], _, _, _, _⟩ => none
  | ⟨c :: before, after, offset, joined, measured⟩ =>
    some (c, ⟨before, c :: after, offset - c.utf8Size, by simpa using joined, by
      simp [byteLength] at measured; omega⟩)

def lastChar? (cursor : Cursor text) : Option Char := cursor.before.head?

def nextChar? (cursor : Cursor text) : Option Char := cursor.after.head?

def isFirst (cursor : Cursor text) : Bool := cursor.before.isEmpty

def isLast (cursor : Cursor text) : Bool := cursor.after.isEmpty

theorem after_of_next? {cursor next : Cursor text} {c : Char}
    (step : cursor.next? = some (c, next)) : cursor.after = c :: next.after := by
  cases cursor with
  | mk before after offset joined measured =>
    cases after <;> simp [next?] at step
    obtain ⟨rfl, rfl⟩ := step
    rfl

theorem length_of_next? {cursor next : Cursor text} {c : Char}
    (step : cursor.next? = some (c, next)) : next.after.length < cursor.after.length := by
  simp [after_of_next? step]

theorem length_of_previous? {cursor previous : Cursor text} {c : Char}
    (step : cursor.previous? = some (c, previous)) :
    previous.before.length < cursor.before.length := by
  cases cursor with
  | mk before after offset joined measured =>
    cases before <;> simp [previous?] at step
    obtain ⟨rfl, rfl⟩ := step
    simp

theorem offset_of_next? {cursor next : Cursor text} {c : Char}
    (step : cursor.next? = some (c, next)) : next.offset = cursor.offset + c.utf8Size := by
  cases cursor with
  | mk before after offset joined measured =>
    cases after <;> simp [next?] at step
    obtain ⟨rfl, rfl⟩ := step
    rfl

theorem offset_le (cursor : Cursor text) : cursor.offset ≤ byteLength text := by
  have whole := congrArg byteLength cursor.joined
  rw [byteLength_append, byteLength_reverse, ← cursor.measured] at whole
  omega

def forward? (offset : Nat) (cursor : Cursor text) : Option (Cursor text) :=
  if cursor.offset = offset then some cursor
  else if offset < cursor.offset then none
  else
    match _step : cursor.next? with
    | none => none
    | some (_, next) => next.forward? offset
  termination_by cursor.after.length
  decreasing_by exact length_of_next? _step

def at? (text : List Char) (offset : Nat) : Option (Cursor text) := (first text).forward? offset

theorem forward?_offset {offset : Nat} {cursor found : Cursor text}
    (reached : cursor.forward? offset = some found) : found.offset = offset := by
  fun_induction forward? offset cursor with
  | case1 cursor here =>
    obtain rfl := Option.some.inj reached
    exact here
  | case2 => exact absurd reached (by simp)
  | case3 => exact absurd reached (by simp)
  | case4 cursor _ _ _ next _ ih => exact ih reached

theorem at?_offset {offset : Nat} {found : Cursor text} (reached : at? text offset = some found) :
    found.offset = offset := forward?_offset reached

end Cursor

def takeBytes? : Nat → List Char → Option (List Char)
  | 0, _ => some []
  | _ + 1, [] => none
  | size + 1, c :: rest =>
    if c.utf8Size ≤ size + 1 then (takeBytes? (size + 1 - c.utf8Size) rest).map (c :: ·) else none

theorem byteLength_takeBytes? {size : Nat} {text taken : List Char}
    (cut : takeBytes? size text = some taken) : byteLength taken = size := by
  fun_induction takeBytes? size text generalizing taken with
  | case1 =>
    obtain rfl := Option.some.inj cut
    rfl
  | case2 => exact nomatch cut
  | case3 size c rest fits ih =>
    obtain ⟨shorter, inner, rfl⟩ := Option.map_eq_some_iff.mp cut
    have length := ih inner
    simp only [byteLength, length]
    omega
  | case4 => exact nomatch cut

def slice? (text : List Char) (start stop : Nat) : Option (List Char) :=
  match Cursor.at? text start with
  | none => none
  | some cursor => if start ≤ stop then takeBytes? (stop - start) cursor.after else none

end Highlighter.Text
