import Highlighter.Json.Reader
import Highlighter.Table

set_option autoImplicit false

namespace Highlighter.Json

abbrev Shape (α : Type) := (room : Nat) → Json → Option α

def wholeRoom : Nat := 128

def enter? (room : Nat) : Option Nat := if room ≤ 1 then none else some (room - 1)

namespace Shape

variable {α : Type}

def text : Shape String := fun _ json => json.text?

def optional (shape : Shape α) : Shape (Option α) := fun room json =>
  if json.isNull then some none else (shape room json).map some

def listOf (shape : Shape α) : Shape (List α) := fun room json =>
  match json with
  | .list items => do
    let room ← enter? room
    items.mapM (shape room)
  | _ => none

def tableOf (shape : Shape α) : Shape (Table α) := fun room json =>
  match json with
  | .record fields => do
    let room ← enter? room
    let pairs ← fields.mapM fun (key, value) => do return (← key, ← shape room value)
    return Table.ofPairs pairs
  | _ => none

-- A truth value, or a whole number that is true unless it is zero.
def flag : Shape Bool := fun _ json =>
  match json with
  | .bool value => some value
  | .whole value => if value ≤ 0x7FFFFFFFFFFFFFFF then some (value != 0) else none
  | _ => none

end Shape

structure Part where
  names : List String
  mayLack : Bool

namespace Shape

def parts (shape : List Part) : Shape (Nat × List (Option Json)) := fun room json =>
  match json with
  | .record fields => do
    let room ← enter? room
    let named ← fields.mapM fun (key, value) => do return (← key, value)
    let values ← shape.mapM fun part =>
      match named.filter fun (key, _) => part.names.contains key with
      | [] => some none
      | [(_, value)] => some (some value)
      | _ => none
    return (room, values)
  | .list items => do
    let room ← enter? room
    if items.length > shape.length then none
    if (shape.drop items.length).any fun part => !part.mayLack then none
    return (room, items.map some ++ List.replicate (shape.length - items.length) none)
  | _ => none

def partOr {α : Type} (missing : α) (shape : Shape α) (room : Nat) : Option Json → Option α
  | none => some missing
  | some json => shape room json

end Shape

end Highlighter.Json
