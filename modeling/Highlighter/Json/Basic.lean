set_option autoImplicit false

namespace Highlighter

inductive Json where
  | null
  | bool (value : Bool)
  -- A number without fraction or exponent that fits a 64-bit integer, signed or not.
  | whole (value : Int)
  -- Any other number.
  | real (literal : String)
  -- Nothing stands for a string with half of a surrogate pair.
  | text (value : Option String)
  | list (items : List Json)
  | record (fields : List (Option String × Json))

namespace Json

def field? (json : Json) (name : String) : Option Json :=
  match json with
  | .record fields => fields.reverse.findSome? fun (key, value) =>
      if key == some name then some value else none
  | _ => none

def text? : Json → Option String
  | .text value => value
  | _ => none

def whole? : Json → Option Int
  | .whole value => some value
  | _ => none

def bool? : Json → Option Bool
  | .bool value => some value
  | _ => none

def list? : Json → Option (List Json)
  | .list items => some items
  | _ => none

def isNull : Json → Bool
  | .null => true
  | _ => false

end Json

end Highlighter
