import Highlighter.Json.Basic

set_option autoImplicit false

namespace Highlighter.Json

def hexDigit (n : Nat) : Char := Nat.digitChar (n % 16)

-- Quotes, backslashes and control characters cannot stand for themselves.
def escaped (c : Char) : List Char :=
  if c == '"' || c == '\\' then ['\\', c]
  else if c.toNat < 0x20 then ['\\', 'u', '0', '0', hexDigit (c.toNat / 16), hexDigit c.toNat]
  else [c]

def writeText (text : String) : List Char := '"' :: text.toList.flatMap escaped ++ ['"']

mutual

def write : Json → List Char
  | .null => ['n', 'u', 'l', 'l']
  | .bool value => (toString value).toList
  | .whole value => (toString value).toList
  | .real literal => literal.toList
  | .text value => writeText (value.getD "")
  | .list items => '[' :: writeItems items ++ [']']
  | .record fields => '\x7b' :: writeFields fields ++ ['\x7d']

def writeItems : List Json → List Char
  | [] => []
  | [item] => write item
  | item :: rest => write item ++ ',' :: writeItems rest

def writeFields : List (Option String × Json) → List Char
  | [] => []
  | [(name, value)] => writeText (name.getD "") ++ ':' :: write value
  | (name, value) :: rest =>
    writeText (name.getD "") ++ ':' :: write value ++ ',' :: writeFields rest

end

def toText (json : Json) : String := String.ofList (write json)

end Highlighter.Json
