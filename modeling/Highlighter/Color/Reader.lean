import Highlighter.Color.Keyword
import Highlighter.Text.Number
import Highlighter.Text.Split

set_option autoImplicit false

namespace Highlighter.Color

def channel (high low : Nat) : UInt8 := UInt8.ofNat (high * 16 + low)

def ofDigits? : List Nat → Option Color
  | [r, g, b] | [r, g, b, _] => some ⟨channel r r, channel g g, channel b b⟩
  | [r, r', g, g', b, b'] | [r, r', g, g', b, b', _, _] =>
    some ⟨channel r r', channel g g', channel b b'⟩
  | _ => none

def ofHexChars? : List Char → Option Color
  | '#' :: digits => do ofDigits? (← digits.mapM (Text.digit? 16))
  | _ => none

def ofHex? (text : String) : Option Color := ofHexChars? text.toList

def callLead : List Char := "rgb(".toList

def ofCall? (cs : List Char) : Option Color := do
  let arguments ← Text.afterLead? callLead cs
  if arguments.getLast? != some ')' then none
  let channels ← (Text.pieces ',' arguments.dropLast).mapM fun piece =>
    Text.readNumber? 255 (Text.trimmed piece)
  match channels with
  | [r, g, b] => some ⟨UInt8.ofNat r, UInt8.ofNat g, UInt8.ofNat b⟩
  | _ => none

def read? (text : String) : Option Color :=
  let cs := Text.trimmed text.toList
  if cs.head? == some '#' then ofHexChars? cs
  else if (Text.afterLead? callLead cs).isSome then ofCall? cs
  else ofKeyword? (String.ofList cs)

structure Invalid where
  text : String
  deriving DecidableEq, Repr

def Invalid.message (fault : Invalid) : String := "invalid color: " ++ fault.text

def orInvalid (text : String) : Option Color → Except Invalid Color
  | some color => .ok color
  | none => .error ⟨text⟩

def parse (text : String) : Except Invalid Color :=
  orInvalid (String.ofList (Text.trimmed text.toList)) (read? text)

-- Reads hexadecimal digits only, with no blanks around them.
def parseHex (text : String) : Except Invalid Color := orInvalid text (ofHex? text)

end Highlighter.Color
