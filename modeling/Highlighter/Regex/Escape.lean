import Highlighter.Regex.CharSet
import Highlighter.Text.Number
import Highlighter.Text.Split

set_option autoImplicit false

namespace Highlighter.Regex

open Text

/-- A character given by its bytes keeps its case where other characters do not. -/
structure Letter where
  char : Char
  plain : Bool
  deriving Repr

namespace Escape

def charOf? (code : Nat) : Option Char :=
  if code.isValidChar then some (Char.ofNat code) else none

def code (base : Nat) (digits : List Char) : Nat :=
  digits.foldl (fun value c => value * base + (digit? base c).getD 0) 0

def isDigitOf (base : Nat) (c : Char) : Bool := (digit? base c).isSome

def digits (base most : Nat) (cs : List Char) : List Char × List Char :=
  let found := (cs.takeWhile (isDigitOf base)).take most
  (found, cs.drop found.length)

def ledBytes? (lead : Nat) : Option Nat :=
  if lead < 0x80 then some 1
  else if 0xC2 ≤ lead && lead < 0xE0 then some 2
  else if 0xE0 ≤ lead && lead < 0xF0 then some 3
  else if 0xF0 ≤ lead && lead < 0xF5 then some 4
  else none

def byte? : Step Nat
  | '\\' :: 'x' :: '{' :: _ => none
  | '\\' :: 'x' :: rest => some (code 16 (digits 16 2 rest).1, (digits 16 2 rest).2)
  | _ => none

def furtherBytes? : Nat → Nat → Step Nat
  | 0, value, cs => some (value, cs)
  | count + 1, value, cs => do
    let (byte, rest) ← byte? cs
    if 0x80 ≤ byte && byte < 0xC0 then furtherBytes? count (value * 64 + byte % 64) rest else none

def ofBytes? : Step Char := fun cs => do
  let (lead, rest) ← byte? cs
  let size ← ledBytes? lead
  let start := if size = 1 then lead else lead % Nat.pow 2 (7 - size)
  let (value, rest) ← furtherBytes? (size - 1) start rest
  let c ← charOf? value
  if c.utf8Size = size then some (c, rest) else none

def braced? (letter : Char) (base most : Nat) (cs : List Char) : Option (Letter × List Char) :=
  match digits base most cs with
  | ([], _) => some (⟨letter, true⟩, '{' :: cs)
  | (found, '}' :: rest) => (charOf? (code base found)).map fun c => (⟨c, true⟩, rest)
  | (_, rest) =>
    match rest with
    | c :: _ => if isDigitOf base c then none else some (⟨letter, true⟩, '{' :: cs)
    | [] => some (⟨letter, true⟩, '{' :: cs)

def plainEscape (c : Char) : Char :=
  match c with
  | 't' => '\t'
  | 'n' => '\n'
  | 'r' => '\r'
  | 'f' => '\x0c'
  | 'v' => '\x0b'
  | 'a' => '\x07'
  | 'b' => '\x08'
  | 'e' => '\x1b'
  | _ => c

def control (c : Char) : Char :=
  if c == '?' then '\x7f' else Char.ofNat (c.toNat % 32 + c.toNat / 128 % 2 * 128)

def single? : Step Char
  | 'C' :: '-' :: rest | 'c' :: rest =>
    match rest with
    | '\\' :: c :: rest => some (control (plainEscape c), rest)
    | c :: rest => some (control c, rest)
    | [] => none
  | 'C' :: _ => none
  | c :: rest => some (plainEscape c, rest)
  | [] => none

def letter? : Step Letter
  | 'x' :: '{' :: rest => braced? 'x' 16 8 rest
  | 'x' :: rest =>
    if rest.isEmpty then some (⟨'x', true⟩, [])
    else (ofBytes? ('\\' :: 'x' :: rest)).map fun (c, rest) => (⟨c, false⟩, rest)
  | 'o' :: '{' :: rest => braced? 'o' 8 11 rest
  | 'u' :: rest =>
    if rest.isEmpty then some (⟨'u', true⟩, [])
    else
      match digits 16 4 rest with
      | ([a, b, c, d], rest) => (charOf? (code 16 [a, b, c, d])).map fun c => (⟨c, true⟩, rest)
      | _ => none
  | cs => (single? cs).map fun (c, rest) => (⟨c, true⟩, rest)

def property? (negated : Bool) (cs : List Char) : Option (CharSet × List Char) :=
  let (negated, cs) := match cs with
    | '^' :: rest => (!negated, rest)
    | _ => (negated, cs)
  match splitFirst? '}' cs with
  | none => none
  | some (name, rest) =>
    (Property.ofName? name).map fun found =>
      (if negated then .not (.property found) else .property found, rest)

-- An escape that stands for a set of characters. The outer result is absent when the escape is no
-- such one, the inner when its property has no known name.
def set? : List Char → Option (Option (CharSet × List Char))
  | 'w' :: rest => some (some (.property .word, rest))
  | 'W' :: rest => some (some (.not (.property .word), rest))
  | 'd' :: rest => some (some (.property .digit, rest))
  | 'D' :: rest => some (some (.not (.property .digit), rest))
  | 's' :: rest => some (some (.property .space, rest))
  | 'S' :: rest => some (some (.not (.property .space), rest))
  | 'h' :: rest => some (some (.property .xdigit, rest))
  | 'H' :: rest => some (some (.not (.property .xdigit), rest))
  | 'p' :: '{' :: rest => some (property? false rest)
  | 'P' :: '{' :: rest => some (property? true rest)
  | _ => none

end Escape

end Highlighter.Regex
