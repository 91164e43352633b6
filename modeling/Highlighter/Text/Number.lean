set_option autoImplicit false

namespace Highlighter.Text

def digit? (base : Nat) (c : Char) : Option Nat :=
  let value :=
    if c.isDigit then c.toNat - '0'.toNat
    else if 'a' ≤ c && c ≤ 'f' then c.toNat - 'a'.toNat + 10
    else if 'A' ≤ c && c ≤ 'F' then c.toNat - 'A'.toNat + 10
    else base
  if value < base then some value else none

def digitsValue (digits : List Char) : Nat :=
  digits.foldl (fun value c => 10 * value + (c.toNat - '0'.toNat)) 0

def readNumber? (largest : Nat) (cs : List Char) : Option Nat :=
  let digits := match cs with
    | '+' :: rest => rest
    | _ => cs
  if digits.isEmpty || !digits.all Char.isDigit then none
  else if digitsValue digits ≤ largest then some (digitsValue digits) else none

def largestIndex : Nat := 0xFFFFFFFFFFFFFFFF

def nextIndex? (n : Nat) : Option Nat := if n < largestIndex then some (n + 1) else none

def readIndex? (cs : List Char) : Option Nat := readNumber? largestIndex cs

end Highlighter.Text
