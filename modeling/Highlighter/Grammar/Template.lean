import Highlighter.Regex.Match
import Highlighter.Text.Case
import Highlighter.Text.Number

set_option autoImplicit false

namespace Highlighter

open Regex (Region)

inductive LetterCase where
  | kept
  | down
  | up
  deriving DecidableEq, Repr

def LetterCase.apply : LetterCase → List Char → List Char
  | .kept, cs => cs
  | .down, cs => Text.lower cs
  | .up, cs => Text.upper cs

inductive TemplatePart where
  | plain (c : Char)
  | capture (written digits : List Char) (letterCase : LetterCase)
  deriving Repr

abbrev Template := List TemplatePart

namespace Template

def bracedCase? (cs : List Char) : Option (LetterCase × List Char) :=
  match Text.afterLead? ":/downcase\x7d".toList cs with
  | some rest => some (.down, rest)
  | none => (Text.afterLead? ":/upcase\x7d".toList cs).map (LetterCase.up, ·)

def reference? (cs : List Char) : Option (TemplatePart × List Char) :=
  let written (rest : List Char) := '$' :: cs.take (cs.length - rest.length)
  match cs with
  | '{' :: inner =>
    let digits := inner.takeWhile Text.isDecimal
    if digits.isEmpty then none
    else
      (bracedCase? (inner.dropWhile Text.isDecimal)).map fun (letterCase, rest) =>
        (.capture (written rest) digits letterCase, rest)
  | _ =>
    let digits := cs.takeWhile Text.isDecimal
    let rest := cs.dropWhile Text.isDecimal
    if digits.isEmpty then none else some (.capture (written rest) digits .kept, rest)

def partsOf : Nat → List Char → Template
  | 0, cs => cs.map .plain
  | _ + 1, [] => []
  | fuel + 1, c :: rest =>
    match if c == '$' then reference? rest else none with
    | some (part, rest) => part :: partsOf fuel rest
    | none => .plain c :: partsOf fuel rest

-- Each part takes a character at least.
def ofName (name : String) : Template := partsOf name.length name.toList

def resolvePart (line : List Char) (captures : Nat → Option Region) : TemplatePart → List Char
  | .plain c => [c]
  | .capture written digits letterCase =>
    let captured := do
      let region ← captures (← Text.readIndex? digits)
      Text.slice? line region.start region.stop
    match captured with
    | some cs => letterCase.apply (cs.dropWhile (· == '.'))
    | none => written

-- A capture that is not there leaves its reference in the name.
def resolve (template : Template) (line : List Char) (captures : Nat → Option Region) : String :=
  String.ofList (template.flatMap (resolvePart line captures))

end Template

end Highlighter
