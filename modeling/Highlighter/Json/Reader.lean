import Highlighter.Json.Basic
import Highlighter.Text.Number
import Highlighter.Text.Split

set_option autoImplicit false

namespace Highlighter.Json

open Text (Step)

def isGap (c : Char) : Bool := c == ' ' || c == '\t' || c == '\n' || c == '\r'

def afterGap (cs : List Char) : List Char := cs.dropWhile isGap

def hexUnit? : Step Nat
  | a :: b :: c :: d :: rest => do
    let a ← Text.digit? 16 a
    let b ← Text.digit? 16 b
    let c ← Text.digit? 16 c
    let d ← Text.digit? 16 d
    return (((a * 16 + b) * 16 + c) * 16 + d, rest)
  | _ => none

def plainEscape? : Char → Option Char
  | '"' => some '"'
  | '\\' => some '\\'
  | '/' => some '/'
  | 'b' => some '\x08'
  | 'f' => some '\x0c'
  | 'n' => some '\n'
  | 'r' => some '\r'
  | 't' => some '\t'
  | _ => none

def isHighSurrogate (unit : Nat) : Bool := 0xD800 ≤ unit && unit < 0xDC00

def isLowSurrogate (unit : Nat) : Bool := 0xDC00 ≤ unit && unit < 0xE000

def unitsChar? (unit : Nat) (rest : List Char) : Option Char × List Char :=
  if isHighSurrogate unit then
    match rest with
    | '\\' :: 'u' :: tail =>
      match hexUnit? tail with
      | some (low, after) =>
        if isLowSurrogate low then
          (some (Char.ofNat (0x10000 + (unit - 0xD800) * 0x400 + (low - 0xDC00))), after)
        else (none, rest)
      | none => (none, rest)
    | _ => (none, rest)
  else if isLowSurrogate unit then (none, rest)
  else (some (Char.ofNat unit), rest)

-- The rest of a string after its opening quote. `found` holds its characters, last first, until
-- one of them is no character.
def stringTail (fuel : Nat) (found : Option (List Char)) : Step (Option String) := fun cs =>
  match fuel, cs with
  | 0, _ => none
  | _, [] => none
  | _, '"' :: rest => some (found.map fun cs => String.ofList cs.reverse, rest)
  | fuel + 1, '\\' :: 'u' :: rest => do
    let (unit, rest) ← hexUnit? rest
    let (c?, rest) := unitsChar? unit rest
    stringTail fuel (do return (← c?) :: (← found)) rest
  | fuel + 1, '\\' :: c :: rest => do
    let c ← plainEscape? c
    stringTail fuel (found.map (c :: ·)) rest
  | fuel + 1, c :: rest => if c.toNat < 0x20 then none else stringTail fuel (found.map (c :: ·)) rest

def string? : Step (Option String)
  | '"' :: rest => stringTail (rest.length + 1) (some []) rest
  | _ => none

def digits : Step (List Char) := fun cs =>
  let found := cs.takeWhile Char.isDigit
  if found.isEmpty then none else some (found, cs.dropWhile Char.isDigit)

def fraction : Step (List Char)
  | '.' :: rest => (digits rest).map fun (found, rest) => ('.' :: found, rest)
  | cs => some ([], cs)

def exponent : Step (List Char)
  | e :: rest =>
    if e == 'e' || e == 'E' then
      match rest with
      | sign :: tail =>
        if sign == '+' || sign == '-' then
          (digits tail).map fun (found, rest) => (e :: sign :: found, rest)
        else (digits rest).map fun (found, rest) => (e :: found, rest)
      | [] => none
    else some ([], e :: rest)
  | [] => some ([], [])

def number? : Step Json := fun cs => do
  let (negative, unsigned) := match cs with
    | '-' :: rest => (true, rest)
    | _ => (false, cs)
  let (found, rest) ← digits unsigned
  if found.head? == some '0' && found.length > 1 then none
  let (part, rest) ← fraction rest
  let (power, rest) ← exponent rest
  let size := Text.digitsValue found
  let literal := (if negative then ['-'] else []) ++ found ++ part ++ power
  if part.isEmpty && power.isEmpty then
    if negative && 0 < size && size ≤ 0x8000000000000000 then return (.whole (-size), rest)
    if !negative && size ≤ Text.largestIndex then return (.whole size, rest)
  return (.real (String.ofList literal), rest)

mutual

def value? (fuel : Nat) : Step Json := fun cs =>
  match fuel with
  | 0 => none
  | fuel + 1 =>
    match afterGap cs with
    | 'n' :: 'u' :: 'l' :: 'l' :: rest => some (.null, rest)
    | 't' :: 'r' :: 'u' :: 'e' :: rest => some (.bool true, rest)
    | 'f' :: 'a' :: 'l' :: 's' :: 'e' :: rest => some (.bool false, rest)
    | '[' :: rest =>
      match afterGap rest with
      | ']' :: rest => some (.list [], rest)
      | rest => (items? fuel rest).map fun (items, rest) => (.list items, rest)
    | '\x7b' :: rest =>
      match afterGap rest with
      | '\x7d' :: rest => some (.record [], rest)
      | rest => (fields? fuel rest).map fun (fields, rest) => (.record fields, rest)
    | '"' :: rest => (string? ('"' :: rest)).map fun (found, rest) => (.text found, rest)
    | rest => number? rest

def items? (fuel : Nat) : Step (List Json) := fun cs =>
  match fuel with
  | 0 => none
  | fuel + 1 => do
    let (first, rest) ← value? fuel cs
    match afterGap rest with
    | ',' :: rest =>
      let (others, rest) ← items? fuel rest
      return (first :: others, rest)
    | ']' :: rest => return ([first], rest)
    | _ => none

def fields? (fuel : Nat) : Step (List (Option String × Json)) := fun cs =>
  match fuel with
  | 0 => none
  | fuel + 1 => do
    let (name, rest) ← string? (afterGap cs)
    match afterGap rest with
    | ':' :: rest =>
      let (first, rest) ← value? fuel rest
      match afterGap rest with
      | ',' :: rest =>
        let (others, rest) ← fields? fuel rest
        return ((name, first) :: others, rest)
      | '\x7d' :: rest => return ([(name, first)], rest)
      | _ => none
    | _ => none

end

-- Every step of the reader takes a character, so the length of the text bounds their number.
def read? (source : String) : Option Json :=
  let cs := source.toList
  match value? (2 * cs.length + 2) cs with
  | some (json, rest) => if (afterGap rest).isEmpty then some json else none
  | none => none

end Highlighter.Json
