import Highlighter.Text.Class
import Highlighter.Text.Number
import Highlighter.Text.Split
import Highlighter.Toml.Basic

set_option autoImplicit false

namespace Highlighter.Toml

open Text (Step)

def isGap (c : Char) : Bool := c == ' ' || c == '\t'

def afterGap (cs : List Char) : List Char := cs.dropWhile isGap

def isAllowed (c : Char) : Bool := c == '\t' || (0x20 ≤ c.toNat && c.toNat != 0x7F)

def newline? : Step Unit
  | '\n' :: rest | '\r' :: '\n' :: rest => some ((), rest)
  | _ => none

def comment? (cs : List Char) : Option (List Char) :=
  match cs with
  | '#' :: rest =>
    match rest.dropWhile isAllowed with
    | [] => some []
    | '\n' :: rest => some ('\n' :: rest)
    | '\r' :: '\n' :: rest => some ('\n' :: rest)
    | _ => none
  | _ => some cs

def lineEnd? (cs : List Char) : Option (List Char) :=
  match comment? (afterGap cs) with
  | none => none
  | some [] => some []
  | some rest => (newline? rest).map (·.2)

def afterLines? (fuel : Nat) (cs : List Char) : Option (List Char) :=
  match fuel with
  | 0 => none
  | fuel + 1 =>
    match comment? (afterGap cs) with
    | none => none
    | some rest =>
      match newline? rest with
      | some (_, rest) => afterLines? fuel rest
      | none => some rest

def codePoint? (size : Nat) (cs : List Char) : Option (Char × List Char) :=
  let digits := cs.take size
  let code := digits.foldl (fun code c => code * 16 + (Text.digit? 16 c).getD 0) 0
  if digits.length = size && digits.all (fun c => (Text.digit? 16 c).isSome) && code.isValidChar
  then some (Char.ofNat code, cs.drop size)
  else none

def escape? : Step Char
  | 'b' :: rest => some ('\x08', rest)
  | 't' :: rest => some ('\t', rest)
  | 'n' :: rest => some ('\n', rest)
  | 'f' :: rest => some ('\x0c', rest)
  | 'r' :: rest => some ('\r', rest)
  | '"' :: rest => some ('"', rest)
  | '\\' :: rest => some ('\\', rest)
  | 'u' :: rest => codePoint? 4 rest
  | 'U' :: rest => codePoint? 8 rest
  | _ => none

def basic? (fuel : Nat) (found : List Char) (cs : List Char) : Option (String × List Char) :=
  match fuel with
  | 0 => none
  | fuel + 1 =>
    match cs with
    | '"' :: rest => some (String.ofList found.reverse, rest)
    | '\\' :: rest => escape? rest >>= fun (c, rest) => basic? fuel (c :: found) rest
    | c :: rest => if isAllowed c then basic? fuel (c :: found) rest else none
    | [] => none

-- The rest of a text in one pair of single quotes, which has no escapes.
def literal? (found : List Char) : Step String
  | '\'' :: rest => some (String.ofList found.reverse, rest)
  | c :: rest => if isAllowed c then literal? (c :: found) rest else none
  | [] => none

def closing? (quote : Char) (found cs : List Char) : Option (String × List Char) :=
  let count := (cs.takeWhile (· == quote)).length
  if 3 ≤ count && count ≤ 5 then
    some (String.ofList (List.replicate (count - 3) quote ++ found).reverse, cs.drop count)
  else none

def isLineGap (c : Char) : Bool := isGap c || c == '\n' || c == '\r'

def joinLine? (cs : List Char) : Option (List Char) :=
  match newline? (afterGap cs) with
  | some (_, rest) => some (rest.dropWhile isLineGap)
  | none => none

def longBasic? (fuel : Nat) (found : List Char) (cs : List Char) : Option (String × List Char) :=
  match fuel with
  | 0 => none
  | fuel + 1 =>
    match cs with
    | '"' :: '"' :: '"' :: _ => closing? '"' found cs
    | '\\' :: rest =>
      match joinLine? rest with
      | some rest => longBasic? fuel found rest
      | none => escape? rest >>= fun (c, rest) => longBasic? fuel (c :: found) rest
    | '\r' :: '\n' :: rest | '\n' :: rest => longBasic? fuel ('\n' :: found) rest
    | c :: rest => if isAllowed c then longBasic? fuel (c :: found) rest else none
    | [] => none

def longLiteral? (fuel : Nat) (found : List Char) (cs : List Char) : Option (String × List Char) :=
  match fuel with
  | 0 => none
  | fuel + 1 =>
    match cs with
    | '\'' :: '\'' :: '\'' :: _ => closing? '\'' found cs
    | '\r' :: '\n' :: rest | '\n' :: rest => longLiteral? fuel ('\n' :: found) rest
    | c :: rest => if isAllowed c then longLiteral? fuel (c :: found) rest else none
    | [] => none

def afterFirstNewline (cs : List Char) : List Char :=
  match newline? cs with
  | some (_, rest) => rest
  | none => cs

def quoted? : Step String
  | '"' :: '"' :: '"' :: rest =>
    longBasic? (rest.length + 1) [] (afterFirstNewline rest)
  | '\'' :: '\'' :: '\'' :: rest =>
    longLiteral? (rest.length + 1) [] (afterFirstNewline rest)
  | '"' :: rest => basic? (rest.length + 1) [] rest
  | '\'' :: rest => literal? [] rest
  | _ => none

def digits? (base : Nat) (afterDigit : Bool) : List Char → Option (List Char)
  | [] => if afterDigit then some [] else none
  | '_' :: rest => if afterDigit then digits? base false rest else none
  | c :: rest =>
    if (Text.digit? base c).isSome then (digits? base true rest).map (c :: ·) else none

def largest : Int := 0x7FFFFFFFFFFFFFFF

def smallest : Int := -0x8000000000000000

def inBase? (base : Nat) (cs : List Char) : Option Toml :=
  match digits? base false cs with
  | none => none
  | some digits =>
    let value := digits.foldl (fun value c => value * base + (Text.digit? base c).getD 0) 0
    if (value : Int) ≤ largest then some (.whole value) else none

def plainDigits? (cs : List Char) : Option (List Char) :=
  match digits? 10 false cs with
  | some ('0' :: _ :: _) => none
  | found => found

def signed (cs : List Char) : Bool × List Char :=
  match cs with
  | '-' :: rest => (true, rest)
  | '+' :: rest => (false, rest)
  | _ => (false, cs)

def decimal? (cs : List Char) : Option Toml :=
  let (negative, cs) := signed cs
  match plainDigits? cs with
  | none => none
  | some digits =>
    let size : Int := Text.digitsValue digits
    let value := if negative then -size else size
    if smallest ≤ value && value ≤ largest then some (.whole value) else none

def isExponentMark (c : Char) : Bool := c == 'e' || c == 'E'

-- A number with a fraction, an exponent or both, or one of the two that are no numbers.
def real? (cs : List Char) : Option Toml :=
  let (_, size) := signed cs
  let mantissa := size.takeWhile fun c => !isExponentMark c
  let exponent := size.drop mantissa.length
  let wholePart := mantissa.takeWhile (· != '.')
  let fraction := mantissa.drop wholePart.length
  let exponentHolds := match exponent with
    | [] => true
    | _ :: rest => (digits? 10 false (signed rest).2).isSome
  let fractionHolds := match fraction with
    | [] => !exponent.isEmpty
    | _ :: rest => (digits? 10 false rest).isSome
  if size == "inf".toList || size == "nan".toList ||
      ((plainDigits? wholePart).isSome && fractionHolds && exponentHolds)
  then some (.real (String.ofList cs))
  else none

def isWordChar (c : Char) : Bool := c.isAlphanum || c == '_' || c == '+' || c == '-' || c == '.'

def word? (cs : List Char) : Option Toml :=
  match cs with
  | '0' :: 'x' :: rest => inBase? 16 rest
  | '0' :: 'o' :: rest => inBase? 8 rest
  | '0' :: 'b' :: rest => inBase? 2 rest
  | _ =>
    if cs == "true".toList then some (.flag true)
    else if cs == "false".toList then some (.flag false)
    else
      match decimal? cs with
      | some value => some value
      | none => if (plainDigits? (signed cs).2).isSome then none else real? cs

def isKeyChar (c : Char) : Bool := c.isAlphanum || c == '_' || c == '-'

def key? : Step String
  | '"' :: '"' :: '"' :: _ | '\'' :: '\'' :: '\'' :: _ => none
  | '"' :: rest => quoted? ('"' :: rest)
  | '\'' :: rest => quoted? ('\'' :: rest)
  | cs =>
    let key := cs.takeWhile isKeyChar
    if key.isEmpty then none else some (String.ofList key, cs.drop key.length)

def keys? (fuel : Nat) (cs : List Char) : Option (List String × List Char) :=
  match fuel with
  | 0 => none
  | fuel + 1 => do
    let (key, rest) ← key? (afterGap cs)
    match afterGap rest with
    | '.' :: rest =>
      let (others, rest) ← keys? fuel rest
      return (key :: others, rest)
    | rest => return ([key], rest)

mutual

-- `depth` bounds the lists and tables around a value, `fuel` the parts read so far.
def value? (depth fuel : Nat) (cs : List Char) : Option (Toml × List Char) :=
  match depth, fuel with
  | depth + 1, fuel + 1 =>
    match cs with
    | '"' :: _ | '\'' :: _ => (quoted? cs).map fun (value, rest) => (.text value, rest)
    | '[' :: rest => (items? depth fuel rest).map fun (items, rest) => (.list items, rest)
    | '\x7b' :: rest =>
      match afterGap rest with
      | '\x7d' :: rest => some (.table .inline [], rest)
      | rest =>
        (entries? depth fuel [] rest).map fun (entries, rest) => (.table .inline entries, rest)
    | _ =>
      let word := cs.takeWhile isWordChar
      (word? word).map fun value => (value, cs.drop word.length)
  | _, _ => none

def items? (depth fuel : Nat) (cs : List Char) : Option (List Toml × List Char) :=
  match fuel with
  | 0 => none
  | fuel + 1 => do
    match ← afterLines? (cs.length + 1) cs with
    | ']' :: rest => return ([], rest)
    | cs =>
      let (item, rest) ← value? depth fuel cs
      match ← afterLines? (rest.length + 1) rest with
      | ']' :: rest => return ([item], rest)
      | ',' :: rest =>
        let (items, rest) ← items? depth fuel rest
        return (item :: items, rest)
      | _ => none

def entries? (depth fuel : Nat) (found : Entries) (cs : List Char) :
    Option (Entries × List Char) :=
  match fuel with
  | 0 => none
  | fuel + 1 => do
    let (keys, rest) ← keys? (cs.length + 1) cs
    match rest with
    | '=' :: rest =>
      let (value, rest) ← value? depth fuel (afterGap rest)
      let found ← assign value keys found
      match afterGap rest with
      | '\x7d' :: rest => return (found, rest)
      | ',' :: rest => entries? depth fuel found rest
      | _ => none
    | _ => none

end

def deepest : Nat := 80

def statements? (fuel : Nat) (section? : List String) (found : Entries) (cs : List Char) :
    Option Entries :=
  match fuel with
  | 0 => none
  | fuel + 1 => do
    match ← afterLines? (cs.length + 1) cs with
    | [] => return found
    | '[' :: rest =>
      let (keys, rest) ← keys? (rest.length + 1) rest
      match rest with
      | ']' :: rest => statements? fuel keys (← openTable keys found) (← lineEnd? rest)
      | _ => none
    | cs =>
      let (keys, rest) ← keys? (cs.length + 1) cs
      match rest with
      | '=' :: rest =>
        let (value, rest) ← value? deepest (2 * rest.length + 2) (afterGap rest)
        statements? fuel section? (← within (assign value keys) section? found) (← lineEnd? rest)
      | _ => none

def read? (source : String) : Option Entries :=
  let cs := match source.toList with
    | '\uFEFF' :: rest => rest
    | cs => cs
  statements? (cs.length + 1) [] [] cs

end Highlighter.Toml
