import Highlighter.Regex.Class
import Highlighter.Regex.Expr

set_option autoImplicit false

namespace Highlighter.Regex

structure Flags where
  anyCase : Bool
  dotAll : Bool
  spaced : Bool

structure Reading where
  rest : List Char
  count : Nat
  names : List (String × Nat)

abbrev Parse := StateT Reading Option

namespace Parse

def rest : Parse (List Char) := do return (← get).rest

def goTo (rest : List Char) : Parse Unit := modify fun reading => { reading with rest := rest }

def step {α : Type} (step : Text.Step α) : Parse α := do
  match step (← rest) with
  | some (value, rest) =>
    goTo rest
    return value
  | none => failure

def openGroup (name : Option String) : Parse Nat := do
  let reading ← get
  let number := reading.count + 1
  set { reading with
    count := number
    names := (name.map (·, number)).toList ++ reading.names }
  return number

-- The text after comments and, where blanks do not count, after blanks.
def afterGaps (spaced : Bool) (fuel : Nat) (cs : List Char) : Option (List Char) :=
  match fuel with
  | 0 => none
  | fuel + 1 =>
    match cs with
    | '(' :: '?' :: '#' :: rest => afterNote spaced fuel rest
    | '#' :: rest =>
      if spaced then afterGaps spaced fuel ((rest.dropWhile (· != '\n')).drop 1) else some cs
    | c :: rest =>
      if spaced && Text.isAsciiSpace c then afterGaps spaced fuel rest else some cs
    | [] => some []
where
  afterNote (spaced : Bool) (fuel : Nat) (cs : List Char) : Option (List Char) :=
    match fuel with
    | 0 => none
    | fuel + 1 =>
      match cs with
      | ')' :: rest => afterGaps spaced fuel rest
      | '\\' :: _ :: rest => afterNote spaced fuel rest
      | _ :: rest => afterNote spaced fuel rest
      | [] => none

def skipGaps (flags : Flags) : Parse Unit := do
  let cs ← rest
  match afterGaps flags.spaced (cs.length + 1) cs with
  | some rest => goTo rest
  | none => failure

end Parse

namespace Expr

def mergeFolded : List Expr → List Expr
  | [] => []
  | .folded a :: rest =>
    match mergeFolded rest with
    | .folded b :: tail => .folded (a ++ b) :: tail
    | tail => .folded a :: tail
  | expr :: rest => expr :: mergeFolded rest

def chain : List Expr → Expr
  | [] => .empty
  | [expr] => expr
  | expr :: rest => .seq expr (chain rest)

def sequence (items : List Expr) : Expr := chain (mergeFolded items)

def oneOf : List Expr → Expr
  | [] => .empty
  | [expr] => expr
  | expr :: rest => .alt expr (oneOf rest)

def char (flags : Flags) (c : Char) : Expr :=
  if flags.anyCase then .folded (Text.fold c) else .set (.char c)

def letter (flags : Flags) (letter : Letter) : Expr :=
  if letter.plain then char flags letter.char else .set (.char letter.char)

-- A class that does not count case also matches what folds as one of its characters does.
def ofClass (flags : Flags) (negated : Bool) (set : CharSet) : Expr :=
  if !flags.anyCase then .set (if negated then .not set else set)
  else if negated then .set (.not (.anyCase set))
  else
    let long := Text.foldExpansions.filterMap fun (c, letters) =>
      if set.mem c then some (.folded letters) else none
    oneOf (.set (.anyCase set) :: long)

-- Two characters that end a line together, or one that does so alone.
def lineBreak : Expr :=
  .atomic (.alt (.seq (.set (.char '\r')) (.set (.char '\n')))
    (.set (.union (.range '\n' '\r')
      (.union (.char '\x85') (.union (.char '\u2028') (.char '\u2029'))))))

end Expr

structure Repeat where
  least : Nat
  most : Option Nat
  greedy : Bool
  possessive : Bool

namespace Repeat

def largest : Nat := 100000

inductive Plain where
  | optional
  | star
  | plus
  | lazyOptional
  | lazyStar
  | lazyPlus
  deriving DecidableEq

def plain? (least : Nat) (most : Option Nat) (greedy : Bool) : Option Plain :=
  match least, most, greedy with
  | 0, some 1, true => some .optional
  | 0, none, true => some .star
  | 1, none, true => some .plus
  | 0, some 1, false => some .lazyOptional
  | 0, none, false => some .lazyStar
  | 1, none, false => some .lazyPlus
  | _, _, _ => none

def Plain.expr (body : Expr) : Plain → Expr
  | .optional => .many body 0 (some 1) true
  | .star => .many body 0 none true
  | .plus => .many body 1 none true
  | .lazyOptional => .many body 0 (some 1) false
  | .lazyStar => .many body 0 none false
  | .lazyPlus => .many body 1 none false

def Plain.within (body : Expr) (outer inner : Plain) : Expr :=
  match inner, outer with
  | .optional, .star | .optional, .plus | .plus, .optional | .plus, .star => Plain.star.expr body
  | .optional, .lazyOptional => Plain.lazyOptional.expr body
  | .optional, .lazyStar | .lazyOptional, .star | .lazyOptional, .plus
  | .lazyOptional, .lazyStar | .lazyOptional, .lazyPlus
  | .lazyPlus, .lazyOptional | .lazyPlus, .lazyStar => Plain.lazyStar.expr body
  | .star, .lazyOptional | .star, .lazyStar | .plus, .lazyStar =>
    Plain.lazyOptional.expr (Plain.plus.expr body)
  | .lazyPlus, .star => Plain.optional.expr (Plain.lazyPlus.expr body)
  | .optional, .lazyPlus | .plus, .lazyOptional | .lazyPlus, .optional =>
    outer.expr (inner.expr body)
  | _, _ => inner.expr body

def apply (repeated : Repeat) (body : Expr) : Expr :=
  let found :=
    if repeated.least = 1 && repeated.most = some 1 then body
    else
      match body with
      | .many inner least most greedy =>
        match plain? repeated.least repeated.most repeated.greedy, plain? least most greedy with
        | some outer, some kind => outer.within inner kind
        | none, some .star | none, some .plus =>
          let capped := repeated.most.map fun m =>
            if repeated.greedy && 1 < m then max 1 repeated.least else m
          .many body repeated.least capped repeated.greedy
        | _, _ => .many body repeated.least repeated.most repeated.greedy
      | _ => .many body repeated.least repeated.most repeated.greedy
  if repeated.possessive then .atomic found else found

def lazyMark (least : Nat) (most : Option Nat) : List Char → Repeat × List Char
  | '?' :: rest => (⟨least, most, false, false⟩, rest)
  | rest => (⟨least, most, true, false⟩, rest)

def anyMark (least : Nat) (most : Option Nat) : List Char → Repeat × List Char
  | '+' :: rest => (⟨least, most, true, true⟩, rest)
  | rest => lazyMark least most rest

-- The bounds in braces. A single bound takes no mark, and bounds in the wrong order are put in
-- order and make the repeat possessive. The outer result is absent when a bound is too large, the inner when the
-- brace stands for itself.
def bounds? (cs : List Char) : Option (Option (Repeat × List Char)) :=
  let (low, rest) := (cs.takeWhile Char.isDigit, cs.dropWhile Char.isDigit)
  let bound (digits : List Char) := Text.digitsValue digits
  match rest with
  | '}' :: rest =>
    if low.isEmpty then some none
    else if largest < bound low then none
    else some (some (⟨bound low, some (bound low), true, false⟩, rest))
  | ',' :: rest =>
    let (high, rest) := (rest.takeWhile Char.isDigit, rest.dropWhile Char.isDigit)
    if largest < bound low || largest < bound high then none
    else
      match rest with
      | '}' :: rest =>
        if low.isEmpty && high.isEmpty then some none
        else if high.isEmpty then some (some (lazyMark (bound low) none rest))
        else if bound high < bound low then
          some (some (⟨bound high, some (bound low), true, true⟩, rest))
        else some (some (lazyMark (bound low) (some (bound high)) rest))
      | _ => some none
  | _ => if largest < bound low then none else some none

-- A repeat at the start of a text. The outer result is absent when it is malformed.
def read? : List Char → Option (Option (Repeat × List Char))
  | '?' :: rest => some (some (anyMark 0 (some 1) rest))
  | '*' :: rest => some (some (anyMark 0 none rest))
  | '+' :: rest => some (some (anyMark 1 none rest))
  | '{' :: rest => bounds? rest
  | _ => some none

end Repeat

namespace Parse

def isName (name : List Char) : Bool :=
  match name with
  | [] => false
  | c :: rest => Text.isWord c && !Text.isDecimal c && rest.all Text.isWord

def groupName (closing : Char) : Parse String := do
  match Text.splitFirst? closing (← rest) with
  | some (name, rest) =>
    if isName name then
      goTo rest
      return String.ofList name
    else failure
  | none => failure

inductive Reference where
  | number (n : Nat)
  | relative (n : Int)
  | name (name : String)

def referenceOf (name : List Char) : Option Reference :=
  match name with
  | '-' :: digits =>
    if digits.isEmpty || !digits.all Char.isDigit then none
    else some (.relative (-(Text.digitsValue digits : Int)))
  | '+' :: digits =>
    if digits.isEmpty || !digits.all Char.isDigit then none
    else some (.relative (Text.digitsValue digits))
  | _ =>
    if !name.isEmpty && name.all Char.isDigit then some (.number (Text.digitsValue name))
    else if isName name then some (.name (String.ofList name))
    else none

def reference (closing : Char) : Parse Reference := do
  match Text.splitFirst? closing (← rest) with
  | some (name, rest) =>
    goTo rest
    match referenceOf name with
    | some found => return found
    | none => failure
  | none => failure

def absolute (n : Int) : Parse Nat := do
  let count : Int := (← get).count
  let found := if n < 0 then count + 1 + n else count + n
  if n = 0 || found ≤ 0 then failure else return found.toNat

def backReference (flags : Flags) (closing : Char) : Parse Expr := do
  match ← reference closing with
  | .number n => if n = 0 then failure else return .reference [n] flags.anyCase
  | .relative n => return .reference [← absolute n] flags.anyCase
  | .name name =>
    match (← get).names.filterMap fun (other, n) => if other == name then some n else none with
    | [] => failure
    | found => return .reference found flags.anyCase

def call (closing : Char) : Parse Expr := do
  match ← reference closing with
  | .number n => return .call (.number n)
  | .relative n => return .call (.number (← absolute n))
  | .name name => return .call (.name name)

def escape (flags : Flags) : Parse Expr := do
  match ← rest with
  | [] => failure
  | 'b' :: rest => goTo rest; return .anchor .wordEdge
  | 'B' :: rest => goTo rest; return .anchor .notWordEdge
  | 'A' :: rest => goTo rest; return .anchor .textStart
  | 'Z' :: rest => goTo rest; return .anchor .lastLineEnd
  | 'z' :: rest => goTo rest; return .anchor .textEnd
  | 'G' :: rest => goTo rest; return .anchor .searchStart
  | 'K' :: rest => goTo rest; return .keep
  | 'R' :: rest => goTo rest; return Expr.lineBreak
  | 'N' :: rest => goTo rest; return .set CharSet.exceptLineFeed
  | 'O' :: rest => goTo rest; return .set CharSet.all
  | 'k' :: '<' :: rest => goTo rest; backReference flags '>'
  | 'k' :: '\'' :: rest => goTo rest; backReference flags '\''
  | 'g' :: '<' :: rest => goTo rest; call '>'
  | 'g' :: '\'' :: rest => goTo rest; call '\''
  | cs =>
    match Escape.set? cs with
    | some none => failure
    | some (some (set, rest)) => goTo rest; return .set set
    | none => return Expr.letter flags (← step Escape.letter?)

def options (on : Bool) (flags : Flags) : List Char → Option (Flags × Bool × List Char)
  | ':' :: rest => some (flags, true, rest)
  | ')' :: rest => some (flags, false, rest)
  | '-' :: rest => options false flags rest
  | 'i' :: rest => options on { flags with anyCase := on } rest
  | 'm' :: rest => options on { flags with dotAll := on } rest
  | 'x' :: rest => options on { flags with spaced := on } rest
  | _ => none

def close : Parse Unit := do
  match ← rest with
  | ')' :: rest => goTo rest
  | _ => failure

mutual

def alternatives (fuel : Nat) (flags : Flags) : Parse Expr :=
  match fuel with
  | 0 => failure
  | fuel + 1 => do
    let first ← sequence fuel flags
    match ← rest with
    | '|' :: rest =>
      goTo rest
      return .alt first (← alternatives fuel flags)
    | _ => return first

def sequence (fuel : Nat) (flags : Flags) : Parse Expr :=
  match fuel with
  | 0 => failure
  | fuel + 1 => do return Expr.sequence (← items fuel flags)

def items (fuel : Nat) (flags : Flags) : Parse (List Expr) :=
  match fuel with
  | 0 => failure
  | fuel + 1 => do
    skipGaps flags
    match ← rest with
    | [] | '|' :: _ | ')' :: _ => return []
    | _ =>
      let first ← item fuel flags
      let first ← repeats fuel flags first
      return first :: (← items fuel flags)

def repeats (fuel : Nat) (flags : Flags) (body : Expr) : Parse Expr :=
  match fuel with
  | 0 => failure
  | fuel + 1 => do
    skipGaps flags
    match Repeat.read? (← rest) with
    | none => failure
    | some none => return body
    | some (some (repeated, rest)) =>
      goTo rest
      repeats fuel flags (repeated.apply body)

def item (fuel : Nat) (flags : Flags) : Parse Expr :=
  match fuel with
  | 0 => failure
  | fuel + 1 => do
    match ← rest with
    | '(' :: '?' :: rest => goTo rest; special fuel flags
    | '(' :: rest =>
      goTo rest
      let number ← openGroup none
      let body ← alternatives fuel flags
      close
      return .group number body
    | '[' :: rest =>
      match Class.read? rest with
      | none => failure
      | some (negated, set, rest) => goTo rest; return Expr.ofClass flags negated set
    | '\\' :: rest => goTo rest; escape flags
    | '.' :: rest =>
      goTo rest
      return .set (if flags.dotAll then CharSet.all else CharSet.exceptLineFeed)
    | '^' :: rest => goTo rest; return .anchor .lineStart
    | '$' :: rest => goTo rest; return .anchor .lineEnd
    | '{' :: rest =>
      match Repeat.read? ('{' :: rest) with
      | some none => goTo rest; return Expr.char flags '{'
      | _ => failure
    | '?' :: _ | '*' :: _ | '+' :: _ => failure
    | c :: rest => goTo rest; return Expr.char flags c
    | [] => failure

def special (fuel : Nat) (flags : Flags) : Parse Expr :=
  match fuel with
  | 0 => failure
  | fuel + 1 => do
    let enclosed : Parse Expr := do
      let body ← alternatives fuel flags
      close
      return body
    let named (closing : Char) : Parse Expr := do
      let number ← openGroup (some (← groupName closing))
      return .group number (← enclosed)
    match ← rest with
    | ':' :: rest => goTo rest; enclosed
    | '=' :: rest => goTo rest; return .ahead false (← enclosed)
    | '!' :: rest => goTo rest; return .ahead true (← enclosed)
    | '>' :: rest => goTo rest; return .atomic (← enclosed)
    | '<' :: '=' :: rest => goTo rest; return .behind false (← enclosed)
    | '<' :: '!' :: rest => goTo rest; return .behind true (← enclosed)
    | '<' :: rest => goTo rest; named '>'
    | '\'' :: rest => goTo rest; named '\''
    | cs =>
      if cs.head? == some ':' || cs.head? == some ')' then failure
      else
        match options true flags cs with
        | none => failure
        | some (flags, enclosing, rest) =>
          goTo rest
          let body ← alternatives fuel flags
          if enclosing then close
          return body

end

end Parse

-- The whole text as an expression, with the names of its groups. Each character is read in a
-- bounded number of calls.
def parse? (source : List Char) : Option (Expr × List (String × Nat)) := do
  let flags : Flags := ⟨false, false, false⟩
  let (expr, reading) ← (Parse.alternatives (6 * source.length + 6) flags).run ⟨source, 0, []⟩
  if reading.rest.isEmpty then return (expr, reading.names) else none

end Highlighter.Regex
