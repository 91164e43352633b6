set_option autoImplicit false

namespace Highlighter

inductive Priority where
  | low
  | normal
  | high
  deriving DecidableEq, Repr

namespace Priority

def value : Priority → Int
  | .low => -1
  | .normal => 0
  | .high => 1

end Priority

/-- How closely a matcher met a path: one past the deepest scope it met, the number of segments of
the atom that met it, and the number of atoms in the chain. -/
structure Specificity where
  depth : Nat
  segments : Nat
  atoms : Nat
  deriving DecidableEq, Repr

namespace Specificity

def none : Specificity := ⟨0, 0, 0⟩

def before (a b : Specificity) : Bool :=
  a.depth < b.depth ||
    (a.depth == b.depth &&
      (a.segments < b.segments || (a.segments == b.segments && a.atoms < b.atoms)))

def max (a b : Specificity) : Specificity := if a.before b then b else a

end Specificity

structure Rank where
  priority : Priority
  specificity : Specificity
  deriving DecidableEq, Repr

def Rank.before (a b : Rank) : Bool :=
  a.priority.value < b.priority.value ||
    (a.priority == b.priority && a.specificity.before b.specificity)

def Rank.best? : List Rank → Option Rank
  | [] => Option.none
  | rank :: rest =>
    match Rank.best? rest with
    | Option.none => some rank
    | some other => if other.before rank then some rank else some other

inductive Matcher where
  | path (atoms : List String)
  | not (inner : Matcher)
  | and (all : List Matcher)
  | or (any : List Matcher)
  deriving Repr

namespace Atom

def openMatches : List Char → List Char → Bool
  | [], [] => true
  | [], c :: _ => c == '.'
  | _ :: _, [] => false
  | a :: atom, c :: scope => a == c && openMatches atom scope

-- An atom that ends in a dot meets only scopes that go on after the dot.
def closedMatches : List Char → List Char → Bool
  | ['.'], '.' :: _ :: _ => true
  | a :: atom, c :: scope => a == c && closedMatches atom scope
  | _, _ => false

def meets (atom scope : String) : Bool :=
  if atom.toList.getLast? == some '.' then closedMatches atom.toList scope.toList
  else openMatches atom.toList scope.toList

def segmentsFrom (inSegment : Bool) : List Char → Nat
  | [] => 0
  | c :: rest =>
    if c == '.' then segmentsFrom false rest
    else (if inSegment then 0 else 1) + segmentsFrom true rest

def segments (atom : String) : Nat := segmentsFrom false atom.toList

end Atom

namespace Path

-- The scopes left once each ancestor has taken the first scope that it meets.
def afterAncestors (depth : Nat) : List String → List String → Option (Nat × List String)
  | [], scopes => some (depth, scopes)
  | _ :: _, [] => none
  | atom :: atoms, scope :: scopes =>
    if Atom.meets atom scope then afterAncestors (depth + 1) atoms scopes
    else afterAncestors (depth + 1) (atom :: atoms) scopes

def deepest? (atom : String) (depth : Nat) : List String → Option Nat
  | [] => none
  | scope :: scopes =>
    match deepest? atom (depth + 1) scopes with
    | some found => some found
    | none => if Atom.meets atom scope then some (depth + 1) else none

def evaluate (atoms scopes : List String) : Option Specificity :=
  match atoms.getLast? with
  | none => none
  | some innermost =>
    match afterAncestors 0 atoms.dropLast scopes with
    | none => none
    | some (depth, rest) =>
      (deepest? innermost depth rest).map fun found =>
        ⟨found, Atom.segments innermost, atoms.length⟩

end Path

namespace Matcher

mutual

def evaluate (scopes : List String) : Matcher → Option Specificity
  | .path atoms => Path.evaluate atoms scopes
  | .not inner =>
    match evaluate scopes inner with
    | some _ => none
    | none => some Specificity.none
  | .and all => evaluateAll scopes Specificity.none all
  | .or any => evaluateAny scopes any

def evaluateAll (scopes : List String) (best : Specificity) :
    List Matcher → Option Specificity
  | [] => some best
  | matcher :: rest =>
    match evaluate scopes matcher with
    | none => none
    | some found => evaluateAll scopes (best.max found) rest

def evaluateAny (scopes : List String) : List Matcher → Option Specificity
  | [] => none
  | matcher :: rest =>
    match evaluate scopes matcher, evaluateAny scopes rest with
    | none, other => other
    | some found, none => some found
    | some found, some other => some (found.max other)

end

def leadsWithNegation : Matcher → Bool
  | .not _ => true
  | .and (.not _ :: _) => true
  | _ => false

mutual

def text : Matcher → String
  | .path atoms => " ".intercalate atoms
  | .not inner => "-" ++ text inner
  | .and all => " ".intercalate (texts all)
  | .or any => "(" ++ " | ".intercalate (texts any) ++ ")"

def texts : List Matcher → List String
  | [] => []
  | matcher :: rest => text matcher :: texts rest

end

end Matcher

structure Alternative where
  matcher : Matcher
  priority : Priority

namespace Alternative

def rank? (alternative : Alternative) (scopes : List String) : Option Rank :=
  (alternative.matcher.evaluate scopes).map fun specificity => ⟨alternative.priority, specificity⟩

end Alternative

structure Selector where
  source : String
  alternatives : List Alternative

namespace Selector

def rank? (selector : Selector) (scopes : List String) : Option Rank :=
  Rank.best? (selector.alternatives.filterMap (·.rank? scopes))

def applies (selector : Selector) (scopes : List String) : Bool :=
  selector.alternatives.any fun alternative => (alternative.rank? scopes).isSome

end Selector

end Highlighter
