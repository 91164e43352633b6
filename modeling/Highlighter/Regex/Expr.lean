import Highlighter.Regex.CharSet

set_option autoImplicit false

namespace Highlighter.Regex

inductive Anchor where
  | textStart
  | textEnd
  | lastLineEnd
  | lineStart
  | lineEnd
  | searchStart
  | wordEdge
  | notWordEdge
  deriving DecidableEq, Repr

/-- Group 0 is the whole expression. -/
inductive Callee where
  | number (n : Nat)
  | name (name : String)
  deriving DecidableEq, Repr

-- `folded` matches a text that folds to the given one, `reference` the text of the first of its
-- groups that has matched, and `call` what the called group would match here.
inductive Expr where
  | empty
  | set (set : CharSet)
  | folded (letters : List Char)
  | seq (a b : Expr)
  | alt (a b : Expr)
  | many (body : Expr) (least : Nat) (most : Option Nat) (greedy : Bool)
  | group (number : Nat) (body : Expr)
  | reference (groups : List Nat) (anyCase : Bool)
  | call (callee : Callee)
  | ahead (negated : Bool) (body : Expr)
  | behind (negated : Bool) (body : Expr)
  | atomic (body : Expr)
  | anchor (anchor : Anchor)
  | keep
  deriving Repr

namespace Expr

def groups : Expr → List (Nat × Expr)
  | .seq a b | .alt a b => groups a ++ groups b
  | .group n body => (n, body) :: groups body
  | .many body _ _ _ | .ahead _ body | .behind _ body | .atomic body => groups body
  | _ => []

def references : Expr → List Nat
  | .seq a b | .alt a b => references a ++ references b
  | .reference numbers _ => numbers
  | .group _ body | .many body _ _ _ | .ahead _ body | .behind _ body | .atomic body =>
    references body
  | _ => []

def callees : Expr → List Callee
  | .seq a b | .alt a b => callees a ++ callees b
  | .call callee => [callee]
  | .group _ body | .many body _ _ _ | .ahead _ body | .behind _ body | .atomic body =>
    callees body
  | _ => []

end Expr

/-- The numbers of characters that an expression can match, `most` being absent when there is no
bound. -/
structure Width where
  least : Nat
  most : Option Nat
  deriving Repr

namespace Width

def zero : Width := ⟨0, some 0⟩

def one : Width := ⟨1, some 1⟩

def unknown : Width := ⟨0, none⟩

def add (a b : Width) : Width :=
  ⟨a.least + b.least, a.most.bind fun m => b.most.map (m + ·)⟩

def either (a b : Width) : Width :=
  ⟨min a.least b.least, a.most.bind fun m => b.most.map (max m ·)⟩

def times (width : Width) (least : Nat) (most : Option Nat) : Width :=
  ⟨width.least * least, width.most.bind fun m => if m = 0 then some 0 else most.map (m * ·)⟩

end Width

def Expr.width : Expr → Width
  | .empty | .anchor _ | .keep | .ahead _ _ | .behind _ _ => Width.zero
  | .set _ => Width.one
  | .folded letters => ⟨(letters.length + 2) / 3, some letters.length⟩
  | .seq a b => a.width.add b.width
  | .alt a b => a.width.either b.width
  | .many body least most _ => body.width.times least most
  | .group _ body | .atomic body => body.width
  | .reference _ _ | .call _ => Width.unknown

end Highlighter.Regex
