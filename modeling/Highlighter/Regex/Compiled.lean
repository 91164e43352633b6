import Highlighter.Regex.Parser

set_option autoImplicit false

namespace Highlighter

structure Regex where
  expr : Regex.Expr
  names : List (String × Nat)

namespace Regex

def groupCount (regex : Regex) : Nat := regex.expr.groups.length

def called? (regex : Regex) : Callee → Option (Nat × Expr)
  | .number 0 => some (0, regex.expr)
  | .number n => (regex.expr.groups.lookup n).map (n, ·)
  | .name name =>
    match regex.names.filter fun (other, _) => other == name with
    | [(_, n)] => (regex.expr.groups.lookup n).map (n, ·)
    | _ => none

def target? (regex : Regex) (callee : Callee) : Option Expr :=
  (regex.called? callee).map fun (n, body) => if n = 0 then body else .group n body

namespace Expr

-- The least width of an expression, calls being followed to a bounded depth.
def least (regex : Regex) (depth : Nat) (expr : Expr) : Nat :=
  follow expr
where
  follow : Expr → Nat
    | .seq a b => follow a + follow b
    | .alt a b => min (follow a) (follow b)
    | .many body times _ _ => follow body * times
    | .group _ body | .atomic body => follow body
    | .call callee =>
      match depth with
      | 0 => 0
      | depth + 1 =>
        match regex.called? callee with
        | some (_, body) => least regex depth body
        | none => 0
    | expr => expr.width.least

/-- How an expression comes back to a group: whether every way through it does, and whether one
way does before it has matched a character. -/
structure Recurrence where
  always : Bool
  atOnce : Bool

namespace Recurrence

def never : Recurrence := ⟨false, false⟩

def either (a b : Recurrence) : Recurrence := ⟨a.always && b.always, a.atOnce || b.atOnce⟩

def both (a b : Recurrence) : Recurrence := ⟨a.always || b.always, a.atOnce || b.atOnce⟩

end Recurrence

-- How `expr` comes back to the group `home`. Groups in `passed` are not entered again, and
-- `atHead` says that nothing has been matched yet.
def recurrence (regex : Regex) (home depth : Nat) (passed : List Nat) (atHead : Bool)
    (expr : Expr) : Recurrence :=
  follow passed atHead expr
where
  follow (passed : List Nat) (atHead : Bool) : Expr → Recurrence
    | .seq a b =>
      let head := atHead && a.least regex (regex.groupCount + 1) == 0
      (follow passed atHead a).both (follow passed head b)
    | .alt a b => (follow passed atHead a).either (follow passed atHead b)
    | .many body times most _ =>
      if most = some 0 then Recurrence.never
      else
        let found := follow passed atHead body
        if times = 0 then { found with always := false } else found
    | .group n body =>
      if passed.contains n then Recurrence.never
      else if n = home then ⟨true, atHead⟩
      else follow (n :: passed) atHead body
    | .ahead _ body | .behind _ body | .atomic body => follow passed atHead body
    | .call callee =>
      match regex.called? callee with
      | none => Recurrence.never
      | some (n, body) =>
        if n = home then ⟨true, atHead⟩
        else if passed.contains n then Recurrence.never
        else
          match depth with
          | 0 => Recurrence.never
          | depth + 1 => recurrence regex home depth (n :: passed) atHead body
    | _ => Recurrence.never

def capturesBehind : Expr → Bool
  | .seq a b | .alt a b => capturesBehind a || capturesBehind b
  | .behind true body =>
    !body.groups.isEmpty || !body.callees.isEmpty || capturesBehind body
  | .group _ body | .many body _ _ _ | .ahead _ body | .behind false body | .atomic body =>
    capturesBehind body
  | _ => false

end Expr

def endsEveryCall (regex : Regex) : Bool :=
  ((0, regex.expr) :: regex.expr.groups).all fun (n, body) =>
    let found := body.recurrence regex n (regex.groupCount + 1) [] true
    !found.always && !found.atOnce

def isSound (regex : Regex) : Bool :=
  regex.expr.references.all (· ≤ regex.groupCount) &&
    regex.expr.callees.all (fun callee => (regex.called? callee).isSome) &&
    !regex.expr.capturesBehind && regex.endsEveryCall

def compile? (source : List Char) : Option Regex :=
  match parse? source with
  | none => none
  | some (expr, names) =>
    let regex : Regex := ⟨expr, names⟩
    if regex.isSound then some regex else none

end Regex

end Highlighter
