import Highlighter.Grammar.Compiled

set_option autoImplicit false

namespace Highlighter

open Regex (Match)

/-- Where on a text to look for the next match. `onFirstLine` says that the start of the text is the
start of a document. -/
structure Position (text : List Char) where
  cursor : Text.Cursor text
  onFirstLine : Bool
  anchor : Option Nat

inductive Target where
  | rule (id : RuleId)
  -- The closing pattern of the innermost open rule.
  | closing
  deriving DecidableEq, Repr

structure Found where
  target : Target
  result : Match

namespace Candidate

variable (grammar : Grammar) {text : List Char} (position : Position text)

def scan (candidates : List (Target × Pattern)) : Option Found :=
  (Pattern.scan candidates position.cursor position.anchor position.onFirstLine).map
    fun (target, found) => ⟨target, found⟩

def ofRules (starts : List (RuleId × Pattern)) : List (Target × Pattern) :=
  starts.map fun (id, pattern) => (.rule id, pattern)

def closing? (frame : Frame) : Option (Pattern × Bool) :=
  match grammar.graph.rule? frame.rule with
  | some ⟨_, _, _, .spanning _ _ closing _ closingLast _⟩ =>
    some (frame.resolved.getD closing, closingLast)
  | _ => none

def own (frame : Frame) : List (Target × Pattern) :=
  let nested := ofRules (grammar.graph.starts frame.rule)
  match closing? grammar frame with
  | none => nested
  | some (pattern, false) => (.closing, pattern) :: nested
  | some (pattern, true) => nested ++ [(.closing, pattern)]

def injected (injection : Injection) : List (Target × Pattern) :=
  match grammar.graph.rule? injection.rule with
  | none => []
  | some rule =>
    match rule.kind, rule.start? with
    | .holding _, _ => ofRules (grammar.graph.starts injection.rule)
    | _, some pattern => [(.rule injection.rule, pattern)]
    | _, none => []

def startsBefore (found : Found) (other : Match) : Bool := found.result.whole.start < other.whole.start

def bestInjected (scopes : List String) (best : Option (Found × Priority)) :
    List Injection → Option (Found × Priority)
  | [] => best
  | injection :: rest =>
    if (injection.alternative.rank? scopes).isNone then bestInjected scopes best rest
    else
      match scan position (injected grammar injection) with
      | none => bestInjected scopes best rest
      | some found =>
        if best.all fun (other, _) => startsBefore found other.result then
          if found.result.whole.start = position.cursor.offset then
            some (found, injection.alternative.priority)
          else bestInjected scopes (some (found, injection.alternative.priority)) rest
        else bestInjected scopes best rest

-- An injected match is taken when it starts first, or, from an injection that goes first, when it
-- starts no later.
def prefer (own : Option Found) (injected : Option (Found × Priority)) : Option Found :=
  match own, injected with
  | own, none => own
  | none, some (found, _) => some found
  | some own, some (found, priority) =>
    if startsBefore found own.result ||
        (priority == .low && found.result.whole.start == own.result.whole.start) then some found
    else some own

def best? (stack : Stack) : Option Found :=
  let injected :=
    bestInjected grammar position stack.contentScopes.names none grammar.graph.injections
  prefer (scan position (own grammar stack.top)) injected

end Candidate

end Highlighter
