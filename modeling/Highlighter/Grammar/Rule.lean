import Highlighter.Grammar.Template
import Highlighter.Pattern.Basic
import Highlighter.Selector.Basic

set_option autoImplicit false

namespace Highlighter

abbrev RuleId := Nat

abbrev CaptureRules := List (Option RuleId)

def CaptureRules.declared (captures : CaptureRules) : List RuleId := captures.filterMap id

inductive RuleKind where
  | matching (pattern : Pattern) (captures : CaptureRules)
  | spanning (opening : Pattern) (openingCaptures : CaptureRules) (closing : Pattern)
    (closingCaptures : CaptureRules) (closingLast : Bool) (nested : List RuleId)
  | continuing (opening : Pattern) (openingCaptures : CaptureRules) (condition : Pattern)
    (conditionCaptures : CaptureRules) (nested : List RuleId)
  -- Only holds other rules, which count as if they stood in its place.
  | holding (nested : List RuleId)
  -- Names a captured text, and may say what rules to read it by.
  | capturing (inner : Option RuleId)

structure Rule where
  id : RuleId
  name : Option Template
  contentName : Option Template
  kind : RuleKind

namespace Rule

def held (id : RuleId) (nested : List RuleId) : Rule := ⟨id, none, none, .holding nested⟩

def start? (rule : Rule) : Option Pattern :=
  match rule.kind with
  | .matching pattern _ => some pattern
  | .spanning opening _ _ _ _ _ | .continuing opening _ _ _ _ => some opening
  | .holding _ | .capturing _ => none

def nested (rule : Rule) : List RuleId :=
  match rule.kind with
  | .spanning _ _ _ _ _ nested | .continuing _ _ _ _ nested | .holding nested => nested
  | .matching _ _ | .capturing _ => []

def linked (rule : Rule) : List RuleId :=
  match rule.kind with
  | .matching _ captures => CaptureRules.declared captures
  | .spanning _ openingCaptures _ closingCaptures _ nested =>
    CaptureRules.declared openingCaptures ++ CaptureRules.declared closingCaptures ++ nested
  | .continuing _ openingCaptures _ conditionCaptures nested =>
    CaptureRules.declared openingCaptures ++ CaptureRules.declared conditionCaptures ++ nested
  | .holding nested => nested
  | .capturing inner => inner.toList

end Rule

structure Injection where
  alternative : Alternative
  rule : RuleId

structure RuleGraph where
  rules : Array Rule
  root : RuleId
  injections : List Injection

namespace RuleGraph

def rule? (graph : RuleGraph) (id : RuleId) : Option Rule := graph.rules[id]?

theorem length_erase_lt {id : RuleId} {unmet : List RuleId} (member : id ∈ unmet) :
    (unmet.erase id).length < unmet.length := by
  have := List.length_pos_of_mem member
  rw [List.length_erase_of_mem member]
  omega

-- The rules that `pending` leads to, those that only hold others being replaced by what they hold.
-- A rule counts where it is first met; `unmet` lists those not met so far.
def collect (graph : RuleGraph) (unmet pending : List RuleId) : List RuleId :=
  match pending with
  | [] => []
  | id :: rest =>
    if _member : id ∈ unmet then
      match graph.rule? id with
      | some ⟨_, _, _, .holding nested⟩ => collect graph (unmet.erase id) (nested ++ rest)
      | some ⟨_, _, _, .capturing _⟩ | none => collect graph (unmet.erase id) rest
      | some _ => id :: collect graph (unmet.erase id) rest
    else collect graph unmet rest
  termination_by (unmet.length, pending.length)
  decreasing_by
    all_goals first
      | exact Prod.Lex.left _ _ (length_erase_lt _member)
      | exact Prod.Lex.right _ (by simp)

def patterns (graph : RuleGraph) (id : RuleId) : List RuleId :=
  match graph.rule? id with
  | some rule => graph.collect (List.range graph.rules.size) rule.nested
  | none => []

def reached (graph : RuleGraph) (unmet pending : List RuleId) : List RuleId :=
  match pending with
  | [] => []
  | id :: rest =>
    if _member : id ∈ unmet then
      match graph.rule? id with
      | some rule => id :: reached graph (unmet.erase id) (rule.linked ++ rest)
      | none => reached graph (unmet.erase id) rest
    else reached graph unmet rest
  termination_by (unmet.length, pending.length)
  decreasing_by
    all_goals first
      | exact Prod.Lex.left _ _ (length_erase_lt _member)
      | exact Prod.Lex.right _ (by simp)

def used (graph : RuleGraph) : List RuleId :=
  let ids := List.range graph.rules.size
  let found := graph.reached ids (graph.root :: graph.injections.map (·.rule))
  ids.filter found.contains

def starts (graph : RuleGraph) (id : RuleId) : List (RuleId × Pattern) :=
  (graph.patterns id).filterMap fun other =>
    ((graph.rule? other).bind (·.start?)).map (other, ·)

end RuleGraph

end Highlighter
