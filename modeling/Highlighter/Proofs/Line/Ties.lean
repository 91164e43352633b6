import Highlighter.Line.Candidate
import Highlighter.Proofs.Grammar.Injections
import Highlighter.Proofs.Grammar.Scopes
import Mathlib

set_option autoImplicit false

namespace Highlighter

namespace Candidate

open Selector (WrittenIn DerivesAlternative)

variable {text : List Char} {grammar : Grammar} {position : Position text} {scopes : List String}

theorem bestInjected_append (best : Option (Found × Priority)) {before : List Injection}
    (silent : ∀ other ∈ before, other.alternative.rank? scopes = none) (rest : List Injection) :
    bestInjected grammar position scopes best (before ++ rest) =
      bestInjected grammar position scopes best rest := by
  induction before generalizing best with
  | nil => rfl
  | cons other before ih =>
    rw [List.cons_append, bestInjected, silent other List.mem_cons_self]
    exact ih best fun other member => silent other (List.mem_cons_of_mem _ member)

theorem bestInjected_silent (best : Option (Found × Priority)) {injections : List Injection}
    (silent : ∀ other ∈ injections, other.alternative.rank? scopes = none) :
    bestInjected grammar position scopes best injections = best := by
  rw [← List.append_nil injections, bestInjected_append best silent]
  rfl

theorem bestInjected_only {before after : List Injection} {injection : Injection} {found : Found}
    (applies : injection.alternative.rank? scopes ≠ none)
    (silent : ∀ other ∈ before ++ after, other.alternative.rank? scopes = none)
    (scanned : scan position (injected grammar injection) = some found) :
    bestInjected grammar position scopes none (before ++ injection :: after) =
      some (found, injection.alternative.priority) := by
  obtain ⟨ahead, behind⟩ := List.forall_mem_append.mp silent
  rw [bestInjected_append none ahead, bestInjected,
    if_neg (mt Option.isNone_iff_eq_none.mp applies), scanned]
  simp only [Option.all_none, if_true, bestInjected_silent _ behind, ite_self]

theorem prefer_tie {owned found : Found} {priority : Priority}
    (tie : found.result.whole.start = owned.result.whole.start) :
    prefer (some owned) (some (found, priority)) =
      some (if priority = .low then found else owned) := by
  simp only [prefer, startsBefore, tie, lt_irrefl, decide_false, Bool.false_or, beq_self_eq_true,
    Bool.and_true, beq_iff_eq]
  split <;> rfl

/-- Where one alternative applies, and its match and the one of the open rule start at one place, the
injected match is taken just when the alternative is written with `L:`, or without a side and beginning
with a negation. -/
theorem tie_follows_side (library : Library) (grammar : Grammar)
    (compiled : grammar.graph = RuleGraph.compile library) {text : List Char}
    (position : Position text) (stack : Stack) (before after : List Injection) (injection : Injection)
    (listed : grammar.graph.injections = before ++ injection :: after)
    (applies : injection.alternative.rank? stack.contentScopes.names ≠ none)
    (silent : ∀ other ∈ before ++ after,
      other.alternative.rank? stack.contentScopes.names = none)
    (owned found : Found) (ownBest : scan position (own grammar stack.top) = some owned)
    (injectedBest : scan position (injected grammar injection) = some found)
    (tie : found.result.whole.start = owned.result.whole.start) :
    (∃ selector ∈ library.injectionSelectors, ∃ whole, Selector.tokens selector = .ok whole ∧
      ∃ used, WrittenIn used whole ∧ DerivesAlternative used injection.alternative) ∧
    ∀ used, DerivesAlternative used injection.alternative →
      best? grammar position stack =
        some (if used.head? = some .left ∨ used.head? ≠ some .right ∧
          injection.alternative.matcher.leadsWithNegation = true then found else owned) := by
  constructor
  · refine RuleGraph.compile_written library ?_
    rw [← compiled, listed]
    exact List.mem_append_right _ List.mem_cons_self
  · intro used derives
    rw [best?, listed, bestInjected_only applies silent injectedBest, ownBest]
    simp only [prefer_tie tie, derives.priority_eq_low_iff]

end Candidate

namespace Library

def word (name pattern : String) : RuleDecl :=
  ⟨none, some name, none, some pattern, none, none, none, none, none, none, none, none, none, false⟩

-- All rules match the same text; of the alternatives that inject, only `L:t` applies in `t`.
def siding : Library :=
  ⟨⟨some "t", none, [word "own" "x"], [],
    [("-t", word "first" "x"), ("u, L:t", word "second" "x")], none, [], [], none⟩,
    Repository.empty⟩

-- The rule is injected wherever there is no `z`, which is written without a side.
def excluding : Library :=
  ⟨⟨some "t", none, [word "own" "x"], [], [("-z", word "injected" "x")], none, [], [], none⟩,
    Repository.empty⟩

end Library

def Grammar.siding : Grammar :=
  ofGraph Library.siding Configuration.default (RuleGraph.compile Library.siding)

def Grammar.excluding : Grammar :=
  ofGraph Library.excluding Configuration.default (RuleGraph.compile Library.excluding)

namespace Candidate

def onX : Position ['x'] := ⟨Text.Cursor.first _, true, none⟩

theorem tie_follows_side_left :
    best? Grammar.siding onX Grammar.siding.firstStack = some ⟨.rule 3, ⟨⟨0, 1⟩, []⟩⟩ := by
  obtain ⟨-, decides⟩ := tie_follows_side Library.siding Grammar.siding rfl onX
    Grammar.siding.firstStack [⟨⟨.not (.path ["t"]), .low⟩, 2⟩] [⟨⟨.path ["u"], .normal⟩, 3⟩]
    ⟨⟨.path ["t"], .low⟩, 3⟩ (by cbv) (by cbv; simp) (by simp; cbv)
    ⟨.rule 1, ⟨⟨0, 1⟩, []⟩⟩ ⟨.rule 3, ⟨⟨0, 1⟩, []⟩⟩ (by cbv) (by cbv) rfl
  exact decides [.left, .identifier "t"] (.left (.one (.chain "t" [])))

theorem excluding_goes_first :
    Library.excluding.injectionSelectors = ["-z"] ∧
      Selector.tokens "-z" = .ok [.minus, .identifier "z"] ∧
      ∃ injection, Grammar.excluding.graph.injections = [injection] ∧
        (injection.alternative.rank? Grammar.excluding.firstStack.contentScopes.names).isSome ∧
        scan onX (own Grammar.excluding Grammar.excluding.firstStack.top) =
          some ⟨.rule 1, ⟨⟨0, 1⟩, []⟩⟩ ∧
        scan onX (injected Grammar.excluding injection) = some ⟨.rule 2, ⟨⟨0, 1⟩, []⟩⟩ ∧
        best? Grammar.excluding onX Grammar.excluding.firstStack =
          some ⟨.rule 2, ⟨⟨0, 1⟩, []⟩⟩ :=
  ⟨by cbv, by cbv, ⟨⟨.not (.path ["z"]), .low⟩, 2⟩, by cbv, by cbv, by cbv, by cbv, by cbv⟩

end Candidate

end Highlighter
