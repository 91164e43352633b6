import Highlighter.Proofs.Line.Candidate
import Highlighter.Proofs.Line.Job

set_option autoImplicit false

namespace Highlighter

open Regex (Match Region)

-- A rule that a grammar opens, with scopes that lie within those around it.
structure Grammar.Opens (grammar : Grammar) (outer : ScopePath) (frame : Frame) : Prop where
  known : frame.rule < grammar.graph.rules.size
  resolves : grammar.Resolves frame
  named : ∃ name, frame.nameScopes = grammar.pathAfter outer name
  content : ∃ name, frame.contentScopes = grammar.pathAfter frame.nameScopes name

-- No search finds a match that starts before the place reached.
structure Grammar.LooksAhead (grammar : Grammar) (frame : Frame) : Prop where
  forward : grammar.SearchesForward
  resolves : grammar.Resolves frame

namespace Progress

def Advances (progress : Progress) (size : Nat) (next : Progress) : Prop :=
  progress.offset < next.offset ∧ next.offset ≤ size

inductive Moves (grammar : Grammar) (size : Nat) (progress next : Progress) : Prop
  | past (advances : progress.Advances size next) (stack : next.stack = progress.stack)
    (fresh : next.fresh = progress.fresh)
  | closed {pattern : Pattern} {last : Bool}
    (closes : Candidate.closing? grammar progress.stack.top = some (pattern, last))
    (stack : next.stack = progress.stack.pop) (fresh : next.fresh = progress.fresh - 1)
    (onward : progress.Advances size next ∨ next.offset = progress.offset ∧
      (grammar.LooksAhead progress.stack.top →
        progress.fresh = 0 ∨ progress.stack.top.entered ≠ some progress.offset))
  | opened (frame : Frame) (opens : grammar.Opens progress.stack.contentScopes frame)
    (stack : next.stack = progress.stack.push frame) (fresh : next.fresh = progress.fresh + 1)
    (onward : progress.Advances size next ∨ next.offset = progress.offset ∧
      (grammar.LooksAhead progress.stack.top → frame.entered = some progress.offset ∧
        progress.stack.hasOpened frame.rule (some progress.offset) progress.fresh = false))

theorem moveTo_fresh (progress : Progress) (offset : Nat) :
    (progress.moveTo offset).fresh = progress.fresh := by
  unfold moveTo
  split <;> rfl

theorem moveTo_stack (progress : Progress) (offset : Nat) :
    (progress.moveTo offset).stack = progress.stack := by
  unfold moveTo
  split <;> rfl

theorem moveTo_onward (progress : Progress) (offset size : Nat) (bound : offset ≤ size) :
    progress.Advances size (progress.moveTo offset) ∨
      offset ≤ progress.offset ∧ (progress.moveTo offset).offset = progress.offset := by
  unfold moveTo
  split
  · rename_i later
    exact .inl ⟨later, bound⟩
  · exact .inr ⟨by omega, rfl⟩

end Progress

theorem RuleGraph.lt_size {graph : RuleGraph} {id : RuleId} {rule : Rule}
    (known : graph.rule? id = some rule) : id < graph.rules.size :=
  (Array.getElem?_eq_some_iff.mp known).1

-- What a round comes to: the reading ends with the stack that it had, or moves on.
def Outcome.From (grammar : Grammar) (size : Nat) (progress : Progress) : Outcome → Prop
  | .done stack => stack = progress.stack
  | .more next => progress.Moves grammar size next

namespace Job

variable {grammar : Grammar} (retokenize : Retokenize grammar) (text : List Char)

theorem stepPast_moves (progress : Progress) (anchor : Option Nat) :
    Yields (stepPast text (Text.byteLength text) { progress with anchor } : Job grammar Outcome)
      (Outcome.From grammar (Text.byteLength text) progress) := by
  unfold stepPast
  dsimp only
  split
  · rename_i c next step
    obtain ⟨cursor, here, step⟩ := Option.bind_eq_some_iff.mp step
    refine Yields.skip fun _ => Yields.pure _ (.past ⟨?_, next.offset_le⟩ rfl rfl)
    have reached := Text.Cursor.at?_offset here
    have moved := Text.Cursor.offset_of_next? step
    have positive := c.utf8Size_pos
    change progress.offset < next.offset
    omega
  · exact Yields.skip fun _ => Yields.pure _ rfl

structure Ahead (grammar : Grammar) (progress : Progress) (found : Match) : Prop where
  within : found.Within (Text.byteLength text)
  forward : grammar.LooksAhead progress.stack.top → progress.offset ≤ found.whole.start

variable {text}

theorem Ahead.start_eq {progress : Progress} {found : Match}
    (ahead : Ahead text grammar progress found) (looks : grammar.LooksAhead progress.stack.top)
    (stays : found.whole.stop ≤ progress.offset) : found.whole.start = progress.offset := by
  have := ahead.forward looks
  have := ahead.within.ordered
  omega

theorem close_moves (progress : Progress) (found : Match)
    (ahead : Ahead text grammar progress found)
    (pattern : Pattern) (last : Bool)
    (closes : Candidate.closing? grammar progress.stack.top = some (pattern, last)) :
    Yields (close retokenize text (Text.byteLength text) progress found)
      (Outcome.From grammar (Text.byteLength text) progress) := by
  unfold close
  refine Yields.skip fun _ => Yields.skip fun _ => Yields.skip fun _ => ?_
  dsimp only
  split
  · exact stepPast_moves text progress _
  · rename_i unforced
    refine Yields.pure _ (.closed closes rfl rfl ?_)
    rcases progress.moveTo_onward found.whole.stop _ ahead.within.stop_le with later | ⟨stays, same⟩
    · exact .inl later
    · refine .inr ⟨same, fun looks => ?_⟩
      have start := ahead.start_eq looks stays
      by_cases none : progress.fresh = 0
      · exact .inl none
      · right
        intro entered
        simp [stays, start, entered] at unforced
        omega

theorem takeMatch_moves (progress : Progress) (id : RuleId) (rules : CaptureRules) (found : Match)
    (ahead : Ahead text grammar progress found) (nameScopes : ScopePath) :
    Yields (takeMatch retokenize text (Text.byteLength text) progress id rules found nameScopes)
      (Outcome.From grammar (Text.byteLength text) progress) := by
  unfold takeMatch
  refine Yields.skip fun _ => Yields.skip fun _ => ?_
  split
  · rename_i later
    have advances : progress.Advances (Text.byteLength text) (progress.moveTo found.whole.stop) := by
      rcases progress.moveTo_onward found.whole.stop _ ahead.within.stop_le with later | ⟨stays, _⟩
      · exact later
      · omega
    exact Yields.pure _ (.past advances (progress.moveTo_stack _) (progress.moveTo_fresh _))
  · exact stepPast_moves text progress progress.anchor

theorem opened_moves (progress : Progress) (found : Match)
    (ahead : Ahead text grammar progress found)
    (frame : Frame) (opens : grammar.Opens progress.stack.contentScopes frame)
    (entered : frame.entered = some found.whole.start)
    (unopened : ¬ (decide (found.whole.stop ≤ progress.offset) &&
      progress.stack.hasOpened frame.rule (some found.whole.start) progress.fresh) = true) :
    progress.Moves grammar (Text.byteLength text)
      { progress.moveTo found.whole.stop with
        stack := progress.stack.push frame
        fresh := progress.fresh + 1
        anchor := some found.whole.stop } := by
  refine .opened frame opens rfl rfl ?_
  rcases progress.moveTo_onward found.whole.stop _ ahead.within.stop_le with later | ⟨stays, same⟩
  · exact .inl later
  · refine .inr ⟨same, fun looks => ?_⟩
    have start := ahead.start_eq looks stays
    refine ⟨by rw [entered, start], ?_⟩
    simpa [stays, start] using unopened

theorem openRule_moves (progress : Progress) (id : RuleId) (rule : Rule) (rules : CaptureRules)
    (follow : Pattern) (found : Match) (nameScopes : ScopePath)
    (ahead : Ahead text grammar progress found)
    (known : grammar.graph.rule? id = some rule) (follows : rule.follow? = some follow)
    (named : ∃ name, nameScopes = grammar.pathAfter progress.stack.contentScopes name) :
    Yields (openRule retokenize text (Text.byteLength text) progress id rule rules follow found
      nameScopes) (Outcome.From grammar (Text.byteLength text) progress) := by
  unfold openRule
  refine Yields.skip fun _ => Yields.skip fun _ => ?_
  refine Yields.bind (pushName_yields _ _) fun contentScopes content => ?_
  have opens (resolved : Option Pattern)
      (uses : ∀ pattern, resolved = some pattern → grammar.Resolved pattern) :
      grammar.Opens progress.stack.contentScopes
        { frameFor (Text.byteLength text) progress id found nameScopes with
          contentScopes, resolved } :=
    ⟨RuleGraph.lt_size known, uses, named, _, content⟩
  dsimp only
  split
  · rename_i refers
    refine Yields.bind (resolved_yields _) fun resolved compiled => ?_
    split
    · exact stepPast_moves text progress none
    · rename_i unopened
      have uses (pattern : Pattern) (here : resolved = some pattern) : grammar.Resolved pattern :=
        ⟨known, follows, refers, compiled.symm.trans here⟩
      exact Yields.pure _ (opened_moves progress found ahead _ (opens resolved uses) rfl unopened)
  · refine Yields.bind (Yields.pure none rfl : Yields _ (· = none)) fun resolved absent => ?_
    subst absent
    split
    · exact stepPast_moves text progress none
    · rename_i unopened
      exact Yields.pure _ (opened_moves progress found ahead _ (opens none (by simp)) rfl unopened)

theorem takeRule_moves (progress : Progress) (id : RuleId) (found : Match)
    (ahead : Ahead text grammar progress found) (rule : Rule) (pattern : Pattern)
    (known : grammar.graph.rule? id = some rule) (starts : rule.start? = some pattern) :
    Yields (takeRule retokenize text (Text.byteLength text) progress id found)
      (Outcome.From grammar (Text.byteLength text) progress) := by
  unfold takeRule
  refine Yields.skip fun _ => ?_
  simp only [known]
  refine Yields.bind (pushName_yields _ _) fun nameScopes named => ?_
  split
  · exact takeMatch_moves retokenize progress id _ found ahead nameScopes
  · rename_i kind
    exact openRule_moves retokenize progress id rule _ _ found nameScopes ahead known
      (by simp [Rule.follow?, kind]) ⟨_, named⟩
  · rename_i kind
    exact openRule_moves retokenize progress id rule _ _ found nameScopes ahead known
      (by simp [Rule.follow?, kind]) ⟨_, named⟩
  · rename_i kind
    exact absurd starts (by simp [Rule.start?, kind])
  · rename_i kind
    exact absurd starts (by simp [Rule.start?, kind])

variable (text)

theorem advance_moves (progress : Progress) :
    Yields (advance retokenize text (Text.byteLength text) progress)
      (Outcome.From grammar (Text.byteLength text) progress) := by
  unfold advance
  dsimp only
  split
  · exact Yields.skip fun _ => Yields.pure _ rfl
  all_goals
    rename_i chosen
    obtain ⟨cursor, here, best⟩ := Option.bind_eq_some_iff.mp chosen
    have reached := Text.Cursor.at?_offset here
    have offered := Candidate.best_offered grammar _ _ _ best
    have ahead : Ahead text grammar progress _ :=
      ⟨offered.within, fun looks => reached ▸ offered.forward looks.resolves looks.forward⟩
    obtain ⟨pattern, offers, _⟩ := offered
  · cases offers with
    | closing closes => exact close_moves retokenize progress _ ahead pattern _ closes
  · cases offers with
    | rule _ known starts => exact takeRule_moves retokenize progress _ _ ahead _ pattern known starts

end Job

end Highlighter
