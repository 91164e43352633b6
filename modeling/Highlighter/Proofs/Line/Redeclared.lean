import Highlighter.Proofs.Line.Unison

set_option autoImplicit false

namespace Highlighter

open Regex (Match Region)

section

variable {σ τ α β : Type} {carry : σ → τ}

def Echoes (carry : σ → τ) (one : StateM σ α) (other : StateM τ α) : Prop :=
  ∀ state, other.run (carry state) = ((one.run state).1, carry (one.run state).2)

namespace Echoes

theorem pure (value : α) : Echoes carry (Pure.pure value) (Pure.pure value) := fun _ => rfl

theorem bind {one : StateM σ α} {other : StateM τ α} {next : α → StateM σ β} {more : α → StateM τ β}
    (first : Echoes carry one other) (rest : ∀ value, Echoes carry (next value) (more value)) :
    Echoes carry (one >>= next) (other >>= more) := by
  intro state
  change (more (other.run (carry state)).1).run (other.run (carry state)).2 = _
  rw [first state]
  exact rest _ _

end Echoes

end

namespace Grammar

def redeclared (grammar : Grammar) (decl : GrammarDecl) : Grammar := { grammar with decl }

variable {grammar : Grammar} {decl : GrammarDecl}

theorem graph_redeclared : (grammar.redeclared decl).graph = grammar.graph := rfl

def cachesOf (decl : GrammarDecl) (caches : Caches grammar) : Caches (grammar.redeclared decl) :=
  ⟨caches.patterns, caches.traits, caches.styles⟩

def workOf (decl : GrammarDecl) (work : Work grammar) : Work (grammar.redeclared decl) :=
  ⟨cachesOf decl work.caches, work.emitted, work.lastStop, work.tooDeep⟩

theorem pushScope_echoes (path : ScopePath) (scope : String) :
    Echoes (cachesOf decl) (pushScope path scope : StateM (Caches grammar) ScopePath)
      (pushScope path scope) := fun _ => rfl

theorem pushAll_echoes (path : ScopePath) (scopes : List String) :
    Echoes (cachesOf decl) (pushAll path scopes : StateM (Caches grammar) ScopePath)
      (pushAll path scopes) := by
  induction scopes generalizing path with
  | nil => exact .pure path
  | cons scope rest ih => exact .bind (pushScope_echoes path scope) ih

theorem pushName_echoes (path : ScopePath) (name : Option String) :
    Echoes (cachesOf decl) (pushName path name : StateM (Caches grammar) ScopePath)
      (pushName path name) := by
  cases name with
  | none => exact .pure path
  | some name => exact pushAll_echoes path _

theorem best_redeclared {text : List Char} (position : Position text) (stack : Stack) :
    Candidate.best? (grammar.redeclared decl) position stack =
      Candidate.best? grammar position stack := by
  have injected (scopes : List String) (injections : List Injection)
      (best : Option (Found × Priority)) :
      Candidate.bestInjected (grammar.redeclared decl) position scopes best injections =
        Candidate.bestInjected grammar position scopes best injections := by
    induction injections generalizing best with
    | nil => rfl
    | cons injection rest ih =>
      unfold Candidate.bestInjected
      simp only [ih]
      rfl
  simp only [Candidate.best?, injected]
  rfl

theorem resolved_echoes (source : String) :
    Echoes (cachesOf decl) (resolved source : StateM (Caches grammar) (Option Pattern))
      (resolved source) := fun _ => rfl

end Grammar

namespace Job

open Grammar (workOf cachesOf)

variable {grammar : Grammar} {decl : GrammarDecl} {α : Type}

theorem cached_echoes {action : StateM (Caches grammar) α}
    {other : StateM (Caches (grammar.redeclared decl)) α}
    (echoes : Echoes (cachesOf decl) action other) :
    Echoes (workOf decl) (cached action) (cached other) := by
  intro work
  have same := echoes work.caches
  rw [run_cached, run_cached]
  change ((other.run (cachesOf decl work.caches)).1,
    { workOf decl work with caches := (other.run (cachesOf decl work.caches)).2 }) = _
  rw [same]
  rfl

theorem emit_echoes (scopes : ScopePath) (stop : Nat) :
    Echoes (workOf decl) (emit scopes stop : Job grammar Unit) (emit scopes stop) := by
  intro work
  refine Prod.ext rfl ?_
  rw [run_emit, run_emit]
  change (if stop ≤ work.lastStop then _ else _) = _
  split <;> rfl

theorem closeUpTo_echoes (start : Nat) (groups : List OpenGroup) :
    Echoes (workOf decl) (closeUpTo start groups : Job grammar (List OpenGroup))
      (closeUpTo start groups) := by
  induction groups with
  | nil => exact .pure []
  | cons group rest ih =>
    unfold closeUpTo
    split
    · exact .bind (emit_echoes _ _) fun _ => ih
    · exact .pure _

theorem closeAll_echoes (groups : List OpenGroup) :
    Echoes (workOf decl) (closeAll groups : Job grammar Unit) (closeAll groups) := by
  induction groups with
  | nil => exact .pure ()
  | cons group rest ih => exact .bind (emit_echoes _ _) fun _ => ih

def Readings (retokenize : Retokenize grammar) (other : Retokenize (grammar.redeclared decl)) :
    Prop :=
  ∀ text onFirstLine start stack, Echoes (workOf decl) (retokenize text onFirstLine start stack)
    (other text onFirstLine start stack)

section

variable {retokenize : Retokenize grammar} {other : Retokenize (grammar.redeclared decl)}
  (readings : Readings retokenize other) (text : List Char) (onFirstLine : Bool)

include readings

theorem enterGroup_echoes (stack : Stack) (found : Match) (groups : List OpenGroup) (rule : Rule)
    (region : Region) :
    Echoes (workOf decl) (enterGroup retokenize text onFirstLine stack found groups rule region)
      (enterGroup other text onFirstLine stack found groups rule region) := by
  unfold enterGroup
  dsimp only
  split
  · refine .bind (cached_echoes (Grammar.pushName_echoes _ _)) fun _ =>
      .bind (cached_echoes (Grammar.pushName_echoes _ _)) fun _ => ?_
    exact .bind (readings _ _ _ _) fun _ => .pure _
  · split
    · exact .pure _
    · exact .bind (cached_echoes (Grammar.pushName_echoes _ _)) fun _ => .pure _

theorem readGroups_echoes (stack : Stack) (found : Match) (groups : List OpenGroup)
    (parts : List (Option RuleId × Option Region)) :
    Echoes (workOf decl) (readGroups retokenize text onFirstLine stack found groups parts)
      (readGroups other text onFirstLine stack found groups parts) := by
  induction parts generalizing groups with
  | nil => exact closeAll_echoes groups
  | cons part rest ih =>
    match part with
    | (none, _) => exact ih groups
    | (some _, none) => exact ih groups
    | (some id, some region) =>
      unfold readGroups
      split
      · exact ih groups
      · split
        · exact closeAll_echoes groups
        · refine .bind (closeUpTo_echoes _ _) fun groups => .bind (emit_echoes _ _) fun _ => ?_
          rw [Grammar.graph_redeclared]
          cases grammar.graph.rule? id with
          | none => exact ih groups
          | some rule => exact .bind (enterGroup_echoes readings _ _ _ _ _ _ _) ih

theorem captures_echoes (stack : Stack) (rules : CaptureRules) (found : Match) :
    Echoes (workOf decl) (captures retokenize text onFirstLine stack rules found)
      (captures other text onFirstLine stack rules found) :=
  readGroups_echoes readings text onFirstLine stack found [] _

variable (size : Nat) (progress : Progress) (found : Match)

omit readings in
theorem stepPast_echoes : Echoes (workOf decl) (stepPast text size progress : Job grammar Outcome)
    (stepPast text size progress) := by
  unfold stepPast
  dsimp only
  split
  · exact .bind (emit_echoes _ _) fun _ => .pure _
  · exact .bind (emit_echoes _ _) fun _ => .pure _

theorem close_echoes : Echoes (workOf decl) (close retokenize text size progress found)
    (close other text size progress found) := by
  unfold close
  refine .bind (emit_echoes _ _) fun _ => .bind (captures_echoes readings _ _ _ _ _) fun _ =>
    .bind (emit_echoes _ _) fun _ => ?_
  dsimp only
  split
  · exact stepPast_echoes text size _
  · exact .pure _

theorem takeMatch_echoes (id : RuleId) (rules : CaptureRules) (names : ScopePath) :
    Echoes (workOf decl) (takeMatch retokenize text size progress id rules found names)
      (takeMatch other text size progress id rules found names) := by
  unfold takeMatch
  refine .bind (captures_echoes readings _ _ _ _ _) fun _ => .bind (emit_echoes _ _) fun _ => ?_
  split
  · exact .pure _
  · exact stepPast_echoes text size _

theorem openRule_echoes (id : RuleId) (rule : Rule) (rules : CaptureRules) (follow : Pattern)
    (names : ScopePath) :
    Echoes (workOf decl) (openRule retokenize text size progress id rule rules follow found names)
      (openRule other text size progress id rule rules follow found names) := by
  unfold openRule
  refine .bind (captures_echoes readings _ _ _ _ _) fun _ => .bind (emit_echoes _ _) fun _ =>
    .bind (cached_echoes (Grammar.pushName_echoes _ _)) fun scopes => ?_
  have last (resolved : Option Pattern) : Echoes (workOf decl)
      (if found.whole.stop ≤ progress.offset &&
          progress.stack.hasOpened id (some found.whole.start) progress.fresh then
        stepPast text size { progress with anchor := none }
      else return .more { progress.moveTo found.whole.stop with
        stack := progress.stack.push
          { frameFor size progress id found names with contentScopes := scopes, resolved }
        fresh := progress.fresh + 1
        anchor := some found.whole.stop } : Job grammar Outcome)
      (if found.whole.stop ≤ progress.offset &&
          progress.stack.hasOpened id (some found.whole.start) progress.fresh then
        stepPast text size { progress with anchor := none }
      else return .more { progress.moveTo found.whole.stop with
        stack := progress.stack.push
          { frameFor size progress id found names with contentScopes := scopes, resolved }
        fresh := progress.fresh + 1
        anchor := some found.whole.stop }) := by
    split
    · exact stepPast_echoes text size _
    · exact .pure _
  dsimp only
  cases follow.refersBack with
  | true => exact .bind (cached_echoes (Grammar.resolved_echoes _)) last
  | false => exact last none

theorem takeRule_echoes (id : RuleId) :
    Echoes (workOf decl) (takeRule retokenize text size progress id found)
      (takeRule other text size progress id found) := by
  unfold takeRule
  refine .bind (emit_echoes _ _) fun _ => ?_
  rw [Grammar.graph_redeclared]
  cases grammar.graph.rule? id with
  | none => exact .pure _
  | some rule =>
    refine .bind (cached_echoes (Grammar.pushName_echoes _ _)) fun names => ?_
    split
    · exact takeMatch_echoes readings text size progress found id _ names
    · exact openRule_echoes readings text size progress found id rule _ _ names
    · exact openRule_echoes readings text size progress found id rule _ _ names
    · exact .pure _
    · exact .pure _

theorem advance_echoes : Echoes (workOf decl) (advance retokenize text size progress)
    (advance other text size progress) := by
  unfold advance
  dsimp only
  rw [show (fun cursor => Candidate.best? (grammar.redeclared decl)
      ⟨cursor, progress.onFirstLine, progress.anchor⟩ progress.stack) = fun cursor =>
        Candidate.best? grammar ⟨cursor, progress.onFirstLine, progress.anchor⟩ progress.stack from
    funext fun _ => Grammar.best_redeclared _ _]
  split
  · exact .bind (emit_echoes _ _) fun _ => .pure _
  · exact close_echoes readings text size progress _
  · exact takeRule_echoes readings text size progress _ _

theorem read_echoes (checks : Option Nat) (fuel : Nat) :
    Echoes (workOf decl) (read retokenize text size checks fuel progress)
      (read other text size checks fuel progress) := by
  induction fuel generalizing progress checks with
  | zero =>
    cases checks with
    | none => exact .pure _
    | some left => cases left <;> exact .pure _
  | succ fuel ih =>
    by_cases late : checks = some 0
    · subst late
      exact .pure _
    · rw [read_succ _ _ _ _ _ _ late, read_succ _ _ _ _ _ _ late]
      refine .bind (advance_echoes readings text size progress) fun outcome => ?_
      cases outcome with
      | more next => exact ih next _
      | done stack => exact .pure _

end

end Job

namespace Grammar

variable {grammar : Grammar} {decl : GrammarDecl}

theorem retokenize_readings (depth : Nat) :
    Job.Readings (retokenize depth : Retokenize grammar)
      (retokenize depth : Retokenize (grammar.redeclared decl)) := by
  induction depth with
  | zero => exact fun _ _ _ _ _ => rfl
  | succ depth ih =>
    intro text onFirstLine start stack
    exact .bind (Job.read_echoes ih text _ _ none _) fun _ => .pure ()

theorem checkConditions_echoes {retokenize : Retokenize grammar}
    {other : Retokenize (grammar.redeclared decl)} (readings : Job.Readings retokenize other)
    (text : List Char) (progress : Progress) (outer : List Stack) :
    Echoes (workOf decl) (checkConditions retokenize text progress outer)
      (checkConditions other text progress outer) := by
  induction outer generalizing progress with
  | nil => exact .pure progress
  | cons stack rest ih =>
    unfold checkConditions
    rw [graph_redeclared]
    split
    · dsimp only
      split
      · exact .pure _
      · refine .bind (Job.emit_echoes _ _) fun _ => ?_
        refine .bind (Job.captures_echoes readings _ _ _ _ _) fun _ => ?_
        exact .bind (Job.emit_echoes _ _) fun _ => ih _
    · exact ih progress

theorem firstStack_redeclared (named : decl.scopeName = grammar.decl.scopeName) :
    (grammar.redeclared decl).firstStack = grammar.firstStack := by
  have name : (grammar.redeclared decl).scopeName = grammar.scopeName := named
  have pushed : Echoes (cachesOf decl : Caches grammar → _) _ _ :=
    pushName_echoes ScopePath.empty (some grammar.scopeName)
  have path := congrArg Prod.fst (pushed (Caches.empty grammar))
  rw [pushName_value, pushName_value] at path
  rw [firstStack, firstStack, name, path]
  rfl

theorem lineJob_echoes (depth : Nat) (line : String) (start : Stack) (isFirst : Bool)
    (checks : Option Nat) :
    Echoes (workOf decl) (grammar.lineJob depth line start isFirst checks)
      ((grammar.redeclared decl).lineJob depth line start isFirst checks) := by
  have readings : Job.Readings _ (retokenize _ : Retokenize (grammar.redeclared decl)) :=
    retokenize_readings depth
  refine .bind (checkConditions_echoes readings _ _ _) fun progress => ?_
  refine .bind (Job.read_echoes readings _ _ _ checks _) fun (stack, late) => ?_
  cases late with
  | false => exact .pure _
  | true => exact .bind (Job.emit_echoes _ _) fun _ => .pure _

theorem tokenize_redeclared (named : decl.scopeName = grammar.decl.scopeName) (depth : Nat)
    (line : String) (prior : Option Stack) (checks : Option Nat) (isPacked : Bool)
    (caches : Caches grammar) (others : Caches (grammar.redeclared decl)) :
    ((tokenize depth line prior checks isPacked).run others).1 =
      ((tokenize depth line prior checks isPacked).run caches).1 := by
  have start : (grammar.redeclared decl).startOfLine prior = grammar.startOfLine prior := by
    cases prior with
    | some stack => rfl
    | none => exact firstStack_redeclared named
  obtain ⟨ready, read⟩ := tokenize_eq depth line prior checks isPacked caches
  obtain ⟨set, again⟩ := tokenize_eq depth line prior checks isPacked others
  -- First with what these caches hold, then with the other rules of the grammar.
  obtain ⟨ended, emitted, _, deep⟩ :=
    lineJob_unison (Job.emittedAlike_steady (grammar.redeclared decl) (lineSize line)) depth line
      le_rfl (grammar.startOfLine prior) prior.isNone checks ⟨set, Emitted.none isPacked, 0, false⟩
      (workOf decl ⟨ready, Emitted.none isPacked, 0, false⟩) ⟨rfl, rfl, rfl⟩
  have same : ((grammar.redeclared decl).lineJob depth line (grammar.startOfLine prior)
      prior.isNone checks).run (workOf decl ⟨ready, Emitted.none isPacked, 0, false⟩) = _ :=
    lineJob_echoes depth line _ _ checks _
  rw [again, read, start]
  simp only [lineResult, ended, emitted, deep, same]
  rfl

end Grammar

end Highlighter
