import Highlighter.Live.Worker
import Highlighter.Proofs.Line.Congruence

set_option autoImplicit false

namespace Highlighter

def Frame.seen (frame : Frame) : Nat × RuleId × Option String × List String × List String :=
  (frame.depth, frame.rule, frame.resolved.map (·.source), frame.nameScopes.entries.map (·.name),
    frame.contentScopes.entries.map (·.name))

def Stack.seen (stack : Stack) : List (Nat × RuleId × Option String × List String × List String) :=
  stack.frames.map Frame.seen

theorem Frame.same_iff_seen (a b : Frame) : a.same b = true ↔ a.seen = b.seen := by
  simp [Frame.same, Frame.seen, Frame.sameEnd, ScopePath.sameNames, and_assoc]

theorem Stack.sameFrames_iff_seen (as bs : List Frame) :
    sameFrames as bs = true ↔ as.map Frame.seen = bs.map Frame.seen := by
  induction as generalizing bs with
  | nil => cases bs <;> simp [sameFrames]
  | cons a as ih =>
    cases bs with
    | nil => simp [sameFrames]
    | cons b bs => simp [sameFrames, Frame.same_iff_seen, ih]

theorem Stack.same_iff_seen (a b : Stack) : a.same b = true ↔ a.seen = b.seen :=
  Stack.sameFrames_iff_seen a.frames b.frames

namespace Grammar

def ReadsAlike (grammar : Grammar) : Prop :=
  ∀ a b : Stack, Returned (· = grammar) a → Returned (· = grammar) b → a.same b = true →
    ∀ (depth : Nat) (line : String) (one other : Caches grammar),
      ((tokenize depth line (some a) none false).run one).1.Alike
        ((tokenize depth line (some b) none false).run other).1

theorem readsAlike_of_ignoresAnchor (grammar : Grammar) (ignores : grammar.IgnoresAnchor) :
    grammar.ReadsAlike :=
  fun a b first second same depth line one other =>
    tokenize_alike a b first second same (.inr ignores) depth line none false one other

def Knows (grammar : Grammar) (prior : Option Stack) : Prop :=
  ∀ stack, prior = some stack → Returned (· = grammar) stack

theorem knows_none (grammar : Grammar) : grammar.Knows none := fun _ => nofun

variable {grammar : Grammar}

theorem tokenize_late (depth : Nat) (line : String) (prior : Option Stack) (isPacked : Bool)
    (caches : Caches grammar) :
    ((tokenize depth line prior (some 0) isPacked).run caches).1.stack =
      grammar.startOfLine prior := by
  obtain ⟨ready, same⟩ := tokenize_eq depth line prior (some 0) isPacked caches
  have late (work : Work grammar) :
      ((grammar.lineJob depth line (grammar.startOfLine prior) prior.isNone (some 0)).run
        work).1.2 = true := by
    simp only [lineJob, Job.read]
    rfl
  rw [same]
  simp only [lineResult, late, if_true]

theorem firstStack_returned (grammar : Grammar) : Returned (· = grammar) grammar.firstStack := by
  have returned := @Returned.line (· = grammar) grammar rfl 0 "" none (fun _ => nofun) (some 0)
    false (Caches.empty grammar)
  rwa [tokenize_late] at returned

end Grammar

namespace LiveDocument

variable (reader : LineReader) (limits : Limits) (text : String) (prior : Option Stack)

theorem readLine_grammar :
    (readLine reader limits text prior).2.2.1.grammar = reader.grammar := by
  unfold readLine
  split
  · cases prior <;> rfl
  · rfl

theorem readLine_returned (knows : reader.grammar.Knows prior) :
    Returned (· = reader.grammar) (readLine reader limits text prior).2.1 := by
  unfold readLine
  split
  · cases prior with
    | some stack => exact knows stack rfl
    | none =>
      have first := Grammar.initialStack_value reader.caches
      exact first ▸ Grammar.firstStack_returned reader.grammar
  · exact @Returned.line (· = reader.grammar) reader.grammar rfl limits.depth text prior knows
      limits.checks false reader.caches

end LiveDocument

namespace LineReader

theorem initialStack_seen (grammar : Grammar) (one other : Caches grammar) :
    (initialStack ⟨grammar, one⟩).1 = (initialStack ⟨grammar, other⟩).1 :=
  (Grammar.initialStack_value one).trans (Grammar.initialStack_value other).symm

theorem skip_alike (grammar : Grammar) (one other : Caches grammar) (text : String)
    (a b : Option Stack) (knowsFirst : grammar.Knows a) (knowsSecond : grammar.Knows b)
    (start : a.map Stack.seen = b.map Stack.seen) :
    (skip ⟨grammar, one⟩ text a).1 = (skip ⟨grammar, other⟩ text b).1 ∧
      (skip ⟨grammar, one⟩ text a).2.1.seen = (skip ⟨grammar, other⟩ text b).2.1.seen := by
  cases a with
  | none =>
    cases b with
    | some stack => exact nomatch start
    | none =>
      have same := initialStack_seen grammar one other
      simp only [skip, same, and_self]
  | some x =>
    cases b with
    | none => exact nomatch start
    | some y =>
      have seen : x.seen = y.seen := Option.some.inj start
      have agrees := (Stack.same_iff (knowsFirst x rfl).makes (knowsSecond y rfl).makes).mp
        ((Stack.same_iff_seen x y).mpr seen)
      exact ⟨by simp only [skip, agrees.scopes], seen⟩

theorem read_alike (grammar : Grammar) (one other : Caches grammar) (alike : grammar.ReadsAlike)
    (depth : Nat) (text : String) (a b : Option Stack) (knowsFirst : grammar.Knows a)
    (knowsSecond : grammar.Knows b) (start : a.map Stack.seen = b.map Stack.seen) :
    (read ⟨grammar, one⟩ depth text a none).1.Alike (read ⟨grammar, other⟩ depth text b none).1 := by
  cases a with
  | none =>
    cases b with
    | some stack => exact nomatch start
    | none =>
      exact Grammar.tokenize_agrees none none rfl grammar.firstStack_makes grammar.firstStack_makes
        (Stack.Agrees.refl (Grammar.Admits.firstStack grammar).resolves) (.inl rfl) depth text none
        false one other
  | some x =>
    cases b with
    | none => exact nomatch start
    | some y =>
      have same := (Stack.same_iff_seen x y).mpr (Option.some.inj start)
      exact alike x y (knowsFirst x rfl) (knowsSecond y rfl) same depth text one other

end LineReader

namespace LiveDocument

theorem readLine_alike (grammar : Grammar) (alike : grammar.ReadsAlike) (first second : LineReader)
    (ofFirst : first.grammar = grammar) (ofSecond : second.grammar = grammar) (limits : Limits)
    (untimed : limits.checks = none) (text : String) (a b : Option Stack)
    (knowsFirst : grammar.Knows a) (knowsSecond : grammar.Knows b)
    (start : a.map Stack.seen = b.map Stack.seen) :
    (readLine first limits text a).1 = (readLine second limits text b).1 ∧
      (readLine first limits text a).2.1.seen = (readLine second limits text b).2.1.seen ∧
      (readLine first limits text a).2.2.2 = (readLine second limits text b).2.2.2 := by
  obtain ⟨_, one⟩ := first
  obtain ⟨_, other⟩ := second
  obtain rfl := ofFirst
  obtain rfl := ofSecond
  unfold readLine
  split
  · have same := LineReader.skip_alike _ one other text a b knowsFirst knowsSecond start
    exact ⟨same.1, same.2, rfl⟩
  · have same := LineReader.read_alike _ one other alike limits.depth text a b knowsFirst
      knowsSecond start
    simp only [untimed]
    exact ⟨congrArg Emitted.tokens same.emitted, (Stack.same_iff_seen _ _).mp same.stack,
      same.tooDeep⟩

def readAfresh (grammar : Grammar) (limits : Limits) (prior : Option Stack) :
    List String → List (List Token)
  | [] => []
  | line :: rest =>
    let (tokens, after) := readLine (LineReader.ofGrammar grammar) limits line prior
    tokens :: readAfresh grammar limits (some after.1) rest

theorem readAfresh_eq (grammar : Grammar) (alike : grammar.ReadsAlike) (limits : Limits)
    (untimed : limits.checks = none) (lines : List String)
    (short : ∀ line ∈ lines, Text.byteLength line.toList ≤ limits.longestLine)
    (a b : Option Stack) (knowsFirst : grammar.Knows a) (knowsSecond : grammar.Knows b)
    (start : a.map Stack.seen = b.map Stack.seen) (caches : Caches grammar) :
    readAfresh grammar limits a lines =
      ((Grammar.tokenizeLines limits.depth b lines).run caches).1.map (·.emitted.tokens) := by
  induction lines generalizing a b caches with
  | nil => rfl
  | cons line rest ih =>
    have fits : ¬ limits.longestLine < Text.byteLength line.toList :=
      Nat.not_lt.mpr (short line (by simp))
    have same := readLine_alike grammar alike (LineReader.ofGrammar grammar) ⟨grammar, caches⟩ rfl
      rfl limits untimed line a b knowsFirst knowsSecond start
    have first := readLine_returned (LineReader.ofGrammar grammar) limits line a knowsFirst
    have second := readLine_returned ⟨grammar, caches⟩ limits line b knowsSecond
    have later := ih (fun other member => short other (List.mem_cons_of_mem _ member))
      (some (readLine (LineReader.ofGrammar grammar) limits line a).2.1)
      (some (readLine ⟨grammar, caches⟩ limits line b).2.1)
      (fun _ same => Option.some.inj same ▸ first) (fun _ same => Option.some.inj same ▸ second)
      (congrArg some same.2.1)
      ((Grammar.tokenize limits.depth line b none false).run caches).2
    simp only [readAfresh, later, same.1]
    simp only [readLine, if_neg fits, untimed]
    rfl

end LiveDocument

end Highlighter
