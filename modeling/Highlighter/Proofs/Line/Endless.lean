import Highlighter.Proofs.Line.Captures

set_option autoImplicit false

namespace Highlighter

open Regex (Match Region)

-- A text to be read from `start` on by the rules that `rule` holds.
structure Passage where
  rule : RuleId
  text : List Char
  start : Nat

/-- Whatever else is open, the first thing found in a passage is a match of a rule that spans no
lines, and the passage `next` is a group of that match. -/
structure Passage.Contains (grammar : Grammar) (passage next : Passage) (id : RuleId)
    (found : Match) : Prop where
  chosen : ∃ cursor, Text.Cursor.at? passage.text passage.start = some cursor ∧
    ∀ (stack : Stack) onFirstLine anchor, stack.top.rule = passage.rule →
      Candidate.best? grammar ⟨cursor, onFirstLine, anchor⟩ stack = some ⟨.rule id, found⟩
  nested : found.Nested
  group : ∃ rule pattern captures group inner region,
    grammar.graph.rule? id = some rule ∧ rule.kind = .matching pattern captures ∧
    (some group, some region) ∈ captures.zip (some found.whole :: found.groups) ∧
    region.start ≠ region.stop ∧
    grammar.graph.rule? group = some inner ∧ inner.kind = .capturing (some next.rule) ∧
    next.text = (Text.takeBytes? region.stop passage.text).getD [] ∧ next.start = region.start

namespace Job

variable {grammar : Grammar} {α β : Type}

def IsTooDeep (work : Work grammar) : Prop := work.tooDeep = true

theorem tooDeep_lasts (onto : ScopePath → Prop) :
    Lasts onto (IsTooDeep : Work grammar → Prop) where
  emit := fun scopes stop work _ deep => (tooDeep_emit scopes stop work).trans deep
  caches := fun _ _ deep => deep

theorem anywhere_carries (grammar : Grammar) :
    Carries grammar (fun _ => True) (fun _ => True) (fun _ => True) fun _ => True := by
  constructor <;> intros <;> trivial

def Deepens (job : Job grammar α) : Prop :=
  Ensures (fun _ => True) job fun _ work => IsTooDeep work

theorem Deepens.bind (after : β → Prop) {job : Job grammar α} {next : α → Job grammar β}
    (deepens : Deepens job) (rest : ∀ value, Lays IsTooDeep (next value) after) :
    Deepens (job >>= next) :=
  fun work start => (rest _ _ (deepens work start)).2

section

variable {retokenize : Retokenize grammar} {text : List Char} {region : Region} {inner : RuleId}
  (deepens : ∀ onFirstLine (stack : Stack), stack.top.rule = inner →
    Deepens (retokenize ((Text.takeBytes? region.stop text).getD []) onFirstLine region.start stack))

include deepens

theorem enterGroup_deepens {rule : Rule} (kind : rule.kind = .capturing (some inner))
    (onFirstLine : Bool) (stack : Stack) (found : Match) (groups : List OpenGroup) :
    Deepens (enterGroup retokenize text onFirstLine stack found groups rule region) := by
  unfold enterGroup
  simp only [kind]
  refine Ensures.skip fun nameScopes => Ensures.skip fun contentScopes => ?_
  exact Deepens.bind (fun _ => True) (deepens _ _ rfl) fun _ => Lays.pure groups trivial

variable (encloses : Encloses IsTooDeep (fun _ => True) retokenize) {group : RuleId} {rule : Rule}
  (known : grammar.graph.rule? group = some rule) (kind : rule.kind = .capturing (some inner))
  (filled : region.start ≠ region.stop)

include encloses known kind filled

theorem readGroups_deepens (onFirstLine : Bool) (stack : Stack) (found : Match)
    (groups : List OpenGroup) {parts : List (Option RuleId × Option Region)}
    (member : (some group, some region) ∈ parts)
    (within : ∀ part ∈ parts, ∀ region ∈ part.2, region.start ≤ found.whole.stop) :
    Deepens (readGroups retokenize text onFirstLine stack found groups parts) := by
  induction parts generalizing groups with
  | nil => cases member
  | cons part rest ih =>
    have behind (groups : List OpenGroup) (later : (some group, some region) ∈ rest) :=
      ih groups later fun part member => within part (List.mem_cons_of_mem _ member)
    rcases List.mem_cons.mp member with rfl | later
    · have inside := within _ List.mem_cons_self region rfl
      rw [readGroups, if_neg filled, if_neg (Nat.not_lt.mpr inside)]
      refine Ensures.skip fun left => Ensures.skip fun _ => ?_
      simp only [known]
      refine Deepens.bind (fun _ => True)
        (enterGroup_deepens deepens kind onFirstLine stack found left) fun next => ?_
      exact readGroups_lays (tooDeep_lasts _) (anywhere_carries grammar) encloses text onFirstLine
        trivial found next (fun _ _ => trivial) rest fun _ _ _ => trivial
    -- The groups before it make no difference, whatever is read in them.
    · obtain ⟨_ | id, _ | other⟩ := part
      · exact behind groups later
      · exact behind groups later
      · exact behind groups later
      · have inside := within _ List.mem_cons_self other rfl
        unfold readGroups
        split
        · exact behind groups later
        · rw [if_neg (Nat.not_lt.mpr inside)]
          refine Ensures.skip fun left => Ensures.skip fun _ => ?_
          split
          · exact behind left later
          · exact Ensures.skip fun next => behind next later

end

section

variable {passage next : Passage} {id : RuleId} {found : Match}
  (contains : passage.Contains grammar next id found) {retokenize : Retokenize grammar}
  (deepens : ∀ onFirstLine (stack : Stack), stack.top.rule = next.rule →
    Deepens (retokenize next.text onFirstLine next.start stack))
  (encloses : Encloses IsTooDeep (fun _ => True) retokenize) (size : Nat) {progress : Progress}
  (here : progress.offset = passage.start) (top : progress.stack.top.rule = passage.rule)

include contains deepens encloses here top

theorem advance_deepens : Deepens (advance retokenize passage.text size progress) := by
  obtain ⟨cursor, ahead, chosen⟩ := contains.chosen
  obtain ⟨rule, pattern, captures, group, inner, region, known, kind, member, filled, grouped,
    capturing, reads, starts⟩ := contains.group
  rw [reads, starts] at deepens
  simp only [advance, here, ahead, Option.bind_some, chosen _ _ _ top, takeRule, known, kind]
  refine Ensures.skip fun _ => Ensures.skip fun nameScopes => ?_
  refine Deepens.bind (Goes grammar (fun _ => True) progress.stack)
    (readGroups_deepens deepens encloses grouped capturing filled _ _ found [] member
      fun part among region captured => ?_) fun _ => ?_
  · have ordered := (contains.nested.laminar captures).ordered part among region captured
    exact ordered.1.trans ordered.2
  · refine Lays.bind (Lays.emit (tooDeep_lasts fun _ => True) trivial _) fun _ _ => ?_
    split
    · exact Lays.pure _ (Goes.on trivial _)
    · exact stepPast_lays (tooDeep_lasts _) (anywhere_carries grammar) _ size trivial _

theorem read_deepens {checks : Option Nat} (time : checks ≠ some 0) (fuel : Nat) :
    Deepens (read retokenize passage.text size checks (fuel + 1) progress) := by
  have advances := advance_deepens contains deepens encloses size here top
  rw [read_succ _ _ _ _ _ _ time]
  refine Deepens.bind (fun _ => True) advances fun outcome => ?_
  cases outcome with
  | done stack => exact Lays.pure _ trivial
  | more progress =>
    exact read_lays (tooDeep_lasts _) (anywhere_carries grammar) encloses _ size trivial
      (fun _ _ _ _ => trivial) trivial _ _

end

end Job

namespace Grammar

open Job (Deepens Encloses IsTooDeep Lays)

variable {grammar : Grammar}

theorem retokenize_keepsTooDeep (depth : Nat) :
    Encloses IsTooDeep (fun _ => True) (retokenize depth : Retokenize grammar) :=
  retokenize_encloses (Job.tooDeep_lasts _) (fun _ _ => rfl) (Job.anywhere_carries grammar) depth

theorem exists_rounds (grammar : Grammar) (size : Nat) (stack : Stack) :
    ∃ fuel, Job.rounds grammar size stack = fuel + 1 := by
  refine Nat.exists_eq_add_one_of_ne_zero ?_
  simp [Job.rounds, Stack.frames]

theorem checkConditions_firstStack (rooted : grammar.graph.IsRooted) (retokenize : Retokenize grammar)
    (text : List Char) (progress : Progress) :
    checkConditions retokenize text progress grammar.firstStack.enclosing.reverse = pure progress := by
  obtain ⟨⟨_, _, _, _⟩, nested, known, rfl⟩ := rooted
  simp [Stack.enclosing, firstStack, Stack.root, Stack.stacksFrom, checkConditions, known]

variable {endless : Passage → Prop}
  (goesOn : ∀ passage, endless passage →
    ∃ next id found, endless next ∧ passage.Contains grammar next id found)

include goesOn

theorem retokenize_deepens (depth : Nat) {passage : Passage} (now : endless passage)
    (onFirstLine : Bool) (stack : Stack) (top : stack.top.rule = passage.rule) :
    Deepens (retokenize depth passage.text onFirstLine passage.start stack : Job grammar Unit) := by
  induction depth generalizing passage onFirstLine stack with
  | zero => exact fun _ _ => rfl
  | succ depth ih =>
    obtain ⟨next, id, found, still, contains⟩ := goesOn passage now
    obtain ⟨fuel, enough⟩ := exists_rounds grammar (Text.byteLength passage.text) stack
    have timeless : (none : Option Nat) ≠ some 0 := by simp
    simp only [retokenize, enough]
    refine Deepens.bind (fun _ => True) ?_ fun _ => Lays.pure _ trivial
    exact Job.read_deepens contains (ih still) (retokenize_keepsTooDeep depth) _ rfl top timeless fuel

/-- Where a line contains a passage, that one another, and so on without end, no depth is enough to
read the line, whatever the stack of the program has room for. -/
theorem tokenize_tooDeep (rooted : grammar.graph.IsRooted) (line : String)
    (now : endless ⟨grammar.graph.root, lineText line, 0⟩) (depth : Nat) {checks : Option Nat}
    (time : checks ≠ some 0) (isPacked : Bool) (caches : Caches grammar) :
    ((tokenize depth line none checks isPacked).run caches).1.tooDeep = true := by
  obtain ⟨next, id, found, still, contains⟩ := goesOn _ now
  obtain ⟨fuel, enough⟩ := exists_rounds grammar (lineSize line) grammar.firstStack
  have deepens : Deepens (grammar.lineJob depth line grammar.firstStack true checks) := by
    simp only [lineJob, checkConditions_firstStack rooted, pure_bind, enough]
    refine Deepens.bind (fun _ => True) (Job.read_deepens contains
      (retokenize_deepens goesOn depth still) (retokenize_keepsTooDeep depth) _ rfl rfl time fuel) ?_
    rintro ⟨stack, stopped⟩
    cases stopped with
    | false => exact Lays.pure _ trivial
    | true =>
      exact Lays.bind (Lays.emit (Job.tooDeep_lasts fun _ => True) trivial _) fun _ _ =>
        Lays.pure _ trivial
  obtain ⟨ready, same⟩ := tokenize_eq depth line none checks isPacked caches
  rw [same]
  exact deepens _ trivial

end Grammar

-- A rule with a group that is read by the whole grammar.
def Library.selfReading : Library :=
  let decl (reference pattern : Option String) (captures : Option (List (String × RuleDecl)))
      (nested : Option (List RuleDecl)) : RuleDecl :=
    ⟨reference, none, none, pattern, captures, none, none, none, none, none, none, nested, none, false⟩
  let whole : RuleDecl := decl (some "$self") none none none
  ⟨⟨some "t", none,
    [decl none (some "(a)") (some [("1", decl none none none (some [whole]))]) none],
    [], [], none, [], [], none⟩, Repository.empty⟩

def RuleGraph.selfReading : RuleGraph :=
  ⟨#[.held 0 [1],
    ⟨1, none, none, .matching (.unanchored "(a)" (.group 1 (.set (.char 'a')))) [none, some 2]⟩,
    ⟨2, none, none, .capturing (some 3)⟩, .held 3 [0]], 0, []⟩

namespace Grammar

def selfReading : Grammar :=
  ofGraph Library.selfReading Configuration.default (RuleGraph.compile Library.selfReading)

theorem selfReading_graph : selfReading.graph = RuleGraph.selfReading := by cbv

def selfReadingMatch : Match := ⟨⟨0, 1⟩, [some ⟨0, 1⟩]⟩

theorem selfReading_own {frame : Frame} (outer : frame.rule = 0 ∨ frame.rule = 3) :
    Candidate.own selfReading frame =
      [(.rule 1, .unanchored "(a)" (.group 1 (.set (.char 'a'))))] := by
  rw [Candidate.own, Candidate.closing?, selfReading_graph]
  rcases outer with same | same <;> rw [same] <;> cbv

theorem selfReading_contains {rule : RuleId} {text : List Char} (outer : rule = 0 ∨ rule = 3)
    (read : text = ['a'] ∨ text = ['a', '\n']) :
    Passage.Contains selfReading ⟨rule, text, 0⟩ ⟨3, ['a'], 0⟩ 1 selfReadingMatch where
  chosen := by
    refine ⟨Text.Cursor.first text, by simp [Text.Cursor.at?, Text.Cursor.forward?, Text.Cursor.first], ?_⟩
    rintro stack onFirstLine anchor rfl
    have searched (allowStart allowSearch : Bool) :
        (Pattern.unanchored "(a)" (.group 1 (.set (.char 'a')))).search? (Text.Cursor.first text)
          allowStart allowSearch = some selfReadingMatch := by
      rcases read with rfl | rfl <;> cases allowStart <;> cases allowSearch <;> cbv
    have first := selfReading_own outer
    rw [Candidate.best?, first, Candidate.scan, Pattern.scan, Pattern.scanFrom, searched,
      selfReading_graph]
    rfl
  nested := Match.nested_of_group le_rfl (Nat.zero_le 1) le_rfl
  group := by
    have known (id : RuleId) : selfReading.graph.rule? id = RuleGraph.selfReading.rule? id :=
      selfReading_graph ▸ rfl
    refine ⟨_, _, _, 2, _, ⟨0, 1⟩, known 1, rfl, by decide, by decide, known 2, rfl, ?_, rfl⟩
    rcases read with rfl | rfl <;> cbv

theorem selfReading_tooDeep (depth : Nat) {checks : Option Nat} (time : checks ≠ some 0)
    (isPacked : Bool) (caches : Caches selfReading) :
    ((tokenize depth "a" none checks isPacked).run caches).1.tooDeep = true := by
  have goesOn (passage : Passage) (now : passage = ⟨0, ['a', '\n'], 0⟩ ∨ passage = ⟨3, ['a'], 0⟩) :
      ∃ next id found, (next = ⟨0, ['a', '\n'], 0⟩ ∨ next = ⟨3, ['a'], 0⟩) ∧
        passage.Contains selfReading next id found := by
    rcases now with rfl | rfl
    · exact ⟨_, _, _, .inr rfl, selfReading_contains (.inl rfl) (.inr rfl)⟩
    · exact ⟨_, _, _, .inr rfl, selfReading_contains (.inr rfl) (.inl rfl)⟩
  refine tokenize_tooDeep goesOn (RuleGraph.compile_isRooted Library.selfReading) "a" ?_ depth time
    isPacked caches
  rw [selfReading_graph]
  exact .inl rfl

end Grammar

end Highlighter
