import Highlighter.Proofs.Grammar.Flattening
import Highlighter.Proofs.Line.EarlyStop
import Highlighter.Proofs.Line.Enclosing

set_option autoImplicit false

namespace Highlighter

open Regex (Match Region)

namespace Job

variable {grammar : Grammar}

def AlikeUnlessDeep (first second : Work grammar) : Prop :=
  first.tooDeep = true ∨ EmittedAlike first second

theorem alikeUnlessDeep_steady (grammar : Grammar) (limit : Nat) :
    Steady (AlikeUnlessDeep : Work grammar → Work grammar → Prop) limit where
  emit := by
    intro scopes stop bound first second same
    refine ⟨trivial, same.imp (fun deep => ?_) fun alike => ?_⟩
    · exact (tooDeep_emit scopes stop first).trans deep
    · exact ((emittedAlike_steady grammar limit).emit scopes stop bound first second alike).2
  overflow := fun _ _ _ => ⟨trivial, .inl rfl⟩
  caches := fun _ _ _ _ same => same

end Job

namespace Grammar

open Job (Unison Nested Lays Lasts Carries Encloses)

variable {grammar : Grammar}

theorem retokenize_deeper {depth deeper : Nat} (le : depth ≤ deeper) (limit : Nat) :
    Nested Job.AlikeUnlessDeep limit (retokenize depth : Retokenize grammar)
      (retokenize deeper) := by
  induction depth generalizing deeper with
  | zero => exact fun _ _ _ _ _ _ _ _ => ⟨rfl, .inl rfl⟩
  | succ depth ih =>
    obtain ⟨more, rfl⟩ := Nat.exists_eq_add_one_of_ne_zero (by omega : deeper ≠ 0)
    intro text onFirstLine start stack fits
    simp only [retokenize]
    have inner := ih (Nat.le_of_succ_le_succ le)
    exact Unison.bind (Job.read_unison (Job.alikeUnlessDeep_steady grammar limit) inner fits _ _ _)
      fun _ => Unison.pure _

theorem tokenize_deeper {depth deeper : Nat} (le : depth ≤ deeper) (line : String)
    (prior : Option Stack) (checks : Option Nat) (isPacked : Bool) (one other : Caches grammar)
    (enough : ((tokenize depth line prior checks isPacked).run one).1.tooDeep = false) :
    ((tokenize deeper line prior checks isPacked).run other).1 =
      ((tokenize depth line prior checks isPacked).run one).1 := by
  obtain ⟨ready, shallow⟩ := tokenize_eq depth line prior checks isPacked one
  obtain ⟨set, deep⟩ := tokenize_eq deeper line prior checks isPacked other
  obtain ⟨ended, same⟩ := lineJob_nested (Job.alikeUnlessDeep_steady grammar (lineSize line))
    (retokenize_deeper le _) line le_rfl (grammar.startOfLine prior) prior.isNone checks
    ⟨ready, Emitted.none isPacked, 0, false⟩ ⟨set, Emitted.none isPacked, 0, false⟩
    (.inr ⟨rfl, rfl, rfl⟩)
  rw [shallow] at enough
  rcases same with deeper | ⟨emitted, _, flag⟩
  · exact nomatch deeper.symm.trans enough
  · rw [shallow, deep]
    simp only [lineResult, ended, emitted, flag]

end Grammar

/-- Levels of rules that never rise from a rule to those it refers to, and that fall from a group to
the rules that read its text. -/
structure RuleGraph.Layered (graph : RuleGraph) (level : RuleId → Nat) : Prop where
  linked : ∀ id rule other, graph.rule? id = some rule → other ∈ rule.linked → level other ≤ level id
  falls : ∀ id rule inner, graph.rule? id = some rule → rule.kind = .capturing (some inner) →
    level inner < level id
  -- Injected rules also read the text of groups.
  injected : ∀ id rule inner, graph.rule? id = some rule → rule.kind = .capturing (some inner) →
    ∀ injection ∈ graph.injections, level injection.rule ≤ level inner

namespace RuleGraph

def isLayered (graph : RuleGraph) (level : RuleId → Nat) : Bool :=
  (List.range graph.rules.size).all fun id => (graph.rule? id).all fun rule =>
    rule.linked.all (level · ≤ level id) &&
      match rule.kind with
      | .capturing (some inner) =>
        level inner < level id && graph.injections.all (level ·.rule ≤ level inner)
      | _ => true

theorem layered_of_isLayered {graph : RuleGraph} {level : RuleId → Nat}
    (holds : graph.isLayered level = true) : graph.Layered level := by
  have each (id : RuleId) (rule : Rule) (known : graph.rule? id = some rule) := by
    have here := List.all_eq_true.mp holds id (List.mem_range.mpr (lt_size known))
    rw [known, Option.all_some, Bool.and_eq_true, List.all_eq_true] at here
    exact here
  have group (id : RuleId) (rule : Rule) (inner : RuleId) (known : graph.rule? id = some rule)
      (kind : rule.kind = .capturing (some inner)) :
      level inner < level id ∧ ∀ injection ∈ graph.injections, level injection.rule ≤ level inner := by
    simpa [kind] using (each id rule known).2
  exact ⟨fun id rule other known member => of_decide_eq_true ((each id rule known).1 other member),
    fun id rule inner known kind => (group id rule inner known kind).1,
    fun id rule inner known kind => (group id rule inner known kind).2⟩

end RuleGraph

namespace RuleGraph.Layered

variable {graph : RuleGraph} {level : RuleId → Nat} (layered : graph.Layered level)

include layered

theorem holds {holder id : RuleId} (holds : graph.Holds holder id) : level id ≤ level holder := by
  obtain ⟨nested, ⟨rule, known, kind⟩, member⟩ := holds
  exact layered.linked holder rule id known (by simpa [Rule.linked, kind] using member)

theorem leads {first last : RuleId} (leads : Relation.ReflTransGen graph.Holds first last) :
    level last ≤ level first := by
  induction leads with
  | refl => exact le_rfl
  | tail _ step ih => exact (layered.holds step).trans ih

theorem patterns {id other : RuleId} (member : other ∈ graph.patterns id) :
    level other ≤ level id := by
  unfold RuleGraph.patterns at member
  split at member
  · rename_i rule known
    obtain ⟨-, first, inside, way⟩ :=
      (mem_collect graph _ _ List.nodup_range other).mp member
    refine (layered.leads way.leads).trans (layered.linked id rule first known ?_)
    obtain ⟨_, _, _, kind⟩ := rule
    cases kind <;> simp_all [Rule.nested, Rule.linked]
  · cases member

end RuleGraph.Layered

structure Stack.Under (grammar : Grammar) (level : RuleId → Nat) (limit : Nat) (stack : Stack) :
    Prop where
  injected : ∀ injection ∈ grammar.graph.injections, level injection.rule ≤ limit
  lies : ∃ base below, Candidate.closing? grammar base = none ∧ level base.rule ≤ limit ∧
    stack.Over (fun frame => level frame.rule ≤ limit) base below

theorem Stack.Under.mono {grammar : Grammar} {level : RuleId → Nat} {lower limit : Nat}
    {stack : Stack} (le : lower ≤ limit) (under : stack.Under grammar level lower) :
    stack.Under grammar level limit := by
  obtain ⟨injected, base, below, stays, low, above, frames, on⟩ := under
  exact ⟨fun injection injects => (injected injection injects).trans le, base, below, stays,
    low.trans le, above, frames, fun frame member => (on frame member).trans le⟩

namespace Grammar

open Job (Lays Lasts Carries Encloses)

variable {grammar : Grammar} {level : RuleId → Nat}

theorem admits_turns (before after : Stack) (turns : before.Turns grammar after)
    (admits : grammar.Admits before) : grammar.Admits after := by
  cases turns with
  | stays => exact admits
  | closes => exact admits.pop
  | opens frame nests => exact admits.push nests.resolves

theorem Admits.under {stack : Stack} (admits : grammar.Admits stack)
    (rooted : grammar.graph.IsRooted) {limit : Nat} (low : ∀ id, level id ≤ limit) :
    stack.Under grammar level limit := by
  obtain ⟨above, base, frames⟩ : ∃ above base, stack.frames = above ++ [base] :=
    ⟨_, _, (List.dropLast_append_getLast (List.cons_ne_nil stack.top stack.below)).symm⟩
  have outermost : base.rule = grammar.graph.root := by simpa [frames] using admits.rooted
  obtain ⟨⟨_, _, _, kind⟩, nested, known, holds⟩ := rooted
  simp only at holds
  exact ⟨fun injection _ => low _, base, [], by simp [Candidate.closing?, outermost, known, holds],
    low _, above, frames, fun frame _ => low _⟩

theorem shallow_lasts (onto : ScopePath → Prop) :
    Lasts onto fun work : Work grammar => work.tooDeep = false where
  emit := fun scopes stop work _ shallow => (Job.tooDeep_emit scopes stop work).trans shallow
  caches := fun _ _ shallow => shallow

section

variable (library : Library) (compiled : grammar.graph = RuleGraph.compile library)
  (layered : grammar.graph.Layered level)

include compiled layered

theorem under_carries (limit : Nat) :
    Carries grammar (fun _ => True) (level · ≤ limit) (·.Under grammar level limit)
      fun stack => ∃ lower < limit, stack.Under grammar level lower where
  grows := fun _ _ _ => trivial
  content := fun _ => trivial
  top := by
    rintro stack ⟨_, base, below, _, low, lies⟩
    rcases lies.cases with bottom | ⟨above, _⟩
    · exact bottom ▸ low
    · exact above
  comes := by
    rintro stack id ⟨injected, base, below, _, low, lies⟩ (member | ⟨injection, injects, among⟩)
    · refine (layered.patterns member).trans ?_
      rcases lies.cases with bottom | ⟨above, _⟩
      · exact bottom ▸ low
      · exact above
    · rcases among with rfl | member
      · exact injected injection injects
      · exact (layered.patterns member).trans (injected injection injects)
  linked := fun admitted known member => (layered.linked _ _ _ known member).trans admitted
  push := fun ⟨injected, base, below, stays, low, lies⟩ admitted _ _ =>
    ⟨injected, base, below, stays, low, lies.push admitted⟩
  enter := by
    intro stack frame id rule _ admitted known kind _ _
    refine ⟨level frame.rule, (layered.falls id rule _ known kind).trans_le admitted,
      layered.injected id rule _ known kind, frame, stack.frames, ?_, le_rfl, [], rfl, nofun⟩
    obtain ⟨nested, held⟩ := compiled ▸ RuleGraph.compile_held library id rule (compiled ▸ known) _ kind
    simp [Candidate.closing?, held, Rule.held]
  name := fun _ _ => trivial
  named := by
    rintro stack ⟨injected, base, below, stays, low, lies⟩ closes
    obtain ⟨top, above, under, on⟩ := lies.covered stays closes
    exact ⟨injected, base, below, stays, low, _ :: above, congrArg (_ :: ·) under,
      List.forall_mem_cons.mpr ⟨top, on⟩⟩
  pop := fun ⟨injected, base, below, stays, low, lies⟩ closes =>
    ⟨injected, base, below, stays, low, lies.pop stays closes⟩

theorem retokenize_shallow (limit : Nat) :
    Encloses (fun work => work.tooDeep = false)
      (fun stack => ∃ lower < limit, stack.Under grammar level lower)
      (retokenize limit : Retokenize grammar) := by
  induction limit with
  | zero => rintro _ _ _ _ ⟨lower, none, _⟩; exact absurd none (Nat.not_lt_zero lower)
  | succ limit ih =>
    rintro text onFirstLine start stack ⟨lower, below, under⟩
    simp only [retokenize]
    have entered : (⟨start, stack, 1, none, onFirstLine⟩ : Progress).stack.Under grammar level limit :=
      under.mono (Nat.le_of_lt_succ below)
    exact Lays.bind (Job.read_lays (shallow_lasts _) (under_carries library compiled layered limit) ih
      text _ entered (fun _ _ _ _ => trivial) trivial none _) fun _ _ => Lays.pure _ trivial

theorem tokenize_shallow {depth : Nat} (low : ∀ id, level id ≤ depth) (line : String)
    (prior : Option Stack)
    (earlier : ∀ stack, prior = some stack →
      Returned (fun other => ∃ theme, other = grammar.withTheme theme) stack)
    (checks : Option Nat) (isPacked : Bool) (caches : Caches grammar) :
    ((tokenize depth line prior checks isPacked).run caches).1.tooDeep = false := by
  have rooted : grammar.graph.IsRooted := compiled ▸ RuleGraph.compile_isRooted library
  have admits : grammar.Admits (grammar.startOfLine prior) := by
    cases prior with
    | none => exact Admits.firstStack grammar
    | some stack => exact (earlier stack rfl).admits
  obtain ⟨ready, same⟩ := tokenize_eq depth line prior checks isPacked caches
  rw [same]
  exact (lineJob_lays (shallow_lasts _) (under_carries library compiled layered depth) admits_turns
    (fun _ now => now.under rooted low) (retokenize_shallow library compiled layered depth) line
    prior.isNone checks admits ⟨ready, Emitted.none isPacked, 0, false⟩ rfl).2

omit layered in
/-- Whatever line a line follows and whenever time runs out, its tokens cover it. Once nothing is
nested too deep the line gives the same at every greater depth, and where levels fall from each group
to the rules that read its text, it is enough to have as much depth as there are levels. -/
theorem tokenize_covers (forward : grammar.SearchesForward) (prior : Option Stack)
    (earlier : ∀ stack, prior = some stack →
      Returned (fun other => ∃ theme, other = grammar.withTheme theme) stack)
    (depth : Nat) (line : String) (checks : Option Nat) (caches : Caches grammar) :
    let result := ((tokenize depth line prior checks false).run caches).1
    Covers result.emitted.tokens (Text.byteLength line.toList) ∧
      (result.tooDeep = false → ∀ deeper ≥ depth, ∀ others : Caches grammar,
        ((tokenize deeper line prior checks false).run others).1 = result) ∧
      ∀ level, grammar.graph.Layered level → (∀ id, level id ≤ depth) → result.tooDeep = false := by
  refine ⟨covers_tokenize library grammar compiled forward prior earlier depth line checks caches,
    fun enough deeper more others => ?_, fun level layered low => ?_⟩
  · exact tokenize_deeper more line prior checks false caches others enough
  · exact tokenize_shallow library compiled layered low line prior earlier checks false caches

end

def retokenizingLevel (id : RuleId) : Nat := if id ∈ [4, 5, 8, 9] then 0 else 1

theorem retokenizing_layered : retokenizing.graph.Layered retokenizingLevel :=
  RuleGraph.layered_of_isLayered (by rw [retokenizing_eq]; cbv)

theorem retokenizing_forward : retokenizing.SearchesForward :=
  searchesForward_of_isFixed _ (by rw [retokenizing_eq]; cbv)

theorem tokenize_covers_retokenizing :
    let first := ((tokenize 1 "a" none none false).run (Caches.empty retokenizing)).1
    let result := ((tokenize 1 "<a>" (some first.stack) (some 5) false).run
      (Caches.empty retokenizing)).1
    Covers result.emitted.tokens 3 ∧ result.tooDeep = false := by
  intro first result
  have returned : Returned (fun other => ∃ theme, other = retokenizing.withTheme theme) first.stack :=
    .line ⟨none, rfl⟩ 1 "a" none (fun _ => nofun) none false (Caches.empty retokenizing)
  obtain ⟨covers, -, shallow⟩ := @tokenize_covers retokenizing Library.retokenizing rfl
    retokenizing_forward (some first.stack) (fun _ same => Option.some.inj same ▸ returned) 1 "<a>"
    (some 5) (Caches.empty retokenizing)
  refine ⟨covers, shallow retokenizingLevel retokenizing_layered fun id => ?_⟩
  unfold retokenizingLevel
  split <;> omega

end Grammar

end Highlighter
