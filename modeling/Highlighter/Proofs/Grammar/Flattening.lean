import Highlighter.Grammar.Rule
import Mathlib

set_option autoImplicit false

namespace Highlighter

namespace Rule

def isTried (rule : Rule) : Bool :=
  match rule.kind with
  | .matching _ _ | .spanning _ _ _ _ _ _ | .continuing _ _ _ _ _ => true
  | .holding _ | .capturing _ => false

end Rule

namespace RuleGraph

variable {graph : RuleGraph} {id other : RuleId} {nested rest pending unmet expansion : List RuleId}

def Tried (graph : RuleGraph) (id : RuleId) : Prop :=
  ∃ rule, graph.rule? id = some rule ∧ rule.isTried = true

def Held (graph : RuleGraph) (id : RuleId) (nested : List RuleId) : Prop :=
  ∃ rule, graph.rule? id = some rule ∧ rule.kind = .holding nested

-- A group's rule, or no rule at all.
def Passed (graph : RuleGraph) (id : RuleId) : Prop :=
  ∀ rule, graph.rule? id = some rule → ∃ inner, rule.kind = .capturing inner

theorem standing (graph : RuleGraph) (id : RuleId) :
    graph.Tried id ∨ (∃ nested, graph.Held id nested) ∨ graph.Passed id := by
  cases here : graph.rule? id with
  | none => exact .inr (.inr fun rule known => by simp [here] at known)
  | some rule =>
    cases kind : rule.kind with
    | matching | spanning | continuing => exact .inl ⟨rule, here, by simp [Rule.isTried, kind]⟩
    | holding nested => exact .inr (.inl ⟨nested, rule, here, kind⟩)
    | capturing inner =>
      refine .inr (.inr fun other known => ⟨inner, ?_⟩)
      obtain rfl := Option.some.inj (known.symm.trans here)
      exact kind

theorem Held.unique (held : graph.Held id nested) (same : graph.Held id rest) : nested = rest := by
  obtain ⟨rule, here, kind⟩ := held
  obtain ⟨other, there, also⟩ := same
  obtain rfl := Option.some.inj (here.symm.trans there)
  exact RuleKind.holding.inj (kind.symm.trans also)

theorem Tried.not_held (tried : graph.Tried id) : ¬ graph.Held id nested := by
  rintro ⟨rule, here, kind⟩
  obtain ⟨other, there, isTried⟩ := tried
  obtain rfl := Option.some.inj (here.symm.trans there)
  simp [Rule.isTried, kind] at isTried

theorem Passed.not_tried (passed : graph.Passed id) : ¬ graph.Tried id := by
  rintro ⟨rule, here, isTried⟩
  obtain ⟨inner, kind⟩ := passed rule here
  simp [Rule.isTried, kind] at isTried

theorem Passed.not_held (passed : graph.Passed id) : ¬ graph.Held id nested := by
  rintro ⟨rule, here, kind⟩
  obtain ⟨inner, also⟩ := passed rule here
  exact nomatch kind.symm.trans also

theorem collect_met (met : id ∉ unmet) :
    graph.collect unmet (id :: rest) = graph.collect unmet rest := by
  rw [collect, dif_neg met]

theorem collect_tried (tried : graph.Tried id) (new : id ∈ unmet) :
    graph.collect unmet (id :: rest) = id :: graph.collect (unmet.erase id) rest := by
  obtain ⟨⟨own, name, contentName, kind⟩, here, isTried⟩ := tried
  rw [collect, dif_pos new, here]
  cases kind with
  | matching | spanning | continuing => rfl
  | holding | capturing => cases isTried

theorem collect_held (held : graph.Held id nested) (new : id ∈ unmet) :
    graph.collect unmet (id :: rest) = graph.collect (unmet.erase id) (nested ++ rest) := by
  obtain ⟨⟨own, name, contentName, kind⟩, here, rfl⟩ := held
  rw [collect, dif_pos new, here]

theorem collect_passed (passed : graph.Passed id) (new : id ∈ unmet) :
    graph.collect unmet (id :: rest) = graph.collect (unmet.erase id) rest := by
  rw [collect, dif_pos new]
  cases here : graph.rule? id with
  | none => rfl
  | some rule =>
    obtain ⟨own, name, contentName, kind⟩ := rule
    obtain ⟨inner, rfl⟩ := passed _ here
    rfl

theorem collect_induction (graph : RuleGraph) {motive : List RuleId → List RuleId → Prop}
    (nil : ∀ unmet, motive unmet [])
    (met : ∀ unmet id rest, id ∉ unmet → motive unmet rest → motive unmet (id :: rest))
    (tried : ∀ unmet id rest, id ∈ unmet → graph.Tried id → motive (unmet.erase id) rest →
      motive unmet (id :: rest))
    (held : ∀ unmet id nested rest, id ∈ unmet → graph.Held id nested →
      motive (unmet.erase id) (nested ++ rest) → motive unmet (id :: rest))
    (passed : ∀ unmet id rest, id ∈ unmet → graph.Passed id → motive (unmet.erase id) rest →
      motive unmet (id :: rest))
    (unmet pending : List RuleId) : motive unmet pending := by
  induction unmet, pending using collect.induct graph with
  | case1 unmet => exact nil unmet
  | case2 unmet id rest new own name contentName nested here ih =>
    exact held unmet id nested rest new ⟨_, here, rfl⟩ ih
  | case3 unmet id rest new own name contentName inner here ih =>
    refine passed unmet id rest new (fun rule known => ⟨inner, ?_⟩) ih
    obtain rfl := Option.some.inj (known.symm.trans here)
    rfl
  | case4 unmet id rest new here ih =>
    exact passed unmet id rest new (fun rule known => by simp [here] at known) ih
  | case5 unmet id rest new rule notHolding notCapturing here ih =>
    refine tried unmet id rest new ⟨rule, here, ?_⟩ ih
    obtain ⟨own, name, contentName, kind⟩ := rule
    cases kind with
    | matching | spanning | continuing => rfl
    | holding nested => exact (notHolding own name contentName nested rfl).elim
    | capturing inner => exact (notCapturing own name contentName inner rfl).elim
  | case6 unmet id rest old ih => exact met unmet id rest old ih

def Holds (graph : RuleGraph) (holder id : RuleId) : Prop :=
  ∃ nested, graph.Held holder nested ∧ id ∈ nested

/-- From the list to the rule there is a way through rules that only hold others. -/
def Leads (graph : RuleGraph) (pending : List RuleId) (id : RuleId) : Prop :=
  ∃ first ∈ pending, Relation.ReflTransGen graph.Holds first id

/-- What a list is when each rule that only holds others is replaced by what it holds. -/
inductive Expands (graph : RuleGraph) : List RuleId → List RuleId → Prop
  | nil : Expands graph [] []
  | tried {id : RuleId} {rest expansion : List RuleId} (here : graph.Tried id)
    (others : Expands graph rest expansion) : Expands graph (id :: rest) (id :: expansion)
  | held {id : RuleId} {nested rest inner expansion : List RuleId} (here : graph.Held id nested)
    (within : Expands graph nested inner) (others : Expands graph rest expansion) :
    Expands graph (id :: rest) (inner ++ expansion)
  | passed {id : RuleId} {rest expansion : List RuleId} (here : graph.Passed id)
    (others : Expands graph rest expansion) : Expands graph (id :: rest) expansion

/-- A way from rule to rule through rules of the list that only hold others. -/
inductive Way (graph : RuleGraph) (unmet : List RuleId) : RuleId → RuleId → Prop
  | here {id : RuleId} (new : id ∈ unmet) : Way graph unmet id id
  | step {id next last : RuleId} (new : id ∈ unmet) (holds : graph.Holds id next)
    (further : Way graph unmet next last) : Way graph unmet id last

namespace Way

theorem first_mem {first last : RuleId} (way : graph.Way unmet first last) : first ∈ unmet := by
  cases way with
  | here new => exact new
  | step new _ _ => exact new

theorem last_mem {first last : RuleId} (way : graph.Way unmet first last) : last ∈ unmet := by
  induction way with
  | here new => exact new
  | step _ _ _ ih => exact ih

theorem mono {larger : List RuleId} (subset : unmet ⊆ larger) {first last : RuleId}
    (way : graph.Way unmet first last) : graph.Way larger first last := by
  induction way with
  | here new => exact .here (subset new)
  | step new holds _ ih => exact .step (subset new) holds ih

theorem avoid (distinct : unmet.Nodup) {first last : RuleId} (way : graph.Way unmet first last)
    (different : last ≠ id) :
    (first ≠ id ∧ graph.Way (unmet.erase id) first last) ∨
      ∃ next, graph.Holds id next ∧ graph.Way (unmet.erase id) next last := by
  induction way with
  | here new => exact .inl ⟨different, .here ((distinct.mem_erase_iff).mpr ⟨different, new⟩)⟩
  | @step start next last new holds _ ih =>
    rcases ih different with ⟨_, way⟩ | passing
    · by_cases same : start = id
      · exact .inr ⟨next, same ▸ holds, way⟩
      · exact .inl ⟨same, .step ((distinct.mem_erase_iff).mpr ⟨same, new⟩) holds way⟩
    · exact .inr passing

theorem leads {first last : RuleId} (way : graph.Way unmet first last) :
    Relation.ReflTransGen graph.Holds first last := by
  induction way with
  | here _ => exact .refl
  | step _ holds _ ih => exact .head holds ih

end Way

def Open (graph : RuleGraph) (unmet pending : List RuleId) (id : RuleId) : Prop :=
  ∃ first ∈ pending, graph.Way unmet first id

theorem open_met (met : id ∉ unmet) :
    graph.Open unmet (id :: rest) other ↔ graph.Open unmet rest other := by
  refine ⟨fun ⟨first, member, way⟩ => ⟨first, ?_, way⟩, fun ⟨first, member, way⟩ =>
    ⟨first, List.mem_cons_of_mem _ member, way⟩⟩
  refine (List.mem_cons.mp member).resolve_left fun same => met ?_
  exact same ▸ way.first_mem

theorem open_cons (distinct : unmet.Nodup) (new : id ∈ unmet) (different : other ≠ id) :
    graph.Open unmet (id :: rest) other ↔ (∃ next, graph.Holds id next ∧
      graph.Way (unmet.erase id) next other) ∨ graph.Open (unmet.erase id) rest other := by
  have larger {first : RuleId} (way : graph.Way (unmet.erase id) first other) :
      graph.Way unmet first other := way.mono List.erase_subset
  constructor
  · rintro ⟨first, member, way⟩
    rcases way.avoid distinct different with ⟨notFirst, way⟩ | passing
    · exact .inr ⟨first, (List.mem_cons.mp member).resolve_left notFirst, way⟩
    · exact .inl passing
  · rintro (⟨next, holds, way⟩ | ⟨first, member, way⟩)
    · exact ⟨id, List.mem_cons_self, .step new holds (larger way)⟩
    · exact ⟨first, List.mem_cons_of_mem _ member, larger way⟩

theorem mem_collect (graph : RuleGraph) (unmet pending : List RuleId) (distinct : unmet.Nodup)
    (other : RuleId) : other ∈ graph.collect unmet pending ↔
      graph.Tried other ∧ graph.Open unmet pending other := by
  induction unmet, pending using collect_induction graph with
  | nil unmet => simp [collect, Open]
  | met unmet id rest met ih => rw [collect_met met, ih distinct, open_met met]
  | tried unmet id rest new here ih =>
    rw [collect_tried here new, List.mem_cons, ih (distinct.erase id)]
    by_cases same : other = id
    · subst same
      exact iff_of_true (.inl rfl) ⟨here, _, List.mem_cons_self, .here new⟩
    · have bare : ¬ ∃ next, graph.Holds id next ∧ graph.Way (unmet.erase id) next other := by
        rintro ⟨_, ⟨_, held, _⟩, _⟩
        exact here.not_held held
      simp only [same, false_or, open_cons distinct new same, bare]
  | held unmet id nested rest new here ih =>
    rw [collect_held here new, ih (distinct.erase id)]
    refine and_congr_right fun tried => ?_
    have different : other ≠ id := fun same => (same ▸ tried).not_held here
    rw [open_cons distinct new different]
    simp only [Open, List.mem_append, or_and_right, exists_or]
    refine or_congr_left (exists_congr fun next => and_congr_left fun _ => ?_)
    constructor
    · exact fun member => ⟨nested, here, member⟩
    · rintro ⟨list, held, member⟩
      exact held.unique here ▸ member
  | passed unmet id rest new here ih =>
    rw [collect_passed here new, ih (distinct.erase id)]
    refine and_congr_right fun tried => ?_
    have different : other ≠ id := fun same => here.not_tried (same ▸ tried)
    have bare : ¬ ∃ next, graph.Holds id next ∧ graph.Way (unmet.erase id) next other := by
      rintro ⟨_, ⟨_, held, _⟩, _⟩
      exact here.not_held held
    simp only [open_cons distinct new different, bare, false_or]

theorem nodup_collect (graph : RuleGraph) (unmet pending : List RuleId) (distinct : unmet.Nodup) :
    (graph.collect unmet pending).Nodup := by
  induction unmet, pending using collect_induction graph with
  | nil unmet => simp [collect]
  | met unmet id rest met ih => simpa only [collect_met met] using ih distinct
  | tried unmet id rest new here ih =>
    rw [collect_tried here new, List.nodup_cons]
    refine ⟨fun again => ?_, ih (distinct.erase id)⟩
    obtain ⟨-, first, -, way⟩ := (mem_collect graph _ _ (distinct.erase id) id).mp again
    exact distinct.not_mem_erase way.last_mem
  | held unmet id nested rest new here ih =>
    simpa only [collect_held here new] using ih (distinct.erase id)
  | passed unmet id rest new here ih =>
    simpa only [collect_passed here new] using ih (distinct.erase id)

theorem leads_cons : graph.Leads (id :: rest) other ↔
    Relation.ReflTransGen graph.Holds id other ∨ graph.Leads rest other := by
  simp [Leads]

theorem leads_of_holds (tried : graph.Leads pending id) (holds : graph.Holds id other) :
    graph.Leads pending other := by
  obtain ⟨first, member, way⟩ := tried
  exact ⟨first, member, way.tail holds⟩

theorem Held.leads (held : graph.Held id nested) :
    Relation.ReflTransGen graph.Holds id other ↔ other = id ∨ graph.Leads nested other := by
  rw [Relation.ReflTransGen.cases_head_iff]
  refine or_congr eq_comm ⟨?_, fun ⟨next, member, way⟩ => ⟨next, ⟨nested, held, member⟩, way⟩⟩
  rintro ⟨next, ⟨list, same, member⟩, way⟩
  exact ⟨next, same.unique held ▸ member, way⟩

theorem leads_bare (bare : ∀ nested, ¬ graph.Held id nested) :
    Relation.ReflTransGen graph.Holds id other ↔ other = id := by
  rw [Relation.ReflTransGen.cases_head_iff]
  refine ⟨?_, fun same => .inl same.symm⟩
  rintro (same | ⟨_, ⟨nested, held, _⟩, _⟩)
  · exact same.symm
  · exact (bare nested held).elim

namespace Expands

theorem unique {one two : List RuleId} (first : graph.Expands pending one)
    (second : graph.Expands pending two) : one = two := by
  induction first generalizing two with
  | nil => cases second; rfl
  | tried here _ ih =>
    cases second with
    | tried _ others => rw [ih others]
    | held held _ _ => exact (here.not_held held).elim
    | passed passed _ => exact (passed.not_tried here).elim
  | held here _ _ inner ih =>
    cases second with
    | tried tried _ => exact (tried.not_held here).elim
    | held held within others =>
      obtain rfl := held.unique here
      rw [inner within, ih others]
    | passed passed _ => exact (passed.not_held here).elim
  | passed here _ ih =>
    cases second with
    | tried tried _ => exact (here.not_tried tried).elim
    | held held _ _ => exact (here.not_held held).elim
    | passed _ others => exact ih others

theorem mem (expands : graph.Expands pending expansion) :
    other ∈ expansion ↔ graph.Tried other ∧ graph.Leads pending other := by
  induction expands with
  | nil => simp [Leads]
  | tried here _ ih =>
    rw [List.mem_cons, ih, leads_cons, leads_bare fun _ => here.not_held]
    constructor
    · rintro (rfl | ⟨tried, leads⟩)
      · exact ⟨here, .inl rfl⟩
      · exact ⟨tried, .inr leads⟩
    · rintro ⟨tried, rfl | leads⟩
      · exact .inl rfl
      · exact .inr ⟨tried, leads⟩
  | @held id _ _ _ _ here _ _ inner ih =>
    rw [List.mem_append, inner, ih, leads_cons, here.leads, ← and_or_left]
    refine and_congr_right fun tried => ?_
    have different : other ≠ id := fun same => (same ▸ tried).not_held here
    simp only [different, false_or]
  | @passed id _ _ here _ ih =>
    rw [ih, leads_cons, leads_bare fun _ => here.not_held]
    refine and_congr_right fun tried => ?_
    have different : other ≠ id := fun same => here.not_tried (same ▸ tried)
    simp only [different, false_or]

end Expands

def Upward (graph : RuleGraph) (unmet pending : List RuleId) : Prop :=
  ∀ holder id, graph.Leads pending holder → graph.Holds holder id → id ∈ unmet → holder ∈ unmet

def Acyclic (graph : RuleGraph) (pending : List RuleId) : Prop :=
  ∀ holder, graph.Leads pending holder → ¬ Relation.TransGen graph.Holds holder holder

theorem Acyclic.held (acyclic : graph.Acyclic (id :: rest)) (here : graph.Held id nested) :
    graph.Acyclic nested ∧ ¬ graph.Leads nested id := by
  constructor
  · rintro holder ⟨first, member, way⟩
    exact acyclic holder ⟨id, List.mem_cons_self, .head ⟨nested, here, member⟩ way⟩
  · rintro ⟨first, member, way⟩
    exact acyclic id ⟨id, List.mem_cons_self, .refl⟩ (.head' ⟨nested, here, member⟩ way)

theorem Acyclic.tail (acyclic : graph.Acyclic (id :: rest)) : graph.Acyclic rest :=
  fun holder leads => acyclic holder (leads_cons.mpr (.inr leads))

theorem Upward.tail (upward : graph.Upward unmet (id :: rest)) : graph.Upward unmet rest :=
  fun holder id leads => upward holder id (leads_cons.mpr (.inr leads))

theorem Upward.erase (upward : graph.Upward unmet (id :: rest)) (distinct : unmet.Nodup)
    (bare : ∀ nested, ¬ graph.Held id nested) : graph.Upward (unmet.erase id) rest := by
  intro holder other leads holds new
  refine distinct.mem_erase_iff.mpr ⟨?_, upward.tail holder other leads holds
    (List.mem_of_mem_erase new)⟩
  rintro rfl
  obtain ⟨nested, held, -⟩ := holds
  exact bare nested held

theorem Upward.into (upward : graph.Upward unmet (id :: rest)) (distinct : unmet.Nodup)
    (here : graph.Held id nested) (notItself : ¬ graph.Leads nested id) :
    graph.Upward (unmet.erase id) nested := by
  intro holder other leads holds new
  refine distinct.mem_erase_iff.mpr ⟨fun same => notItself (same ▸ leads), upward holder other
    (leads_cons.mpr (.inl (here.leads.mpr (.inr leads)))) holds (List.mem_of_mem_erase new)⟩

theorem Upward.met (upward : graph.Upward unmet (id :: rest)) (met : id ∉ unmet)
    (leads : Relation.ReflTransGen graph.Holds id other) : other ∉ unmet := by
  induction leads with
  | refl => exact met
  | @tail holder other way holds ih =>
    exact fun new => ih (upward holder other (leads_cons.mpr (.inl way)) holds new)

section

variable (distinct : unmet.Nodup)

include distinct

theorem filter_erase {list : List RuleId} (absent : id ∉ list) :
    list.filter (· ∈ unmet.erase id) = list.filter (· ∈ unmet) := by
  refine List.filter_congr fun other member => ?_
  have different : other ≠ id := fun same => absent (same ▸ member)
  simp [distinct.mem_erase_iff, different]

theorem eraseDups_filter_cons {list : List RuleId} (new : id ∈ unmet) :
    ((id :: list).filter (· ∈ unmet)).eraseDups =
      id :: (list.filter (· ∈ unmet.erase id)).eraseDups := by
  rw [List.filter_cons_of_pos (by simpa using new), List.eraseDups_cons, List.filter_filter]
  congr 2
  refine List.filter_congr fun other _ => ?_
  by_cases same : other = id <;> simp [distinct.mem_erase_iff, same]

end

theorem eraseDups_filter_append {left one two : List RuleId}
    (split : ∀ id ∈ two, id ∈ left ↔ id ∈ unmet ∧ id ∉ one) :
    ((one ++ two).filter (· ∈ unmet)).eraseDups =
      (one.filter (· ∈ unmet)).eraseDups ++ (two.filter (· ∈ left)).eraseDups := by
  rw [List.filter_append, List.eraseDups_append, List.removeAll, List.filter_filter]
  congr 2
  refine List.filter_congr fun other member => ?_
  have same := split other member
  by_cases new : other ∈ unmet <;> by_cases early : other ∈ one <;> simp_all

def Leaves (graph : RuleGraph) (unmet pending expansion left : List RuleId) : Prop :=
  left.Nodup ∧ (∀ id, id ∈ left ↔ id ∈ unmet ∧ ¬ graph.Leads pending id) ∧
    ∀ rest, graph.collect unmet (pending ++ rest) =
      (expansion.filter (· ∈ unmet)).eraseDups ++ graph.collect left rest

namespace Leaves

variable {left middle inner : List RuleId}

theorem upward (leaves : graph.Leaves (unmet.erase id) nested inner middle) (distinct : unmet.Nodup)
    (upward : graph.Upward unmet (id :: rest)) (here : graph.Held id nested) :
    graph.Upward middle rest := by
  intro holder other leads holds new
  obtain ⟨-, mem, -⟩ := leaves
  obtain ⟨unmet, notLed⟩ := (mem other).mp new
  refine (mem holder).mpr ⟨distinct.mem_erase_iff.mpr ⟨?_, ?_⟩, fun led => ?_⟩
  · rintro rfl
    obtain ⟨list, held, member⟩ := holds
    exact notLed ⟨other, held.unique here ▸ member, .refl⟩
  · exact upward.tail holder other leads holds (List.mem_of_mem_erase unmet)
  · exact notLed (leads_of_holds led holds)

theorem met (leaves : graph.Leaves unmet rest expansion left)
    (upward : graph.Upward unmet (id :: rest)) (met : id ∉ unmet) (inner : List RuleId)
    (led : ∀ other ∈ inner, Relation.ReflTransGen graph.Holds id other) :
    graph.Leaves unmet (id :: rest) (inner ++ expansion) left := by
  obtain ⟨nodup, mem, goesOn⟩ := leaves
  refine ⟨nodup, fun other => ?_, fun more => ?_⟩
  · rw [mem, leads_cons]
    have old : Relation.ReflTransGen graph.Holds id other → other ∉ unmet := upward.met met
    tauto
  · have none : inner.filter (· ∈ unmet) = [] := List.filter_eq_nil_iff.mpr fun other member => by
      simpa using upward.met met (led other member)
    rw [List.cons_append, collect_met met, goesOn, List.filter_append, none, List.nil_append]

variable (distinct : unmet.Nodup) (new : id ∈ unmet)

include distinct new

theorem tried (leaves : graph.Leaves (unmet.erase id) rest expansion left) (here : graph.Tried id) :
    graph.Leaves unmet (id :: rest) (id :: expansion) left := by
  obtain ⟨nodup, mem, goesOn⟩ := leaves
  refine ⟨nodup, fun other => ?_, fun more => ?_⟩
  · rw [mem, distinct.mem_erase_iff, leads_cons, leads_bare fun _ => here.not_held]
    tauto
  · rw [List.cons_append, collect_tried here new, goesOn, eraseDups_filter_cons distinct new,
      List.cons_append]

theorem passed (leaves : graph.Leaves (unmet.erase id) rest expansion left)
    (here : graph.Passed id) (expands : graph.Expands rest expansion) :
    graph.Leaves unmet (id :: rest) expansion left := by
  obtain ⟨nodup, mem, goesOn⟩ := leaves
  refine ⟨nodup, fun other => ?_, fun more => ?_⟩
  · rw [mem, distinct.mem_erase_iff, leads_cons, leads_bare fun _ => here.not_held]
    tauto
  · have absent : id ∉ expansion := fun member => here.not_tried (expands.mem.mp member).1
    rw [List.cons_append, collect_passed here new, goesOn, filter_erase distinct absent]

theorem held (first : graph.Leaves (unmet.erase id) nested inner middle)
    (here : graph.Held id nested) (within : graph.Expands nested inner)
    (others : graph.Expands rest expansion)
    (second : graph.Leaves middle rest expansion left) :
    graph.Leaves unmet (id :: rest) (inner ++ expansion) left := by
  obtain ⟨-, between, before⟩ := first
  obtain ⟨nodup, mem, after⟩ := second
  refine ⟨nodup, fun other => ?_, fun more => ?_⟩
  · rw [mem, between, distinct.mem_erase_iff, leads_cons, here.leads]
    tauto
  · have absent : id ∉ inner := fun member => (within.mem.mp member).1.not_held here
    have split : ∀ other ∈ expansion, other ∈ middle ↔ other ∈ unmet ∧ other ∉ inner := by
      intro other member
      have tried := (others.mem.mp member).1
      have different : other ≠ id := fun same => (same ▸ tried).not_held here
      rw [between, distinct.mem_erase_iff, within.mem]
      tauto
    rw [eraseDups_filter_append split, List.cons_append, collect_held here new, before, after,
      filter_erase distinct absent, List.append_assoc]

end Leaves

theorem collect_expands (expands : graph.Expands pending expansion) (acyclic : graph.Acyclic pending)
    (distinct : unmet.Nodup) (upward : graph.Upward unmet pending) :
    ∃ left, graph.Leaves unmet pending expansion left := by
  induction expands generalizing unmet with
  | nil => exact ⟨unmet, distinct, by simp [Leads], fun rest => by simp⟩
  | @tried id rest expansion here others ih =>
    by_cases new : id ∈ unmet
    · obtain ⟨left, leaves⟩ := ih acyclic.tail (distinct.erase id)
        (upward.erase distinct fun _ => here.not_held)
      exact ⟨left, leaves.tried distinct new here⟩
    · obtain ⟨left, leaves⟩ := ih acyclic.tail distinct upward.tail
      exact ⟨left, leaves.met upward new [id] fun other member =>
        List.mem_singleton.mp member ▸ .refl⟩
  | @held id nested rest inner expansion here within others inside ih =>
    by_cases new : id ∈ unmet
    · obtain ⟨inwards, notItself⟩ := acyclic.held here
      obtain ⟨middle, first⟩ := inside inwards (distinct.erase id)
        (upward.into distinct here notItself)
      obtain ⟨left, second⟩ := ih acyclic.tail first.1 (first.upward distinct upward here)
      exact ⟨left, first.held distinct new here within others second⟩
    · obtain ⟨left, leaves⟩ := ih acyclic.tail distinct upward.tail
      refine ⟨left, leaves.met upward new inner fun other member => here.leads.mpr (.inr ?_)⟩
      exact (within.mem.mp member).2
  | @passed id rest expansion here others ih =>
    by_cases new : id ∈ unmet
    · obtain ⟨left, leaves⟩ := ih acyclic.tail (distinct.erase id)
        (upward.erase distinct fun _ => here.not_held)
      exact ⟨left, leaves.passed distinct new here others⟩
    · obtain ⟨left, leaves⟩ := ih acyclic.tail distinct upward.tail
      exact ⟨left, leaves.met upward new [] fun _ => nofun⟩

theorem exists_expands (pending : List RuleId) (acyclic : graph.Acyclic pending)
    (unmet : List RuleId) (distinct : unmet.Nodup)
    (enough : ∀ holder nested, graph.Leads pending holder → graph.Held holder nested →
      holder ∈ unmet) : ∃ expansion, graph.Expands pending expansion := by
  match pending with
  | [] => exact ⟨[], .nil⟩
  | id :: rest =>
    obtain ⟨expansion, others⟩ := exists_expands rest acyclic.tail unmet distinct
      fun holder nested leads => enough holder nested (leads_cons.mpr (.inr leads))
    rcases graph.standing id with here | ⟨nested, here⟩ | here
    · exact ⟨_, .tried here others⟩
    · have new : id ∈ unmet := enough id nested (leads_cons.mpr (.inl .refl)) here
      obtain ⟨inwards, notItself⟩ := acyclic.held here
      -- Within the rule it is not met again.
      obtain ⟨inner, within⟩ := exists_expands nested inwards (unmet.erase id) (distinct.erase id)
        fun holder list leads held => distinct.mem_erase_iff.mpr
          ⟨fun same => notItself (same ▸ leads),
            enough holder list (leads_cons.mpr (.inl (here.leads.mpr (.inr leads)))) held⟩
      exact ⟨_, .held here within others⟩
    · exact ⟨_, .passed here others⟩
  termination_by (unmet.length, pending.length)
  decreasing_by
    · exact Prod.Lex.right _ (by simp)
    · exact Prod.Lex.left _ _ (length_erase_lt new)

theorem mem_range_of_rule? {rule : Rule} (here : graph.rule? id = some rule) :
    id ∈ List.range graph.rules.size :=
  List.mem_range.mpr (Array.getElem?_eq_some_iff.mp here).1

theorem Held.mem_range (held : graph.Held id nested) : id ∈ List.range graph.rules.size := by
  obtain ⟨rule, here, -⟩ := held
  exact mem_range_of_rule? here

theorem open_range (tried : graph.Tried id) :
    graph.Open (List.range graph.rules.size) pending id ↔ graph.Leads pending id := by
  obtain ⟨rule, here, -⟩ := tried
  have way {first : RuleId} (leads : Relation.ReflTransGen graph.Holds first id) :
      graph.Way (List.range graph.rules.size) first id := by
    induction leads using Relation.ReflTransGen.head_induction_on with
    | refl => exact .here (mem_range_of_rule? here)
    | head holds _ ih => exact .step holds.choose_spec.1.mem_range holds ih
  exact exists_congr fun first => and_congr_right fun _ => ⟨Way.leads, way⟩

/-- The rules to try within a rule are just those that its nested list leads to, each once; and where
the list leads into no circle, they are the list written out in full, without repetitions. -/
theorem patterns_flat (graph : RuleGraph) (id : RuleId) (rule : Rule)
    (here : graph.rule? id = some rule) :
    (graph.patterns id).Nodup ∧
    (∀ other, other ∈ graph.patterns id ↔ graph.Tried other ∧ graph.Leads rule.nested other) ∧
    (graph.Acyclic rule.nested → ∃ expansion, graph.Expands rule.nested expansion ∧
      graph.patterns id = expansion.eraseDups) := by
  have distinct : (List.range graph.rules.size).Nodup := List.nodup_range
  have flat : graph.patterns id = graph.collect (List.range graph.rules.size) rule.nested := by
    rw [patterns, here]
  rw [flat]
  refine ⟨nodup_collect graph _ _ distinct, fun other => ?members, fun acyclic => ?expansion⟩
  case members =>
    rw [mem_collect graph _ _ distinct]
    exact and_congr_right open_range
  case expansion =>
    obtain ⟨expansion, expands⟩ := exists_expands rule.nested acyclic _ distinct
      fun _ _ _ held => held.mem_range
    obtain ⟨left, -, -, goesOn⟩ := collect_expands expands acyclic distinct
      fun _ _ _ holds _ => holds.choose_spec.1.mem_range
    have all : expansion.filter (· ∈ List.range graph.rules.size) = expansion := by
      refine List.filter_eq_self.mpr fun other member => decide_eq_true ?_
      obtain ⟨rule, here, -⟩ := (expands.mem.mp member).1
      exact mem_range_of_rule? here
    have whole := goesOn []
    rw [List.append_nil, all, collect, List.append_nil] at whole
    exact ⟨expansion, expands, whole⟩

def layered : RuleGraph :=
  let word (id : RuleId) : Rule :=
    ⟨id, none, none, .matching ⟨"x", false, ⟨none, none, none, none⟩⟩ []⟩
  ⟨#[.held 0 [1, 2, 4], .held 1 [4, 5], .held 2 [5, 4, 6], .held 3 [3, 0], word 4, word 5, word 6], 0,
    []⟩

theorem layered_held (held : layered.Held id nested) :
    (id, nested) ∈ [(0, [1, 2, 4]), (1, [4, 5]), (2, [5, 4, 6]), (3, [3, 0])] := by
  obtain ⟨rule, here, kind⟩ := held
  have inside := (Array.getElem?_eq_some_iff.mp here).1
  match id, inside with
  | 0, _ | 1, _ | 2, _ | 3, _ | 4, _ | 5, _ | 6, _ =>
    cases here
    cases kind
    all_goals decide

theorem layered_acyclic : layered.Acyclic [1, 2, 4] := by
  have rises {holder id : Nat} (holds : layered.Holds holder id) (early : holder ≠ 3) :
      holder < id ∧ id ≠ 3 := by
    obtain ⟨nested, held, member⟩ := holds
    have listed := layered_held held
    simp only [List.mem_cons, Prod.mk.injEq, List.not_mem_nil, or_false] at listed
    rcases listed with ⟨rfl, rfl⟩ | ⟨rfl, rfl⟩ | ⟨rfl, rfl⟩ | ⟨rfl, rfl⟩
    case inr.inr.inr => exact (early rfl).elim
    all_goals
      simp only [List.mem_cons, List.not_mem_nil, or_false] at member
      rcases member with rfl | rfl | rfl <;> decide
  have further {first id : Nat} (way : Relation.ReflTransGen layered.Holds first id)
      (early : first ≠ 3) : id ≠ 3 := by
    induction way with
    | refl => exact early
    | tail _ holds ih => exact (rises holds ih).2
  intro (holder : Nat) ⟨first, member, way⟩ around
  have early : first ≠ 3 := fun same => absurd (same ▸ member) (by decide)
  obtain ⟨next, holds, back⟩ := Relation.TransGen.head'_iff.mp around
  have above {first id : Nat} (way : Relation.ReflTransGen layered.Holds first id)
      (early : first ≠ 3) : first ≤ id := by
    induction way with
    | refl => exact le_rfl
    | tail way holds ih => exact ih.trans (rises holds (further way early)).1.le
  obtain ⟨less, other⟩ := rises holds (further way early)
  exact (less.trans_le (above back other)).false

theorem patterns_flat_layered :
    layered.patterns 0 = [4, 5, 6] ∧ (layered.patterns 3).Nodup ∧ 6 ∈ layered.patterns 3 := by
  obtain ⟨-, -, full⟩ := patterns_flat layered 0 (.held 0 [1, 2, 4]) rfl
  obtain ⟨distinct, members, -⟩ := patterns_flat layered 3 (.held 3 [3, 0]) rfl
  have tried (id : RuleId) (large : 4 ≤ id) (small : id ≤ 6) : layered.Tried id := by
    match id with
    | 4 | 5 | 6 => exact ⟨_, rfl, rfl⟩
  have top : layered.Held 0 [1, 2, 4] := ⟨_, rfl, rfl⟩
  have second : layered.Held 2 [5, 4, 6] := ⟨_, rfl, rfl⟩
  refine ⟨?_, distinct, (members 6).mpr ⟨tried 6 (by decide) (by decide), 0, by decide, ?_⟩⟩
  · obtain ⟨expansion, expands, flat⟩ := full layered_acyclic
    have four := tried 4 (by decide) (by decide)
    have five := tried 5 (by decide) (by decide)
    have six := tried 6 (by decide) (by decide)
    have written : layered.Expands [1, 2, 4] ([4, 5] ++ ([5, 4, 6] ++ [4])) :=
      .held ⟨_, rfl, rfl⟩ (.tried four (.tried five .nil)) <|
        .held ⟨_, rfl, rfl⟩ (.tried five (.tried four (.tried six .nil))) (.tried four .nil)
    rw [flat, expands.unique written]
    decide
  · exact .head ⟨_, top, by decide⟩ (.single ⟨_, second, by decide⟩)

end RuleGraph

end Highlighter
