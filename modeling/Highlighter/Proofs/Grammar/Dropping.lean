import Highlighter.Proofs.Grammar.Pruning
import Highlighter.Proofs.Grammar.Resolution
import Highlighter.Proofs.Line.Redeclared

set_option autoImplicit false

namespace Highlighter

def Draft.Judged (library : Library) (draft : Draft) : Prop :=
  ∀ place decl found, library.rule? place = some decl → draft.number (.rule place) = some found →
    (found = none ↔ place.isGroup = false ∧ RulePatterns.ofDecl? decl = none)

namespace Draft.Judged

variable {library : Library} {draft : Draft}

theorem empty (library : Library) : Draft.empty.Judged library :=
  fun _ _ _ _ here => by simp [number_empty] at here

theorem enter {site : Site} (judged : draft.Judged library)
    (formed : ∀ place decl, site = .rule place → library.rule? place = some decl →
      ¬ (place.isGroup = false ∧ RulePatterns.ofDecl? decl = none)) :
    (draft.enter site).Judged library := by
  intro place decl found declared here
  rw [number_enter] at here
  split at here
  · rename_i same
    obtain rfl := Option.some.inj here
    exact iff_of_false nofun (formed place decl same.symm declared)
  · exact judged place decl found declared here

theorem dismiss {place : Place} {decl : RuleDecl} (judged : draft.Judged library)
    (declared : library.rule? place = some decl) (plain : place.isGroup = false)
    (malformed : RulePatterns.ofDecl? decl = none) : (draft.dismiss place).Judged library := by
  intro other rule found here number
  rw [number_dismiss] at number
  split at number
  · rename_i same
    obtain rfl := Site.rule.inj same
    obtain rfl := Option.some.inj number
    obtain rfl := Option.some.inj (declared.symm.trans here)
    exact iff_of_true rfl ⟨plain, malformed⟩
  · exact judged other rule found here number

end Draft.Judged

/-- The two tables hold the same, each for its own library. Rules that are given up may have been met
in one library only. -/
structure Draft.Mirrors (gone : Place → Bool) (library : Library) (draft pruned : Draft) : Prop where
  rules : pruned.rules = draft.rules
  gaveUp : pruned.gaveUp = draft.gaveUp
  wentRound : pruned.wentRound = draft.wentRound
  wholes : ∀ scope, pruned.number (.whole scope) = draft.number (.whole scope)
  entered : ∀ place, place.Stays gone → ∀ id,
    pruned.number (.rule (place.shift gone)) = some (some id) ↔
      draft.number (.rule place) = some (some id)
  judged : draft.Judged library
  judgedPruned : pruned.Judged (library.without gone)

namespace Draft.Mirrors

variable {gone : Place → Bool} {library : Library} {draft pruned : Draft}

theorem empty : Draft.empty.Mirrors gone library Draft.empty where
  rules := rfl
  gaveUp := rfl
  wentRound := rfl
  wholes := fun _ => rfl
  entered := fun _ _ _ => by simp [number_empty]
  judged := .empty library
  judgedPruned := .empty _

theorem room (mirrors : draft.Mirrors gone library pruned) :
    draft.room.Mirrors gone library pruned.room where
  rules := congrArg (·.push none) mirrors.rules
  gaveUp := mirrors.gaveUp
  wentRound := mirrors.wentRound
  wholes := mirrors.wholes
  entered := mirrors.entered
  judged := mirrors.judged
  judgedPruned := mirrors.judgedPruned

theorem fill (mirrors : draft.Mirrors gone library pruned) (id : RuleId) (rule : Rule) :
    (draft.fill id rule).Mirrors gone library (pruned.fill id rule) where
  rules := congrArg (·.setIfInBounds id (some rule)) mirrors.rules
  gaveUp := mirrors.gaveUp
  wentRound := mirrors.wentRound
  wholes := mirrors.wholes
  entered := mirrors.entered
  judged := mirrors.judged
  judgedPruned := mirrors.judgedPruned

theorem laid (mirrors : draft.Mirrors gone library pruned) (table : List (String × RuleDecl)) :
    (draft.laid table).Mirrors gone library (pruned.laid table) where
  rules := mirrors.rules
  gaveUp := congrArg (· || _) mirrors.gaveUp
  wentRound := mirrors.wentRound
  wholes := mirrors.wholes
  entered := mirrors.entered
  judged := mirrors.judged
  judgedPruned := mirrors.judgedPruned

theorem turned (mirrors : draft.Mirrors gone library pruned) (round : Bool) :
    (draft.turned round).Mirrors gone library (pruned.turned round) where
  rules := mirrors.rules
  gaveUp := mirrors.gaveUp
  wentRound := congrArg (· || _) mirrors.wentRound
  wholes := mirrors.wholes
  entered := mirrors.entered
  judged := mirrors.judged
  judgedPruned := mirrors.judgedPruned

theorem enterWhole (mirrors : draft.Mirrors gone library pruned) (scope : String) :
    (draft.enter (.whole scope)).Mirrors gone library (pruned.enter (.whole scope)) where
  rules := congrArg (·.push none) mirrors.rules
  gaveUp := mirrors.gaveUp
  wentRound := mirrors.wentRound
  wholes := fun other => by
    rw [number_enter, number_enter, mirrors.rules, mirrors.wholes]
  entered := fun place stays id => by
    rw [number_enter, number_enter, if_neg nofun, if_neg nofun]
    exact mirrors.entered place stays id
  judged := mirrors.judged.enter fun _ _ => nofun
  judgedPruned := mirrors.judgedPruned.enter fun _ _ => nofun

section

variable {place : Place} {decl : RuleDecl} (keyed : library.Keyed) (stays : place.Stays gone)
  (declared : library.rule? place = some decl)

include keyed stays declared

theorem declared_without :
    (library.without gone).rule? (place.shift gone) = some (decl.without gone place) :=
  (Library.rule?_without keyed).mpr ⟨place, decl, declared, stays, rfl, rfl⟩

theorem unmet (mirrors : draft.Mirrors gone library pruned)
    (formed : ¬ (place.isGroup = false ∧ RulePatterns.ofDecl? decl = none))
    (new : draft.number (.rule place) = none) :
    pruned.number (.rule (place.shift gone)) = none := by
  cases here : pruned.number (.rule (place.shift gone)) with
  | none => rfl
  | some found =>
    cases found with
    | none =>
      have judged := (mirrors.judgedPruned _ _ _ (declared_without keyed stays declared) here).mp rfl
      rw [Place.isGroup_shift, RuleDecl.ofDecl?_without] at judged
      exact absurd judged formed
    | some id => simp [(mirrors.entered place stays id).mp here] at new

theorem enterRule (mirrors : draft.Mirrors gone library pruned)
    (formed : ¬ (place.isGroup = false ∧ RulePatterns.ofDecl? decl = none)) :
    (draft.enter (.rule place)).Mirrors gone library (pruned.enter (.rule (place.shift gone))) where
  rules := congrArg (·.push none) mirrors.rules
  gaveUp := mirrors.gaveUp
  wentRound := mirrors.wentRound
  wholes := fun scope => by
    rw [number_enter, number_enter, if_neg nofun, if_neg nofun]
    exact mirrors.wholes scope
  entered := fun other stay id => by
    rw [number_enter, number_enter, mirrors.rules]
    by_cases same : other = place
    · subst same
      rw [if_pos rfl, if_pos rfl]
    · have apart : other.shift gone ≠ place.shift gone := mt (Place.shift_inj stay stays) same
      rw [if_neg (by simpa using apart), if_neg (by simpa using same)]
      exact mirrors.entered other stay id
  judged := by
    refine mirrors.judged.enter fun other rule same here => ?_
    obtain rfl := Site.rule.inj same
    obtain rfl := Option.some.inj (declared.symm.trans here)
    exact formed
  judgedPruned := by
    refine mirrors.judgedPruned.enter fun other rule same here => ?_
    obtain rfl := Site.rule.inj same
    obtain rfl := Option.some.inj ((declared_without keyed stays declared).symm.trans here)
    rw [Place.isGroup_shift, RuleDecl.ofDecl?_without]
    exact formed

theorem dismissPruned (mirrors : draft.Mirrors gone library pruned) (plain : place.isGroup = false)
    (malformed : RulePatterns.ofDecl? decl = none)
    (new : pruned.number (.rule (place.shift gone)) = none) :
    draft.Mirrors gone library (pruned.dismiss (place.shift gone)) where
  rules := mirrors.rules
  gaveUp := mirrors.gaveUp
  wentRound := mirrors.wentRound
  wholes := mirrors.wholes
  entered := fun other stay id => by
    rw [number_dismiss, ← mirrors.entered other stay id]
    split
    · rename_i same
      simp [Site.rule.inj same, new]
    · rfl
  judged := mirrors.judged
  judgedPruned := mirrors.judgedPruned.dismiss (declared_without keyed stays declared)
    ((Place.isGroup_shift place).trans plain) ((RuleDecl.ofDecl?_without place decl).trans malformed)

end

theorem dismiss {place : Place} {decl : RuleDecl} (mirrors : draft.Mirrors gone library pruned)
    (declared : library.rule? place = some decl) (plain : place.isGroup = false)
    (malformed : RulePatterns.ofDecl? decl = none) (new : draft.number (.rule place) = none) :
    (draft.dismiss place).Mirrors gone library pruned where
  rules := mirrors.rules
  gaveUp := mirrors.gaveUp
  wentRound := mirrors.wentRound
  wholes := mirrors.wholes
  entered := fun other stay id => by
    rw [number_dismiss, mirrors.entered other stay id]
    split
    · rename_i same
      simp [Site.rule.inj same, new]
    · rfl
  judged := mirrors.judged.dismiss declared plain malformed
  judgedPruned := mirrors.judgedPruned

end Draft.Mirrors

namespace Library

/-- A rule in a list comes to nothing where it refers to nothing, or to a rule with malformed
patterns, or has malformed patterns itself. A reference that leads round in a circle comes to no end,
which is something else. -/
def ComesToNothing (library : Library) (around : Surroundings) (place : Place) : Prop :=
  ∀ decl, library.rule? place = some decl → library.circles around decl = false ∧
    ∀ task, library.task? around place decl = some task →
      ∃ other rule near, task = .rule other rule near ∧ RulePatterns.ofDecl? rule = none

/-- No group with a list is left with an empty one. -/
def Fed (library : Library) (gone : Place → Bool) : Prop :=
  ∀ place decl, library.rule? place = some decl → place.isGroup = true → decl.nested.getD [] ≠ [] →
    ∃ index < (decl.nested.getD []).length, gone (place.into (.pattern index)) = false

theorem Fed.nested {library : Library} {gone : Place → Bool} (fed : library.Fed gone) {place : Place}
    {decl : RuleDecl} (declared : library.rule? place = some decl) (group : place.isGroup = true)
    (some : (decl.nested.getD []).isEmpty = false) :
    ((decl.without gone place).nested.getD []).isEmpty = false := by
  obtain ⟨index, inside, stays⟩ := fed place decl declared group (by simpa using some)
  have left := RuleDecl.getElem?_listWithout.mpr
    ⟨index, _, List.getElem?_eq_getElem inside, stays, rfl, rfl⟩
  rw [RuleDecl.nested_without, List.isEmpty_eq_false_iff_exists_mem]
  exact ⟨_, List.mem_of_getElem? left⟩

end Library

namespace Compile

variable {gone : Place → Bool} {library : Library} {tasks : List Task} {task : Task}
  {draft last pruned : Draft} {found : List (Option RuleId)} {met : List (Place × Surroundings)}

def Retraced (gone : Place → Bool) (library : Library) (tasks : List Task) (pruned : Draft)
    (found : List (Option RuleId)) (last : Draft) : Prop :=
  ∃ left next seen, Runs (library.without gone) (kept gone tasks) pruned left next seen ∧
    last.Mirrors gone library next ∧ left.reduceOption = found.reduceOption ∧
      ((∀ task ∈ tasks, task.isGone gone = false) → left = found)

theorem isGone_groups {around : Surroundings} {place : Place} {decl : RuleDecl}
    {table : CaptureField × List (String × RuleDecl)} :
    ∀ task ∈ groupTasks around place decl table, task.isGone gone = false := by
  intro task member
  obtain ⟨_, _, rfl⟩ := List.mem_map.mp member
  rfl

namespace Retraced

theorem single {next : Draft} {seen : List (Place × Surroundings)} (stays : task.isGone gone = false)
    (runs : Runs (library.without gone) [task.without gone] pruned found next seen)
    (mirrors : last.Mirrors gone library next) : Retraced gone library [task] pruned found last := by
  refine ⟨found, next, seen, ?_, mirrors, rfl, fun _ => rfl⟩
  rwa [kept_eq_map fun other only => (List.mem_singleton.mp only) ▸ stays]

theorem dropped (isGone : task.isGone gone = true) (mirrors : last.Mirrors gone library pruned) :
    Retraced gone library [task] pruned [none] last := by
  refine ⟨[], pruned, [], ?_, mirrors, rfl, fun stays => ?_⟩
  · simpa [kept, isGone] using Runs.none pruned
  · simp [stays task List.mem_cons_self] at isGone

theorem malformed {place : Place} {decl : RuleDecl} {around : Surroundings}
    (tidy : library.Tidy) (placed : library.Placed (.rule place decl around))
    (stays : place.Stays gone) (mirrors : draft.Mirrors gone library pruned)
    (malformed : RulePatterns.ofDecl? decl = none)
    (absent : ∀ id, draft.number (.rule place) ≠ some (some id)) :
    Retraced gone library [.rule place decl around] pruned [none] draft := by
  obtain ⟨declared, plain, _⟩ := placed
  have still : RulePatterns.ofDecl? (decl.without gone place) = none :=
    (RuleDecl.ofDecl?_without place decl).trans malformed
  cases here : pruned.number (.rule (place.shift gone)) with
  | none =>
    exact single rfl (.malformed here still)
      (mirrors.dismissPruned tidy.keyed stays declared plain malformed here)
  | some number =>
    cases number with
    | none => exact single rfl (.ruleKnown here) mirrors
    | some id => exact absurd ((mirrors.entered place stays id).mp here) (absent id)

theorem cons {middle : Draft} {first : Option RuleId} {others : List (Option RuleId)}
    (one : Retraced gone library [task] pruned [first] middle)
    (further : ∀ next, middle.Mirrors gone library next →
      Retraced gone library tasks next others last) :
    Retraced gone library (task :: tasks) pruned (first :: others) last := by
  obtain ⟨left, next, seen, runs, mirrors, same, all⟩ := one
  obtain ⟨rest, final, more, onward, still, alike, every⟩ := further next mirrors
  cases isGone : task.isGone gone with
  | true =>
    have nothing : kept gone [task] = [] := by simp [kept, isGone]
    rw [nothing] at runs
    cases runs
    refine ⟨rest, final, more, by simpa [kept, isGone] using onward, still, ?_, fun stays => ?_⟩
    · cases first with
      | none => exact alike
      | some id => cases same
    · simp [stays task List.mem_cons_self] at isGone
  | false =>
    obtain rfl := all fun other only => (List.mem_singleton.mp only) ▸ isGone
    rw [kept_eq_map fun other only => (List.mem_singleton.mp only) ▸ isGone] at runs
    refine ⟨first :: rest, final, seen ++ more, ?_, still, ?_, fun stays => ?_⟩
    · simpa [kept, isGone] using runs.cons onward
    · cases first <;> simp [alike]
    · rw [every fun other member => stays other (List.mem_cons_of_mem _ member)]

theorem leads {place : Place} {decl : RuleDecl} {around : Surroundings} {first : Option RuleId}
    (stays : place.isGone gone = false) (there : task.isGone gone = false)
    (moved : (library.without gone).task? (around.without gone) (place.shift gone)
      (decl.without gone place) = some (task.without gone))
    (one : Retraced gone library [task] pruned [first] last) :
    Retraced gone library [.listed place decl around] pruned [first] last := by
  obtain ⟨left, next, seen, runs, mirrors, same, all⟩ := one
  obtain rfl := all fun other only => (List.mem_singleton.mp only) ▸ there
  rw [kept_eq_map fun other only => (List.mem_singleton.mp only) ▸ there] at runs
  exact single stays (.leads moved runs) mirrors

section

variable {place : Place} {decl : RuleDecl} {around : Surroundings}

theorem nested (all : Retraced gone library (nestedTasks around place decl) pruned found last) :
    ∃ left next seen, Runs (library.without gone) (nestedTasks (around.without gone)
      (place.shift gone) (decl.without gone place)) pruned left next seen ∧
        last.Mirrors gone library next ∧ left.reduceOption = found.reduceOption := by
  obtain ⟨left, next, seen, runs, mirrors, same, -⟩ := all
  exact ⟨left, next, seen, nestedTasks_without around place decl ▸ runs, mirrors, same⟩

theorem groups {table kept : CaptureField × List (String × RuleDecl)}
    (moved : kept = RulePatterns.tableAt gone place table)
    (all : Retraced gone library (groupTasks around place decl table) (pruned.laid table.2) found
      last) :
    ∃ next seen, Runs (library.without gone) (groupTasks (around.without gone) (place.shift gone)
      (decl.without gone place) kept) (pruned.laid kept.2) found next seen ∧
        last.Mirrors gone library next := by
  obtain ⟨left, next, seen, runs, mirrors, -, same⟩ := all
  obtain rfl := same isGone_groups
  refine ⟨next, seen, ?_, mirrors⟩
  rw [moved, groupTasks_without, ← kept_eq_map isGone_groups, RulePatterns.tableAt, laid_without]
  exact runs

variable (keyed : library.Keyed) (stays : place.Stays gone)
  (declared : library.rule? place = some decl) (mirrors : draft.Mirrors gone library pruned)
  (new : draft.number (.rule place) = none)

include keyed stays declared mirrors new

theorem rule {patterns : RulePatterns} {one two : Draft} {nested before after : List (Option RuleId)}
    (formed : RulePatterns.ofDecl? decl = some patterns)
    (lists : ∀ pruned, (draft.enter (.rule place)).Mirrors gone library pruned →
      Retraced gone library (nestedTasks around place decl) pruned nested one)
    (first : ∀ pruned, one.Mirrors gone library pruned →
      Retraced gone library (groupTasks around place decl (patterns.firstTable decl))
        (pruned.laid (patterns.firstTable decl).2) before two)
    (second : ∀ pruned, two.Mirrors gone library pruned →
      Retraced gone library (groupTasks around place decl (patterns.secondTable decl))
        (pruned.laid (patterns.secondTable decl).2) after last) :
    Retraced gone library [.rule place decl around] pruned [some draft.rules.size]
      (last.fill draft.rules.size (templates decl (patterns.kind decl nested.reduceOption
        (tabled (patterns.firstTable decl).2 before)
        (tabled (patterns.secondTable decl).2 after)) draft.rules.size)) := by
  have kept : ¬ (place.isGroup = false ∧ RulePatterns.ofDecl? decl = none) := by simp [formed]
  have fresh := mirrors.unmet keyed stays declared kept new
  obtain ⟨left, middle, _, list, inner, same⟩ :=
    (lists _ (mirrors.enterRule keyed stays declared kept)).nested
  obtain ⟨next, _, early, between⟩ :=
    groups (RulePatterns.firstTable_without place decl patterns) (first _ inner)
  obtain ⟨final, _, late, outer⟩ :=
    groups (RulePatterns.secondTable_without place decl patterns) (second _ between)
  have again := Runs.rule fresh ((RuleDecl.ofDecl?_without place decl).trans formed) list early late
  rw [RuleDecl.templates_without, RulePatterns.kind_without, RulePatterns.firstTable_without,
    RulePatterns.secondTable_without, RulePatterns.tableAt, RulePatterns.tableAt, tabled_without,
    tabled_without, mirrors.rules, same] at again
  exact single rfl again (outer.fill _ _)

variable (isGroup : place.isGroup = true)

include isGroup

theorem bareGroup (bare : (decl.nested.getD []).isEmpty = true) :
    Retraced gone library [.group place decl around] pruned [some draft.rules.size]
      ((draft.enter (.rule place)).fill draft.rules.size
        (templates decl (.capturing none) draft.rules.size)) := by
  have kept : ¬ (place.isGroup = false ∧ RulePatterns.ofDecl? decl = none) := by simp [isGroup]
  have fresh := mirrors.unmet keyed stays declared kept new
  have empty : ((decl.without gone place).nested.getD []).isEmpty = true := by
    rw [RuleDecl.nested_without, List.isEmpty_iff.mp bare]
    rfl
  have again : Runs (library.without gone) [(Task.group place decl around).without gone] pruned
      _ _ _ := .bareGroup fresh empty
  rw [RuleDecl.templates_without, mirrors.rules] at again
  exact single rfl again ((mirrors.enterRule keyed stays declared kept).fill _ _)

theorem group {found : List (Option RuleId)} (fed : library.Fed gone)
    (listed : (decl.nested.getD []).isEmpty = false)
    (lists : ∀ pruned, (draft.enter (.rule place)).room.Mirrors gone library pruned →
      Retraced gone library (nestedTasks around place decl) pruned found last) :
    Retraced gone library [.group place decl around] pruned [some draft.rules.size]
      ((last.fill (draft.rules.size + 1)
        (Rule.held (draft.rules.size + 1) found.reduceOption)).fill draft.rules.size
          (templates decl (.capturing (some (draft.rules.size + 1))) draft.rules.size)) := by
  have kept : ¬ (place.isGroup = false ∧ RulePatterns.ofDecl? decl = none) := by simp [isGroup]
  have fresh := mirrors.unmet keyed stays declared kept new
  obtain ⟨left, next, _, list, inner, same⟩ :=
    (lists _ (mirrors.enterRule keyed stays declared kept).room).nested
  have again : Runs (library.without gone) [(Task.group place decl around).without gone] pruned
      _ _ _ := .group fresh (fed.nested declared isGroup listed) list
  rw [RuleDecl.templates_without, mirrors.rules, same] at again
  exact single rfl again ((inner.fill _ _).fill _ _)

end

end Retraced

theorem isGone_task {around : Surroundings} {place : Place} {decl : RuleDecl}
    (leads : library.task? around place decl = some task) : task.isGone gone = false := by
  rcases Library.task?_eq_some leads with ⟨_, rfl⟩ | ⟨_, _, _, rfl⟩ <;> rfl

theorem Runs.without (runs : Runs library tasks draft found last met) (tidy : library.Tidy)
    (fed : library.Fed gone)
    (barren : ∀ place around, (place, around) ∈ met → place.isGone gone = true →
      library.ComesToNothing around place)
    (placed : ∀ task ∈ tasks, library.Placed task)
    (stays : ∀ task ∈ tasks, task.isGone gone = false → task.Stays gone)
    (mirrors : draft.Mirrors gone library pruned) :
    Retraced gone library tasks pruned found last := by
  induction runs generalizing pruned with
  | none draft => exact ⟨[], pruned, [], .none pruned, mirrors, rfl, fun _ => rfl⟩
  | more _ _ first further =>
    obtain ⟨here, others⟩ := List.forall_mem_cons.mp placed
    obtain ⟨stay, rest⟩ := List.forall_mem_cons.mp stays
    refine .cons (first (fun place around member => barren place around
      (List.mem_append_left _ member)) (List.forall_mem_singleton.mpr here)
      (List.forall_mem_singleton.mpr stay) mirrors) fun next mirrors => ?_
    exact further (fun place around member => barren place around
      (List.mem_append_right _ member)) others rest mirrors
  | @nowhere place decl around draft nothing =>
    obtain ⟨declared, _, written⟩ := placed _ List.mem_cons_self
    cases isGone : place.isGone gone with
    | true =>
      -- What refers to nothing leaves no trace.
      obtain ⟨straight, -⟩ := barren place around List.mem_cons_self isGone decl declared
      rw [straight, Draft.turned_false]
      exact .dropped isGone mirrors
    | false =>
      obtain ⟨_, near⟩ := stays _ List.mem_cons_self isGone
      have lost : (library.without gone).task? (around.without gone) (place.shift gone)
          (decl.without gone place) = Option.none := by
        rw [Library.task?_without tidy.keyed written near, nothing, Option.map_none]
      have again : Runs _ _ pruned _ _ _ := .nowhere lost
      rw [Library.circles_without tidy.keyed written near] at again
      exact .single isGone again (mirrors.turned _)
  | @leads place decl around task draft last found met leads runs ih =>
    obtain ⟨declared, plain, written⟩ := placed _ List.mem_cons_self
    have there := Library.placed_task tidy.keyed declared plain written leads
    cases isGone : place.isGone gone with
    | true =>
      obtain ⟨other, rule, near, rfl, malformed⟩ :=
        (barren place around List.mem_cons_self isGone decl declared).2 task leads
      -- The rule with malformed patterns has been met before, or is given up here.
      cases runs with
      | ruleKnown known =>
        obtain rfl := (mirrors.judged other rule _ there.1 known).mpr ⟨there.2.1, malformed⟩
        exact .dropped isGone mirrors
      | malformed new _ =>
        exact .dropped isGone (mirrors.dismiss there.1 there.2.1 malformed new)
      | rule _ formed _ _ _ => simp [malformed] at formed
    | false =>
      obtain ⟨stay, near⟩ := stays _ List.mem_cons_self isGone
      have still := Library.stays_task near stay leads
      have moved := Library.task?_without tidy.keyed written near place decl
      rw [leads, Option.map_some] at moved
      refine .leads isGone (isGone_task leads) moved (ih ?_ (List.forall_mem_singleton.mpr there)
        (List.forall_mem_singleton.mpr fun _ => still) mirrors)
      exact fun place around member => barren place around (List.mem_cons_of_mem _ member)
  | @wholeKnown decl draft found known =>
    exact .single rfl (.wholeKnown ((mirrors.wholes decl.scopeName).trans known)) mirrors
  | @ruleKnown place decl around draft found known =>
    have there := placed _ List.mem_cons_self
    obtain ⟨stay, _⟩ := stays _ List.mem_cons_self rfl
    cases found with
    | none =>
      have judged := (mirrors.judged place decl _ there.1 known).mp rfl
      exact .malformed tidy there stay mirrors judged.2 (by simp [known])
    | some id => exact .single rfl (.ruleKnown ((mirrors.entered place stay id).mpr known)) mirrors
  | @groupKnown place decl around draft found known =>
    obtain ⟨declared, group, _⟩ := placed _ List.mem_cons_self
    obtain ⟨stay, _⟩ := stays _ List.mem_cons_self rfl
    cases found with
    | none =>
      have judged := (mirrors.judged place decl _ declared known).mp rfl
      simp [group] at judged
    | some id => exact .single rfl (.groupKnown ((mirrors.entered place stay id).mpr known)) mirrors
  | @malformed place decl around draft new malformed =>
    have there := placed _ List.mem_cons_self
    obtain ⟨stay, _⟩ := stays _ List.mem_cons_self rfl
    refine .malformed tidy there stay (mirrors.dismiss there.1 there.2.1 malformed new) malformed ?_
    simp [Draft.number_dismiss]
  | @whole decl draft last found met new lists ih =>
    have stored : library.grammar? decl.scopeName = some decl := placed _ List.mem_cons_self
    have entered := mirrors.enterWhole decl.scopeName
    obtain ⟨left, next, seen, runs, still, same, _⟩ :=
      ih barren (Library.placed_whole stored) (Library.stays_whole decl) entered
    rw [← wholeTasks_without] at runs
    have again : Runs (library.without gone) [.whole (decl.without gone)] pruned
        [some pruned.rules.size]
          (next.fill pruned.rules.size (Rule.held pruned.rules.size left.reduceOption)) seen :=
      .whole ((mirrors.wholes decl.scopeName).trans new) runs
    -- Both tables are as long, so the number that is handed out is the same.
    rw [mirrors.rules, same] at again
    exact .single rfl again (still.fill _ _)
  | @rule place decl around patterns draft one two last nested before after met early late new formed
      _ _ _ lists first second =>
    obtain ⟨declared, _, written⟩ := placed _ List.mem_cons_self
    obtain ⟨stay, near⟩ := stays _ List.mem_cons_self rfl
    have lists (pruned : Draft) (inner : (draft.enter (.rule place)).Mirrors gone library pruned) :=
      lists (fun place around member => barren place around (by simp [member]))
        (Library.placed_nested declared written) (Library.stays_nested stay near) inner
    have first (pruned : Draft) (between : one.Mirrors gone library pruned) :=
      first (fun place around member => barren place around (by simp [member]))
        (Library.placed_groups tidy declared written (patterns.firstTable_given decl))
        (fun task member _ => Library.stays_groups stay near _ task member) (between.laid _)
    have second (pruned : Draft) (outer : two.Mirrors gone library pruned) :=
      second (fun place around member => barren place around (by simp [member]))
        (Library.placed_groups tidy declared written (patterns.secondTable_given decl))
        (fun task member _ => Library.stays_groups stay near _ task member) (outer.laid _)
    exact .rule tidy.keyed stay declared mirrors new formed lists first second
  | @bareGroup place decl around draft new bare =>
    obtain ⟨declared, isGroup, _⟩ := placed _ List.mem_cons_self
    obtain ⟨stay, _⟩ := stays _ List.mem_cons_self rfl
    exact .bareGroup tidy.keyed stay declared mirrors new isGroup bare
  | @group place decl around draft last nested met new listed _ ih =>
    obtain ⟨declared, isGroup, written⟩ := placed _ List.mem_cons_self
    obtain ⟨stay, near⟩ := stays _ List.mem_cons_self rfl
    exact .group tidy.keyed stay declared mirrors new isGroup fed listed fun pruned inner =>
      ih barren (Library.placed_nested declared written) (Library.stays_nested stay near) inner

end Compile

namespace Library

variable {gone : Place → Bool} {library : Library}

theorem agenda_stays : ∀ task ∈ library.agenda, task.isGone gone = false ∧ task.Stays gone := by
  intro task member
  rcases List.mem_cons.mp member with rfl | member
  · exact ⟨rfl, trivial⟩
  · obtain ⟨⟨selector, task⟩, listed, rfl⟩ := List.mem_map.mp member
    rcases List.mem_append.mp listed with inside | outside
    · obtain ⟨⟨key, decl⟩, _, same⟩ := List.mem_map.mp inside
      obtain ⟨-, rfl⟩ := Prod.mk.inj same
      exact ⟨rfl, ⟨rfl, trivial⟩, Surroundings.stays_ofGrammar library.base⟩
    · obtain ⟨scope, _, here⟩ := List.mem_filterMap.mp outside
      obtain ⟨decl, _, chosen⟩ := Option.bind_eq_some_iff.mp here
      obtain ⟨_, _, same⟩ := Option.map_eq_some_iff.mp chosen
      obtain ⟨-, rfl⟩ := Prod.mk.inj same
      exact ⟨rfl, trivial⟩

theorem agenda_without (library : Library) :
    (library.without gone).agenda = Compile.kept gone library.agenda := by
  rw [Compile.kept_eq_map fun task member => (agenda_stays task member).1, agenda, agenda,
    allInjecting_without, List.map_map, List.map_cons, List.map_map]
  rfl

theorem injected_without (library : Library) (found : List (Option RuleId)) :
    Compile.injected (library.without gone).allInjecting found =
      Compile.injected library.allInjecting found := by
  rw [Compile.injected, allInjecting_without, List.zip_map_left, List.flatMap_map]
  rfl

end Library

theorem Compile.graph_without {gone : Place → Bool} {library : Library} (tidy : library.Tidy)
    (fed : library.Fed gone)
    (barren : ∀ place around, library.Meets place around → place.isGone gone = true →
      library.ComesToNothing around place) :
    ∃ result last next, (graph library).run Draft.empty = (result, last) ∧
      (graph (library.without gone)).run Draft.empty = (result, next) ∧
        last.Mirrors gone library next := by
  obtain ⟨root, found, last, met, runs, run⟩ := graph_runs tidy
  obtain ⟨first, others, next, seen, again, rerun⟩ := graph_runs (Library.tidy_without tidy)
  obtain ⟨left, final, more, retraced, mirrors, -, all⟩ := runs.without tidy fed
    (fun place around member => barren place around ⟨_, _, _, runs, member⟩)
    (Library.placed_agenda tidy) (fun task member _ => (Library.agenda_stays task member).2) .empty
  obtain rfl := all fun task member => (Library.agenda_stays task member).1
  rw [← Library.agenda_without] at retraced
  obtain ⟨same, rfl, -⟩ := again.unique retraced
  obtain ⟨⟨⟩, rfl⟩ := List.cons.inj same
  rw [Library.injected_without] at rerun
  exact ⟨_, last, next, run, rerun, mirrors⟩

namespace RuleGraph

/-- Rules in lists that come to nothing where the compiler comes upon them, and rules that it does not
come upon at all, can be taken out, together or in part, as long as no group is left with an empty
list. The same table is compiled, if any, and all lines are read alike. -/
theorem compile_without (gone : Place → Bool) (library : Library) (tidy : library.Tidy)
    (fed : library.Fed gone)
    (barren : ∀ place around, library.Meets place around → place.isGone gone = true →
      library.ComesToNothing around place) :
    compile? (library.without gone) = compile? library ∧
      ∀ configuration grammar, Grammar.compile? library configuration = some grammar →
        let pruned := grammar.redeclared (library.without gone).base
        Grammar.compile? (library.without gone) configuration = some pruned ∧
          ∀ theme depth line prior checks isPacked (caches : Caches (grammar.withTheme theme))
            (others : Caches (pruned.withTheme theme)),
            ((Grammar.tokenize depth line prior checks isPacked).run others).1 =
              ((Grammar.tokenize depth line prior checks isPacked).run caches).1 := by
  obtain ⟨⟨root, injections⟩, last, next, run, rerun, mirrors⟩ :=
    Compile.graph_without tidy fed barren
  have compiled : compile? (library.without gone) = compile? library := by
    rw [compile?, compile?, compile, compile, run, rerun]
    dsimp only
    rw [mirrors.rules, mirrors.gaveUp, mirrors.wentRound]
  refine ⟨compiled, fun configuration grammar finished => ?_⟩
  obtain ⟨graph, here, rfl⟩ := Option.map_eq_some_iff.mp finished
  refine ⟨?_, fun theme depth line prior checks isPacked caches others => ?_⟩
  · rw [Grammar.compile?, compiled, here]
    rfl
  · let themed := (Grammar.ofGraph library configuration graph).withTheme theme
    exact @Grammar.tokenize_redeclared themed (library.without gone).base rfl depth line prior checks
      isPacked caches others

end RuleGraph

namespace RuleDecl

def isMalformed (decl : RuleDecl) : Bool :=
  [decl.pattern, decl.opening, decl.closing, decl.continuing].any fun source =>
    source.any fun source => (Pattern.ofSource? source).isNone

end RuleDecl

namespace Library

variable {library : Library} {around : Surroundings} {place : Place} {decl : RuleDecl}

theorem comesToNothing_of_malformed (declared : library.rule? place = some decl)
    (refersNot : decl.reference = none) (malformed : RulePatterns.ofDecl? decl = none) :
    library.ComesToNothing around place := by
  intro other here
  obtain rfl := Option.some.inj (declared.symm.trans here)
  refine ⟨by rw [circles, refersNot, Option.any_none], fun task leads => ?_⟩
  rw [task?, refersNot] at leads
  exact ⟨place, decl, around, (Option.some.inj leads).symm, malformed⟩

theorem comesToNothing_of_lost {text : String} (declared : library.rule? place = some decl)
    (refers : decl.reference = some text) (lost : library.lead around text = .nowhere) :
    library.ComesToNothing around place := by
  intro other here
  obtain rfl := Option.some.inj (declared.symm.trans here)
  refine ⟨by rw [circles, refers, Option.any_some, lost]; rfl, fun task leads => ?_⟩
  simp [task?, refers, destination?, lost, Lead.destination?] at leads

def malformed (library : Library) (place : Place) : Bool :=
  (library.rule? place).any (·.isMalformed)

def isFed (library : Library) (gone : Place → Bool) : Bool :=
  library.places.all fun place =>
    !place.isGroup || (library.rule? place).all fun decl =>
      let count := (decl.nested.getD []).length
      count == 0 || (List.range count).any fun index => !gone (place.into (.pattern index))

theorem fed_of_isFed {gone : Place → Bool} (keyed : library.Keyed)
    (checked : library.isFed gone = true) : library.Fed gone := by
  intro place decl here group some
  have checked := List.all_eq_true.mp checked place (mem_places_of_rule? keyed here)
  simpa [group, here, some] using checked

-- The rule goes by what it matches, and not by how it would begin.
def overruled : Library :=
  ⟨⟨some "t", none, [{ RuleDecl.blank with pattern := some "x", opening := some "(" }], [], [], none,
    [], [], none⟩, Repository.empty⟩

def faulty : Library :=
  let bad := { RuleDecl.blank with pattern := some "(" }
  let group := { RuleDecl.holding ["v", "#list"] with name := some "inner" }
  let grouped := { RuleDecl.word "x" with captures := some [("1", group)] }
  let open? := { RuleDecl.bracketed "u#none" with closing := some "(" }
  let inner : GrammarDecl := ⟨some "u", none, [.referring "u#none", .referring "t"], [], [], none, [],
    [], none⟩
  ⟨⟨some "t", none, [bad, grouped, .referring "v", open?, .referring "u"],
    [("list", .holding ["#list", "v", "u"])], [], none, [], [], none⟩, ⟨[("u", inner)], []⟩⟩

def faults : List Place :=
  [⟨"t", [.pattern 0]⟩, ⟨"t", [.pattern 0, .capture .all "1", .pattern 1]⟩, ⟨"t", [.pattern 2]⟩,
    ⟨"t", [.pattern 3]⟩, ⟨"t", [.pattern 1, .entry "list"]⟩, ⟨"u", [.pattern 0]⟩]

end Library

namespace RuleGraph

open Library

theorem compile_without_overruled :
    overruled.Tidy ∧ overruled.Fed overruled.malformed ∧
      overruled.malformed ⟨"t", [.pattern 0]⟩ = true ∧
        compile? overruled = some (compile overruled) ∧
          (compile overruled).rules.size = 2 ∧
            (compile (overruled.without overruled.malformed)).rules.size = 1 := by
  have tidy : overruled.Tidy := tidy_of_isTidy (by cbv)
  have compiled : compile? overruled = some (compile overruled) :=
    compile?_eq_some_iff.mpr ⟨by cbv, by unfold Straight; cbv, rfl⟩
  exact ⟨tidy, fed_of_isFed tidy.keyed (by cbv), by cbv, compiled, by cbv, by cbv⟩

theorem compile_without_faulty :
    faulty.ruleCount = 16 ∧ (faulty.without (faults.contains ·)).ruleCount = 8 ∧
      compile? faulty = some (compile faulty) ∧ (compile faulty).rules.size = 6 ∧
        compile? (faulty.without (faults.contains ·)) = compile? faulty := by
  have tidy : faulty.Tidy := tidy_of_isTidy (by cbv)
  have fed : faulty.Fed (faults.contains ·) := fed_of_isFed tidy.keyed (by cbv)
  have compiled : compile? faulty = some (compile faulty) :=
    compile?_eq_some_iff.mpr ⟨by cbv, by unfold Straight; cbv, rfl⟩
  refine ⟨by cbv, by cbv, compiled, by cbv,
    (compile_without (faults.contains ·) faulty tidy fed ?_).1⟩
  intro place around _ isGone
  have fault : place ∈ faults := by simpa using Place.gone_of_isGone isGone
  have lost (around : Surroundings) : faulty.lead around "v" = .nowhere := rfl
  have without (around : Surroundings) : faulty.lead around "u#none" = .nowhere := rfl
  simp only [faults, List.mem_cons, List.not_mem_nil, or_false] at fault
  rcases fault with rfl | rfl | rfl | rfl | rfl | rfl
  · exact comesToNothing_of_malformed rfl rfl (by cbv)
  · exact comesToNothing_of_lost rfl rfl (lost around)
  · exact comesToNothing_of_lost rfl rfl (lost around)
  · exact comesToNothing_of_malformed rfl rfl (by cbv)
  · exact comesToNothing_of_lost rfl rfl (lost around)
  · exact comesToNothing_of_lost rfl rfl (without around)

end RuleGraph

end Highlighter
