import Highlighter.Proofs.Grammar.Settling

set_option autoImplicit false

namespace Highlighter

namespace Library

variable {library : Library} {around : Surroundings}

def table? (library : Library) (place : Place) : Option (List (String × RuleDecl)) :=
  (library.grammar? place.grammar).bind (·.table? place.steps)

theorem rule?_entry (library : Library) (place : Place) (name : String) :
    library.rule? (place.into (.entry name)) = (library.table? place).bind (·.lookup name) := by
  cases stored : library.grammar? place.grammar with
  | none => simp [rule?, table?, Place.into, stored]
  | some grammar =>
    simp only [rule?, table?, Place.into, stored, Option.bind_some, GrammarDecl.rule?]
    exact grammar.part?_entry place.steps name

structure Written (library : Library) (around : Surroundings) : Prop where
  stored : library.grammar? around.grammar.scopeName = some around.grammar
  tables : ∀ repository ∈ around.repositories, library.table? repository.1 = some repository.2

namespace Written

theorem ofGrammar {grammar : GrammarDecl}
    (stored : library.grammar? grammar.scopeName = some grammar) :
    library.Written (.ofGrammar grammar) where
  stored := stored
  tables := by
    intro repository only
    obtain rfl := List.mem_singleton.mp only
    exact Option.bind_eq_some_iff.mpr ⟨grammar, stored, rfl⟩

theorem within (written : library.Written around) {place : Place} {rule : RuleDecl}
    (declared : library.rule? place = some rule) : library.Written (around.within place rule) := by
  unfold Surroundings.within
  split
  · rename_i table here
    refine ⟨written.stored, fun repository member => ?_⟩
    rcases List.mem_cons.mp member with rfl | outer
    · obtain ⟨grammar, stored, inside⟩ := Option.bind_eq_some_iff.mp declared
      refine Option.bind_eq_some_iff.mpr ⟨grammar, stored, ?_⟩
      cases steps : place.steps with
      | nil => simp [steps, GrammarDecl.rule?] at inside
      | cons last outer =>
        rw [steps] at inside
        exact Option.bind_eq_some_iff.mpr ⟨rule, inside, here⟩
    · exact written.tables repository outer
  · exact written

theorem lookup? (written : library.Written around) {name : String} {place : Place} {rule : RuleDecl}
    (found : around.lookup? name = some (place, rule)) :
    library.rule? place = some rule ∧ place.isGroup = false := by
  obtain ⟨⟨outer, table⟩, member, here⟩ := List.exists_of_findSome?_eq_some found
  obtain ⟨entry, known, same⟩ := Option.map_eq_some_iff.mp here
  obtain ⟨rfl, rfl⟩ := Prod.mk.inj same
  refine ⟨?_, rfl⟩
  rw [rule?_entry, written.tables _ member]
  exact known

end Written

def Ended (library : Library) (met : Surroundings → Prop) : Destination → Prop
  | .grammar grammar => (∃ around, met around ∧ around.grammar = grammar) ∨
      ∃ scope, library.grammar? scope = some grammar
  | .rule place rule around => met around ∧ rule.reference = none ∧
      ∃ name, around.lookup? name = some (place, rule)

theorem arrival?_ended {met : Surroundings → Prop} (here : met around) {name : String}
    {stride : Stride} (found : arrival? around name = some stride) :
    stride.Meets (library.Ended met) met := by
  obtain ⟨⟨place, rule⟩, looked, rfl⟩ := Option.map_eq_some_iff.mp found
  dsimp only
  split
  · exact here
  · rename_i refers
    exact ⟨here, refers, name, looked⟩

theorem follow_ended {met : Surroundings → Prop}
    (start : ∀ scope grammar, library.grammar? scope = some grammar → met (.ofGrammar grammar))
    (fuel : Nat) (here : met around) {text : String} {destination : Destination}
    (found : library.follow fuel around text = .towards destination) :
    library.Ended met destination := by
  refine follow_meets (fun around text stride here found => ?_) fuel here found
  unfold stride? at found
  split at found
  · obtain rfl := Option.some.inj found
    exact .inl ⟨around, here, rfl⟩
  · obtain rfl := Option.some.inj found
    exact .inr ⟨library.base.scopeName, if_pos rfl⟩
  · exact arrival?_ended here found
  · obtain ⟨grammar, stored, rfl⟩ := Option.map_eq_some_iff.mp found
    exact .inr ⟨_, stored⟩
  · obtain ⟨grammar, stored, found⟩ := Option.bind_eq_some_iff.mp found
    exact arrival?_ended (start _ grammar stored) found

end Library

namespace Compile

inductive Task where
  | listed (place : Place) (decl : RuleDecl) (around : Surroundings)
  | whole (decl : GrammarDecl)
  | rule (place : Place) (decl : RuleDecl) (around : Surroundings)
  | group (place : Place) (decl : RuleDecl) (around : Surroundings)

def listing (around : Surroundings) (items : List (Place × RuleDecl)) : List Task :=
  items.map fun (place, decl) => .listed place decl around

def grouping (around : Surroundings) (place : Place) (field : CaptureField)
    (table : List (String × RuleDecl)) : List Task :=
  (groups table).map fun (_, key, decl) => .group (place.into (.capture field key)) decl around

def nestedTasks (around : Surroundings) (place : Place) (decl : RuleDecl) : List Task :=
  listing (around.within place decl) (numberedPlaces place (decl.nested.getD []))

def groupTasks (around : Surroundings) (place : Place) (decl : RuleDecl)
    (table : CaptureField × List (String × RuleDecl)) : List Task :=
  grouping (around.within place decl) place table.1 table.2

def wholeTasks (decl : GrammarDecl) : List Task :=
  listing (.ofGrammar decl) (numberedPlaces (Surroundings.root decl) decl.patterns)

end Compile

def Library.task? (library : Library) (around : Surroundings) (place : Place) (decl : RuleDecl) :
    Option Compile.Task :=
  match decl.reference with
  | none => some (.rule place decl around)
  | some text =>
    (library.destination? around text).map fun
      | .grammar grammar => .whole grammar
      | .rule place decl around => .rule place decl around

def Library.circles (library : Library) (around : Surroundings) (decl : RuleDecl) : Bool :=
  decl.reference.any fun text => (library.lead around text).isRound

def Library.circlesAt (library : Library) (place : Place) (around : Surroundings) : Bool :=
  (library.rule? place).any (library.circles around)

namespace RuleDecl

def tableOr (decl : RuleDecl) (field : CaptureField) : CaptureField × List (String × RuleDecl) :=
  match decl.captured field with
  | some table => (field, table)
  | none => (.all, decl.captures.getD [])

end RuleDecl

namespace RulePatterns

variable (decl : RuleDecl)

def firstTable : RulePatterns → CaptureField × List (String × RuleDecl)
  | .matching _ => decl.tableOr .all
  | .spanning _ _ | .continuing _ _ => decl.tableOr .opening
  | .absent => (.all, [])

def secondTable : RulePatterns → CaptureField × List (String × RuleDecl)
  | .spanning _ _ => decl.tableOr .closing
  | .continuing _ _ => decl.tableOr .continuing
  | .matching _ | .absent => (.all, [])

def kind (nested : List RuleId) (first second : CaptureRules) : RulePatterns → RuleKind
  | .matching pattern => .matching pattern first
  | .spanning opening closing => .spanning opening first closing second decl.closingLast nested
  | .continuing opening condition => .continuing opening first condition second nested
  | .absent => .holding nested

end RulePatterns

def Draft.laid (draft : Draft) (table : List (String × RuleDecl)) : Draft :=
  { draft with gaveUp := draft.gaveUp || (Compile.tableLength? table).isNone }

def Draft.turned (draft : Draft) (round : Bool) : Draft :=
  { draft with wentRound := draft.wentRound || round }

namespace Compile

def tabled (table : List (String × RuleDecl)) (found : List (Option RuleId)) : CaptureRules :=
  spread ((tableLength? table).getD 0) (((groups table).map (·.1)).zip found.reduceOption)

/-- The tasks are done one after the other, from one draft to the next, each with its number if it has
one. The rules met in lists are given with their surroundings. -/
inductive Runs (library : Library) : List Task → Draft → List (Option RuleId) → Draft →
    List (Place × Surroundings) → Prop
  | none (draft : Draft) : Runs library [] draft [] draft []
  | more {task next : Task} {rest : List Task} {draft middle last : Draft} {found : Option RuleId}
      {others : List (Option RuleId)} {early late : List (Place × Surroundings)}
      (first : Runs library [task] draft [found] middle early)
      (further : Runs library (next :: rest) middle others last late) :
      Runs library (task :: next :: rest) draft (found :: others) last (early ++ late)
  | nowhere {place : Place} {decl : RuleDecl} {around : Surroundings} {draft : Draft}
      (nothing : library.task? around place decl = .none) :
      Runs library [.listed place decl around] draft [.none]
        (draft.turned (library.circles around decl)) [(place, around)]
  | leads {place : Place} {decl : RuleDecl} {around : Surroundings} {task : Task}
      {draft last : Draft} {found : Option RuleId} {met : List (Place × Surroundings)}
      (leads : library.task? around place decl = some task)
      (runs : Runs library [task] draft [found] last met) :
      Runs library [.listed place decl around] draft [found] last ((place, around) :: met)
  | wholeKnown {decl : GrammarDecl} {draft : Draft} {found : Option RuleId}
      (known : draft.number (.whole decl.scopeName) = some found) :
      Runs library [.whole decl] draft [found] draft []
  | ruleKnown {place : Place} {decl : RuleDecl} {around : Surroundings} {draft : Draft}
      {found : Option RuleId} (known : draft.number (.rule place) = some found) :
      Runs library [.rule place decl around] draft [found] draft []
  | groupKnown {place : Place} {decl : RuleDecl} {around : Surroundings} {draft : Draft}
      {found : Option RuleId} (known : draft.number (.rule place) = some found) :
      Runs library [.group place decl around] draft [found] draft []
  | malformed {place : Place} {decl : RuleDecl} {around : Surroundings} {draft : Draft}
      (new : draft.number (.rule place) = .none)
      (malformed : RulePatterns.ofDecl? decl = .none) :
      Runs library [.rule place decl around] draft [.none] (draft.dismiss place) []
  | whole {decl : GrammarDecl} {draft last : Draft} {found : List (Option RuleId)}
      {met : List (Place × Surroundings)} (new : draft.number (.whole decl.scopeName) = .none)
      (lists : Runs library (wholeTasks decl) (draft.enter (.whole decl.scopeName)) found last met) :
      Runs library [.whole decl] draft [some draft.rules.size]
        (last.fill draft.rules.size (Rule.held draft.rules.size found.reduceOption)) met
  | rule {place : Place} {decl : RuleDecl} {around : Surroundings} {patterns : RulePatterns}
      {draft one two last : Draft} {nested before after : List (Option RuleId)}
      {met early late : List (Place × Surroundings)} (new : draft.number (.rule place) = .none)
      (formed : RulePatterns.ofDecl? decl = some patterns)
      (lists : Runs library (nestedTasks around place decl) (draft.enter (.rule place)) nested one
        met)
      (first : Runs library (groupTasks around place decl (patterns.firstTable decl))
        (one.laid (patterns.firstTable decl).2) before two early)
      (second : Runs library (groupTasks around place decl (patterns.secondTable decl))
        (two.laid (patterns.secondTable decl).2) after last late) :
      Runs library [.rule place decl around] draft [some draft.rules.size]
        (last.fill draft.rules.size (templates decl (patterns.kind decl nested.reduceOption
          (tabled (patterns.firstTable decl).2 before) (tabled (patterns.secondTable decl).2 after))
          draft.rules.size))
        (met ++ early ++ late)
  | bareGroup {place : Place} {decl : RuleDecl} {around : Surroundings} {draft : Draft}
      (new : draft.number (.rule place) = .none) (bare : (decl.nested.getD []).isEmpty = true) :
      Runs library [.group place decl around] draft [some draft.rules.size]
        ((draft.enter (.rule place)).fill draft.rules.size
          (templates decl (.capturing .none) draft.rules.size)) []
  | group {place : Place} {decl : RuleDecl} {around : Surroundings} {draft last : Draft}
      {nested : List (Option RuleId)} {met : List (Place × Surroundings)}
      (new : draft.number (.rule place) = .none) (some : (decl.nested.getD []).isEmpty = false)
      (lists : Runs library (nestedTasks around place decl) (draft.enter (.rule place)).room nested
        last met) :
      Runs library [.group place decl around] draft [.some draft.rules.size]
        ((last.fill (draft.rules.size + 1)
          (Rule.held (draft.rules.size + 1) nested.reduceOption)).fill draft.rules.size
            (templates decl (.capturing (.some (draft.rules.size + 1))) draft.rules.size)) met

end Compile

namespace Draft

variable {draft next last : Draft}

theorem number_fill (draft : Draft) (id : RuleId) (rule : Rule) (site : Site) :
    (draft.fill id rule).number site = draft.number site := by
  cases site <;> rfl

theorem number_room (draft : Draft) (site : Site) : draft.room.number site = draft.number site := by
  cases site <;> rfl

theorem number_laid (draft : Draft) (table : List (String × RuleDecl)) (site : Site) :
    (draft.laid table).number site = draft.number site := by
  cases site <;> rfl

theorem turned_false (draft : Draft) : draft.turned false = draft := by
  rw [turned, Bool.or_false]

theorem turned_true (draft : Draft) : draft.turned true = { draft with wentRound := true } := by
  rw [turned, Bool.or_true]

theorem number_turned (draft : Draft) (round : Bool) (site : Site) :
    (draft.turned round).number site = draft.number site := by
  cases site <;> rfl

theorem number_empty (site : Site) : Draft.empty.number site = none := by cases site <;> rfl

section

variable (library : Library) (draft : Draft)

theorem unmet_fill (id : RuleId) (rule : Rule) :
    (draft.fill id rule).unmet library = draft.unmet library := by
  simp only [unmet, number_fill]

theorem unmet_room : draft.room.unmet library = draft.unmet library := by
  simp only [unmet, number_room]

theorem unmet_laid (table : List (String × RuleDecl)) :
    (draft.laid table).unmet library = draft.unmet library := by
  simp only [unmet, number_laid]

theorem unmet_turned (round : Bool) : (draft.turned round).unmet library = draft.unmet library := by
  simp only [unmet, number_turned]

end

theorem size_fill (draft : Draft) (id : RuleId) (rule : Rule) :
    (draft.fill id rule).rules.size = draft.rules.size := by
  rw [fill, Array.size_setIfInBounds]

theorem Sound.empty : Draft.empty.Sound where
  bounded := fun site id here => by simp [number_empty] at here
  distinct := fun site _ id here => by simp [number_empty] at here
  groups := fun place _ here => by simp [number_empty] at here

theorem laid_nil (draft : Draft) : draft.laid [] = draft := by
  have none : (Compile.tableLength? []).isNone = false := by cbv
  rw [laid, none, Bool.or_false]

theorem Sound.laid (sound : draft.Sound) (table : List (String × RuleDecl)) :
    (draft.laid table).Sound :=
  ⟨sound.bounded, sound.distinct, sound.groups⟩

theorem Sound.turned (sound : draft.Sound) (round : Bool) : (draft.turned round).Sound :=
  ⟨sound.bounded, sound.distinct, sound.groups⟩

structure Extends (draft next : Draft) : Prop where
  size : draft.rules.size ≤ next.rules.size
  rules : ∀ id, id < draft.rules.size → next.rules[id]? = draft.rules[id]?
  numbers : ∀ site found, draft.number site = some found → next.number site = some found

namespace Extends

theorem refl (draft : Draft) : Extends draft draft := ⟨le_rfl, fun _ _ => rfl, fun _ _ same => same⟩

theorem trans (first : Extends draft next) (second : Extends next last) : Extends draft last where
  size := first.size.trans second.size
  rules := fun id inside =>
    (second.rules id (inside.trans_le first.size)).trans (first.rules id inside)
  numbers := fun site found same => second.numbers site found (first.numbers site found same)

theorem fill (kept : Extends draft next) {id : RuleId} (new : draft.rules.size ≤ id)
    (rule : Rule) : Extends draft (next.fill id rule) where
  size := by simpa [Draft.fill] using kept.size
  rules := fun other inside => by
    rw [← kept.rules other inside]
    exact Array.getElem?_setIfInBounds_ne (by omega)
  numbers := fun site found same => by rw [number_fill, kept.numbers site found same]

theorem laid (draft : Draft) (table : List (String × RuleDecl)) : Extends draft (draft.laid table) :=
  ⟨le_rfl, fun _ _ => rfl, fun site _ same => by rw [number_laid, same]⟩

theorem turned (draft : Draft) (round : Bool) : Extends draft (draft.turned round) :=
  ⟨le_rfl, fun _ _ => rfl, fun site _ same => by rw [number_turned, same]⟩

theorem room (draft : Draft) : Extends draft draft.room where
  size := by simp [Draft.room]
  rules := fun id inside => by rw [Draft.room, Array.getElem?_push, if_neg (by omega)]
  numbers := fun site _ same => by rw [number_room, same]

theorem enter {site : Site} (new : draft.number site = none) : Extends draft (draft.enter site) where
  size := by simp [rules_enter]
  rules := fun id inside => by rw [rules_enter, Array.getElem?_push, if_neg (by omega)]
  numbers := fun other found same => by
    rw [number_enter, if_neg (by rintro rfl; simp [new] at same), same]

theorem dismiss {place : Place} (new : draft.number (.rule place) = none) :
    Extends draft (draft.dismiss place) where
  size := le_rfl
  rules := fun _ _ => rfl
  numbers := fun site found same => by
    rw [number_dismiss, if_neg (by rintro rfl; simp [new] at same), same]

theorem unmet (kept : Extends draft next) (library : Library) :
    next.unmet library ≤ draft.unmet library := by
  refine List.countP_mono_left fun site _ absent => ?_
  rw [Option.isNone_iff_eq_none] at absent ⊢
  by_contra present
  obtain ⟨found, here⟩ := Option.ne_none_iff_exists'.mp present
  simp [kept.numbers site found here] at absent

end Extends

end Draft

namespace Compile

variable {library : Library} {tasks : List Task} {task : Task} {draft last : Draft}
  {found : List (Option RuleId)} {met : List (Place × Surroundings)}

namespace Runs

theorem cons {middle : Draft} {first : Option RuleId} {early : List (Place × Surroundings)}
    (runs : Runs library [task] draft [first] middle early)
    (further : Runs library tasks middle found last met) :
    Runs library (task :: tasks) draft (first :: found) last (early ++ met) := by
  cases tasks with
  | nil =>
    cases further
    rwa [List.append_nil]
  | cons next rest => exact .more runs further

theorem keeps (runs : Runs library tasks draft found last met) : draft.Extends last := by
  induction runs with
  | none | wholeKnown | ruleKnown | groupKnown => exact .refl _
  | nowhere _ => exact .turned _ _
  | more _ _ first further => exact first.trans further
  | leads _ _ ih => exact ih
  | malformed new _ => exact .dismiss new
  | whole new _ ih => exact ((Draft.Extends.enter new).trans ih).fill le_rfl _
  | rule new _ _ _ _ lists first second =>
    have all := (Draft.Extends.enter new).trans <| lists.trans <| (Draft.Extends.laid _ _).trans <|
      first.trans <| (Draft.Extends.laid _ _).trans second
    exact all.fill le_rfl _
  | bareGroup new _ => exact (Draft.Extends.enter new).fill le_rfl _
  | group new _ _ ih =>
    have all := (Draft.Extends.enter new).trans ((Draft.Extends.room _).trans ih)
    exact (all.fill (Nat.le_succ _) _).fill le_rfl _

theorem unique (runs : Runs library tasks draft found last met) {other : List (Option RuleId)}
    {final : Draft} {seen : List (Place × Surroundings)}
    (also : Runs library tasks draft other final seen) :
    found = other ∧ last = final ∧ met = seen := by
  induction runs generalizing other final seen with
  | none draft => cases also; exact ⟨rfl, rfl, rfl⟩
  | more _ _ first further =>
    cases also with
    | more one two =>
      obtain ⟨same, rfl, rfl⟩ := first one
      obtain ⟨rfl, rfl, rfl⟩ := further two
      exact ⟨by rw [List.singleton_inj.mp same], rfl, rfl⟩
  | nowhere nothing =>
    cases also with
    | nowhere => exact ⟨rfl, rfl, rfl⟩
    | leads leads _ => simp [nothing] at leads
  | leads leads _ ih =>
    cases also with
    | nowhere nothing => simp [leads] at nothing
    | leads same runs =>
      obtain rfl := Option.some.inj (leads.symm.trans same)
      obtain ⟨same, rfl, rfl⟩ := ih runs
      exact ⟨same, rfl, rfl⟩
  | wholeKnown known =>
    cases also with
    | wholeKnown same => exact ⟨congrArg ([·]) (Option.some.inj (known.symm.trans same)), rfl, rfl⟩
    | whole new _ => simp [known] at new
  | ruleKnown known =>
    cases also with
    | ruleKnown same => exact ⟨congrArg ([·]) (Option.some.inj (known.symm.trans same)), rfl, rfl⟩
    | malformed new _ | rule new _ _ _ _ => simp [known] at new
  | groupKnown known =>
    cases also with
    | groupKnown same => exact ⟨congrArg ([·]) (Option.some.inj (known.symm.trans same)), rfl, rfl⟩
    | bareGroup new _ | group new _ _ => simp [known] at new
  | malformed new malformed =>
    cases also with
    | ruleKnown known => simp [new] at known
    | malformed => exact ⟨rfl, rfl, rfl⟩
    | rule _ formed _ _ _ => simp [malformed] at formed
  | whole new _ ih =>
    cases also with
    | wholeKnown known => simp [new] at known
    | whole _ lists =>
      obtain ⟨rfl, rfl, rfl⟩ := ih lists
      exact ⟨rfl, rfl, rfl⟩
  | rule new formed _ _ _ inner one two =>
    cases also with
    | ruleKnown known => simp [new] at known
    | malformed _ malformed => simp [malformed] at formed
    | rule _ same lists first second =>
      obtain rfl := Option.some.inj (formed.symm.trans same)
      obtain ⟨rfl, rfl, rfl⟩ := inner lists
      obtain ⟨rfl, rfl, rfl⟩ := one first
      obtain ⟨rfl, rfl, rfl⟩ := two second
      exact ⟨rfl, rfl, rfl⟩
  | bareGroup new bare =>
    cases also with
    | groupKnown known => simp [new] at known
    | bareGroup => exact ⟨rfl, rfl, rfl⟩
    | group _ some _ => simp [bare] at some
  | group new some _ ih =>
    cases also with
    | groupKnown known => simp [new] at known
    | bareGroup _ bare => simp [bare] at some
    | group _ _ lists =>
      obtain ⟨rfl, rfl, rfl⟩ := ih lists
      exact ⟨rfl, rfl, rfl⟩

end Runs

end Compile

def Library.Placed (library : Library) : Compile.Task → Prop
  | .listed place decl around | .rule place decl around =>
    library.rule? place = some decl ∧ place.isGroup = false ∧ library.Written around
  | .whole decl => library.grammar? decl.scopeName = some decl
  | .group place decl around =>
    library.rule? place = some decl ∧ place.isGroup = true ∧ library.Written around

namespace Library

variable {library : Library} {place : Place} {decl : RuleDecl} {around : Surroundings}

theorem rule?_part (declared : library.rule? place = some decl) (step : PlaceStep) :
    library.rule? (place.into step) = decl.part? step := by
  obtain ⟨grammar, stored, here⟩ := Option.bind_eq_some_iff.mp declared
  have whole : library.grammar? (place.into step).grammar = some grammar := stored
  rw [rule?, whole, Option.bind_some]
  exact GrammarDecl.part?_of_rule? here step

theorem placed_nested (declared : library.rule? place = some decl) (written : library.Written around) :
    ∀ task ∈ Compile.nestedTasks around place decl, library.Placed task := by
  intro task member
  obtain ⟨⟨inner, part⟩, listed, rfl⟩ := List.mem_map.mp member
  obtain ⟨index, here, rfl⟩ := Compile.mem_numberedPlaces.mp listed
  exact ⟨(rule?_part declared (.pattern index)).trans here, rfl, written.within declared⟩

theorem placed_whole {grammar : GrammarDecl}
    (stored : library.grammar? grammar.scopeName = some grammar) :
    ∀ task ∈ Compile.wholeTasks grammar, library.Placed task := by
  intro task member
  obtain ⟨⟨inner, part⟩, listed, rfl⟩ := List.mem_map.mp member
  obtain ⟨index, here, rfl⟩ := Compile.mem_numberedPlaces.mp listed
  exact ⟨Option.bind_eq_some_iff.mpr ⟨grammar, stored, here⟩, rfl, .ofGrammar stored⟩

theorem placed_groups (tidy : library.Tidy) (declared : library.rule? place = some decl)
    (written : library.Written around) {field : CaptureField} {table : List (String × RuleDecl)}
    (given : table = [] ∨ decl.captured field = some table) :
    ∀ task ∈ Compile.groupTasks around place decl (field, table), library.Placed task := by
  intro task member
  obtain ⟨⟨n, key, part⟩, grouped, rfl⟩ := List.mem_map.mp member
  have listed : (key, part) ∈ table := Compile.mem_of_mem_groups grouped
  rcases given with rfl | given
  · exact nomatch listed
  · have distinct := tidy.groups place decl field table declared given
    refine ⟨(rule?_part declared (.capture field key)).trans ?_, rfl, written.within declared⟩
    rw [RuleDecl.part?, given]
    exact Compile.lookup_of_mem distinct listed

theorem task?_eq_some {task : Compile.Task} (leads : library.task? around place decl = some task) :
    (∃ grammar, task = .whole grammar) ∨ ∃ place decl around, task = .rule place decl around := by
  unfold task? at leads
  split at leads
  · exact .inr ⟨_, _, _, (Option.some.inj leads).symm⟩
  · obtain ⟨destination, -, rfl⟩ := Option.map_eq_some_iff.mp leads
    cases destination with
    | grammar grammar => exact .inl ⟨grammar, rfl⟩
    | rule place decl around => exact .inr ⟨place, decl, around, rfl⟩

theorem circles_of_task? {task : Compile.Task} (leads : library.task? around place decl = some task) :
    library.circles around decl = false := by
  unfold task? at leads
  unfold circles
  cases refers : decl.reference with
  | none => rfl
  | some text =>
    rw [refers] at leads
    obtain ⟨destination, found, -⟩ := Option.map_eq_some_iff.mp leads
    rw [Option.any_some, Lead.destination?_eq_some_iff.mp found]
    rfl

theorem placed_task (keyed : library.Keyed) (declared : library.rule? place = some decl)
    (plain : place.isGroup = false) (written : library.Written around) {task : Compile.Task}
    (leads : library.task? around place decl = some task) : library.Placed task := by
  unfold task? at leads
  split at leads
  · obtain rfl := Option.some.inj leads
    exact ⟨declared, plain, written⟩
  · obtain ⟨destination, leading, rfl⟩ := Option.map_eq_some_iff.mp leads
    have found := Lead.destination?_eq_some_iff.mp leading
    have start (scope : String) (grammar : GrammarDecl)
        (stored : library.grammar? scope = some grammar) : library.Written (.ofGrammar grammar) :=
      .ofGrammar (keyed scope grammar stored ▸ stored)
    have ended := follow_ended start _ written found
    cases destination with
    | grammar grammar =>
      rcases ended with ⟨other, written, rfl⟩ | ⟨scope, stored⟩
      · exact written.stored
      · exact (start scope grammar stored).stored
    | rule place decl around =>
      obtain ⟨written, -, name, found⟩ := ended
      obtain ⟨declared, plain⟩ := written.lookup? found
      exact ⟨declared, plain, written⟩

end Library

theorem RuleDecl.tableOr_given (decl : RuleDecl) (field : CaptureField) :
    (decl.tableOr field).2 = [] ∨
      decl.captured (decl.tableOr field).1 = some (decl.tableOr field).2 := by
  unfold tableOr
  cases given : decl.captured field with
  | some table => exact .inr given
  | none =>
    cases all : decl.captures with
    | none => exact .inl rfl
    | some table => exact .inr all

namespace RulePatterns

theorem firstTable_given (patterns : RulePatterns) (decl : RuleDecl) :
    (patterns.firstTable decl).2 = [] ∨
      decl.captured (patterns.firstTable decl).1 = some (patterns.firstTable decl).2 := by
  cases patterns with
  | matching => exact decl.tableOr_given .all
  | spanning | continuing => exact decl.tableOr_given .opening
  | absent => exact .inl rfl

theorem secondTable_given (patterns : RulePatterns) (decl : RuleDecl) :
    (patterns.secondTable decl).2 = [] ∨
      decl.captured (patterns.secondTable decl).1 = some (patterns.secondTable decl).2 := by
  cases patterns with
  | spanning => exact decl.tableOr_given .closing
  | continuing => exact decl.tableOr_given .continuing
  | matching | absent => exact .inl rfl

end RulePatterns

namespace Compile

variable {library : Library} {tasks : List Task} {task : Task} {draft last : Draft}
  {found : List (Option RuleId)} {met : List (Place × Surroundings)}

theorem Runs.sound (runs : Runs library tasks draft found last met) (tidy : library.Tidy)
    (placed : ∀ task ∈ tasks, library.Placed task) (sound : draft.Sound) : last.Sound := by
  induction runs with
  | none | wholeKnown | ruleKnown | groupKnown => exact sound
  | nowhere _ => exact sound.turned _
  | more _ _ first further =>
    obtain ⟨here, others⟩ := List.forall_mem_cons.mp placed
    exact further others (first (List.forall_mem_singleton.mpr here) sound)
  | leads leads _ ih =>
    obtain ⟨declared, plain, written⟩ := placed _ List.mem_cons_self
    exact ih (List.forall_mem_singleton.mpr
      (Library.placed_task tidy.keyed declared plain written leads)) sound
  | malformed new _ =>
    obtain ⟨_, plain, _⟩ := placed _ List.mem_cons_self
    exact sound.dismiss plain
  | whole new _ ih =>
    exact (ih (Library.placed_whole (placed _ List.mem_cons_self)) (sound.enter _)).fill _ _
  | rule new _ _ _ _ lists first second =>
    obtain ⟨declared, _, written⟩ := placed _ List.mem_cons_self
    have inner := lists (Library.placed_nested declared written) (sound.enter _)
    have middle := first (Library.placed_groups tidy declared written
      (RulePatterns.firstTable_given _ _)) (inner.laid _)
    exact (second (Library.placed_groups tidy declared written
      (RulePatterns.secondTable_given _ _)) (middle.laid _)).fill _ _
  | bareGroup => exact (sound.enter _).fill _ _
  | group _ _ _ ih =>
    obtain ⟨declared, _, written⟩ := placed _ List.mem_cons_self
    exact ((ih (Library.placed_nested declared written) (sound.enter _).room).fill _ _).fill _ _

theorem Runs.wentRound_eq (runs : Runs library tasks draft found last met) (tidy : library.Tidy)
    (placed : ∀ task ∈ tasks, library.Placed task) : last.wentRound =
      (draft.wentRound || met.any fun (place, around) => library.circlesAt place around) := by
  have entered (draft : Draft) (site : Site) : (draft.enter site).wentRound = draft.wentRound := by
    cases site <;> rfl
  induction runs with
  | none | wholeKnown | ruleKnown | groupKnown => exact (Bool.or_false _).symm
  | nowhere _ =>
    obtain ⟨declared, _, _⟩ := placed _ List.mem_cons_self
    simp [Draft.turned, Library.circlesAt, declared]
  | more _ _ first further =>
    obtain ⟨here, others⟩ := List.forall_mem_cons.mp placed
    rw [further others, first (List.forall_mem_singleton.mpr here), List.any_append, Bool.or_assoc]
  | leads leads _ ih =>
    obtain ⟨declared, plain, written⟩ := placed _ List.mem_cons_self
    have inner := ih (List.forall_mem_singleton.mpr
      (Library.placed_task tidy.keyed declared plain written leads))
    simp [inner, Library.circlesAt, declared, Library.circles_of_task? leads]
  | malformed => exact (Bool.or_false _).symm
  | whole _ _ ih =>
    have inner := ih (Library.placed_whole (placed _ List.mem_cons_self))
    rw [entered] at inner
    exact inner
  | rule _ _ _ _ _ lists first second =>
    obtain ⟨declared, _, written⟩ := placed _ List.mem_cons_self
    have inner := lists (Library.placed_nested declared written)
    have one := first (Library.placed_groups tidy declared written
      (RulePatterns.firstTable_given _ _))
    have two := second (Library.placed_groups tidy declared written
      (RulePatterns.secondTable_given _ _))
    rw [entered] at inner
    rw [List.any_append, List.any_append, ← Bool.or_assoc, ← Bool.or_assoc, ← inner]
    exact two.trans (congrArg (· || _) one)
  | bareGroup => exact (entered _ _).trans (Bool.or_false _).symm
  | @group place _ _ draft _ _ _ _ _ _ ih =>
    obtain ⟨declared, _, written⟩ := placed _ List.mem_cons_self
    have inner := ih (Library.placed_nested declared written)
    have room : (draft.enter (.rule place)).room.wentRound = draft.wentRound := entered _ _
    rw [room] at inner
    exact inner

theorem Runs.size_le (runs : Runs library tasks draft found last met) (tidy : library.Tidy)
    (placed : ∀ task ∈ tasks, library.Placed task) :
    last.rules.size + 2 * last.unmet library ≤ draft.rules.size + 2 * draft.unmet library := by
  have entered {draft : Draft} {site : Site} (member : site ∈ library.sites)
      (new : draft.number site = .none) :
      (draft.enter site).rules.size + 2 * (draft.enter site).unmet library + 1 ≤
        draft.rules.size + 2 * draft.unmet library := by
    have less := Draft.unmet_enter member new
    rw [Draft.rules_enter, Array.size_push]
    omega
  induction runs with
  | none | wholeKnown | ruleKnown | groupKnown => exact le_rfl
  | nowhere _ =>
    rw [Draft.unmet_turned]
    exact le_rfl
  | more _ _ first further =>
    obtain ⟨here, others⟩ := List.forall_mem_cons.mp placed
    exact (further others).trans (first (List.forall_mem_singleton.mpr here))
  | leads leads _ ih =>
    obtain ⟨declared, plain, written⟩ := placed _ List.mem_cons_self
    exact ih (List.forall_mem_singleton.mpr
      (Library.placed_task tidy.keyed declared plain written leads))
  | malformed new _ =>
    have fewer := (Draft.Extends.dismiss new).unmet library
    exact Nat.add_le_add_left (Nat.mul_le_mul_left 2 fewer) _
  | whole new _ ih =>
    have stored := placed _ List.mem_cons_self
    have inner := ih (Library.placed_whole stored)
    have start := entered (Library.mem_sites_whole stored) new
    rw [Draft.unmet_fill, Draft.size_fill]
    omega
  | rule new _ _ _ _ lists first second =>
    obtain ⟨declared, _, written⟩ := placed _ List.mem_cons_self
    have inner := lists (Library.placed_nested declared written)
    have one := first (Library.placed_groups tidy declared written
      (RulePatterns.firstTable_given _ _))
    have two := second (Library.placed_groups tidy declared written
      (RulePatterns.secondTable_given _ _))
    have start := entered (Library.mem_sites_rule tidy.keyed declared) new
    rw [Draft.unmet_laid] at one two
    rw [Draft.unmet_fill, Draft.size_fill]
    exact two.trans (one.trans (inner.trans (Nat.le_of_succ_le start)))
  | bareGroup new _ =>
    obtain ⟨declared, _, _⟩ := placed _ List.mem_cons_self
    have start := entered (Library.mem_sites_rule tidy.keyed declared) new
    rw [Draft.unmet_fill, Draft.size_fill]
    omega
  | group new _ _ ih =>
    obtain ⟨declared, _, written⟩ := placed _ List.mem_cons_self
    have inner := ih (Library.placed_nested declared written)
    have start := entered (Library.mem_sites_rule tidy.keyed declared) new
    rw [Draft.unmet_room, Draft.room, Array.size_push] at inner
    rw [Draft.unmet_fill, Draft.size_fill, Draft.unmet_fill, Draft.size_fill]
    omega

def perform (library : Library) (fuel : Nat) : Task → Compile (Option RuleId)
  | .listed place decl around =>
    entry library (grammar library fuel) (rule library fuel) around place decl
  | .whole decl => do return some (← grammar library fuel decl)
  | .rule place decl around => rule library fuel place decl around
  | .group place decl around => do return some (← capturing library fuel place decl around)

def performAll (library : Library) (fuel : Nat) : List Task → Compile (List (Option RuleId))
  | [] => return []
  | task :: rest => do
    let found ← perform library fuel task
    return found :: (← performAll library fuel rest)

variable (library) in
theorem each_run (fuel : Nat) (around : Surroundings) (items : List (Place × RuleDecl))
    (draft : Draft) :
    (each (fun (place, decl) =>
      entry library (grammar library fuel) (rule library fuel) around place decl) items).run draft =
      (((performAll library fuel (listing around items)).run draft).1.reduceOption,
        ((performAll library fuel (listing around items)).run draft).2) := by
  induction items generalizing draft with
  | nil => rfl
  | cons item rest ih =>
    let first := (perform library fuel (.listed item.1 item.2 around)).run draft
    have further := ih first.2
    have joined (id : Option RuleId) (others : List (Option RuleId)) :
        id.toList ++ others.reduceOption = (id :: others).reduceOption := by cases id <;> rfl
    have value := (congrArg (first.1.toList ++ ·.1) further).trans (joined _ _)
    have last := congrArg Prod.snd further
    exact Prod.ext value last

variable (library) in
theorem groups_run (fuel : Nat) (around : Surroundings) (place : Place) (field : CaptureField)
    (listed : List (Nat × String × RuleDecl)) (draft : Draft) :
    let tasks := listed.map fun (_, key, decl) =>
      Task.group (place.into (.capture field key)) decl around
    let action (group : Nat × String × RuleDecl) : Compile (Nat × RuleId) := do
      let inner := place.into (.capture field group.2.1)
      return (group.1, ← capturing library fuel inner group.2.2 around)
    (listed.mapM action).run draft =
      ((listed.map (·.1)).zip ((performAll library fuel tasks).run draft).1.reduceOption,
        ((performAll library fuel tasks).run draft).2) := by
  induction listed generalizing draft with
  | nil => rfl
  | cons item rest ih =>
    let first := (capturing library fuel (place.into (.capture field item.2.1)) item.2.2 around).run
      draft
    have further := ih first.2
    have value := congrArg ((item.1, first.1) :: ·.1) further
    have last := congrArg Prod.snd further
    dsimp only
    rw [List.mapM_cons]
    exact Prod.ext value last

theorem captures_run (fuel : Nat) (around : Surroundings) (place : Place)
    (table : CaptureField × List (String × RuleDecl)) (draft : Draft) :
    let tasks := grouping around place table.1 table.2
    (captures (fun place decl => capturing library fuel place decl around) place table.1
      (some table.2)).run draft =
      (tabled table.2 ((performAll library fuel tasks).run (draft.laid table.2)).1,
        ((performAll library fuel tasks).run (draft.laid table.2)).2) := by
  have run := groups_run library fuel around place table.1 (groups table.2) (draft.laid table.2)
  have value := congrArg (spread ((tableLength? table.2).getD 0) ·.1) run
  have last := congrArg Prod.snd run
  exact Prod.ext value last

theorem captures_nil (capture : Place → RuleDecl → Compile RuleId) (place : Place)
    (field : CaptureField) : captures capture place field (some []) = pure [] := by
  have none : groups [] = [] := by cbv
  have bare : spread ((tableLength? []).getD 0) [] = [] := by cbv
  unfold captures
  rw [Option.getD_some, none, List.mapM_nil]
  funext draft
  exact Prod.ext bare draft.laid_nil

theorem kindOf_eq (capture : Place → RuleDecl → Compile RuleId) (place : Place) (decl : RuleDecl)
    (nested : List RuleId) (patterns : RulePatterns) :
    kindOf capture place decl nested patterns = do
      let first ← captures capture place (patterns.firstTable decl).1
        (some (patterns.firstTable decl).2)
      let second ← captures capture place (patterns.secondTable decl).1
        (some (patterns.secondTable decl).2)
      return patterns.kind decl nested first second := by
  have own (field : CaptureField) : capturesOr capture place decl field (decl.captured field) =
      captures capture place (decl.tableOr field).1 (some (decl.tableOr field).2) := by
    unfold capturesOr RuleDecl.tableOr
    cases decl.captured field with
    | some table => rfl
    | none => cases decl.captures <;> rfl
  cases patterns with
  | matching pattern =>
    have all : captures capture place .all decl.captures =
        captures capture place (decl.tableOr .all).1 (some (decl.tableOr .all).2) := by
      unfold RuleDecl.tableOr RuleDecl.captured
      cases decl.captures <;> rfl
    unfold kindOf
    simp only [RulePatterns.firstTable, RulePatterns.secondTable, captures_nil, pure_bind]
    rw [all]
    rfl
  | spanning opening closing =>
    unfold kindOf
    rw [show decl.openingCaptures = decl.captured .opening from rfl, own,
      show decl.closingCaptures = decl.captured .closing from rfl, own]
    rfl
  | continuing opening condition =>
    unfold kindOf
    rw [show decl.openingCaptures = decl.captured .opening from rfl, own,
      show decl.continuingCaptures = decl.captured .continuing from rfl, own]
    rfl
  | absent =>
    unfold kindOf
    simp only [RulePatterns.firstTable, RulePatterns.secondTable, captures_nil, pure_bind]
    rfl

theorem entering_run (site : Site) (body : Compile (RuleId → Rule)) (draft : Draft) :
    (entering site body).run draft = (draft.rules.size,
      (body.run (draft.enter site)).2.fill draft.rules.size
        ((body.run (draft.enter site)).1 draft.rules.size)) := rfl

theorem holding_run (nested : Compile (List RuleId)) (draft : Draft) :
    (holding nested).run draft = (draft.rules.size,
      (nested.run draft.room).2.fill draft.rules.size
        (Rule.held draft.rules.size (nested.run draft.room).1)) := rfl

/-- With enough fuel for every site that has not been reached, the compiler runs as a derivation
says. -/
def Performs (library : Library) (fuel : Nat) (task : Task) : Prop :=
  ∀ draft : Draft, library.Placed task → draft.Sound → draft.unmet library < fuel →
    ∃ met, Runs library [task] draft [((perform library fuel task).run draft).1]
      ((perform library fuel task).run draft).2 met

section

variable {fuel : Nat} (tidy : library.Tidy) (performs : ∀ task, Performs library fuel task)

include tidy performs

theorem performAll_runs (placed : ∀ task ∈ tasks, library.Placed task) (sound : draft.Sound)
    (enough : draft.unmet library < fuel) :
    ∃ met, Runs library tasks draft ((performAll library fuel tasks).run draft).1
      ((performAll library fuel tasks).run draft).2 met := by
  induction tasks generalizing draft with
  | nil => exact ⟨[], .none draft⟩
  | cons task rest ih =>
    obtain ⟨here, others⟩ := List.forall_mem_cons.mp placed
    obtain ⟨early, first⟩ := performs task draft here sound enough
    obtain ⟨late, further⟩ := ih others
      (first.sound tidy (List.forall_mem_singleton.mpr here) sound)
      ((first.keeps.unmet library).trans_lt enough)
    exact ⟨_, first.cons further⟩

theorem performs_whole (decl : GrammarDecl) : Performs library (fuel + 1) (.whole decl) := by
  intro draft stored sound enough
  have run := congrArg (fun r => (some r.1, r.2)) (grammar_run library fuel decl draft)
  change (perform library (fuel + 1) (.whole decl)).run draft = _ at run
  cases found : draft.wholes.lookup decl.scopeName with
  | some id =>
    simp only [found] at run
    rw [run]
    exact ⟨[], .wholeKnown (by simp [Draft.number, found])⟩
  | none =>
    simp only [found] at run
    have new : draft.number (.whole decl.scopeName) = none := by simp [Draft.number, found]
    have less := Draft.unmet_enter (Library.mem_sites_whole stored) new
    obtain ⟨met, lists⟩ := performAll_runs tidy performs (Library.placed_whole stored)
      (sound.enter (.whole decl.scopeName)) (by omega)
    have each := each_run library fuel (.ofGrammar decl)
      (numberedPlaces (Surroundings.root decl) decl.patterns) (draft.enter (.whole decl.scopeName))
    have filled := congrArg (fun r => (some draft.rules.size,
      r.2.fill draft.rules.size (Rule.held draft.rules.size r.1))) each
    rw [run.trans filled]
    exact ⟨met, .whole new lists⟩

theorem performs_rule (place : Place) (decl : RuleDecl) (around : Surroundings) :
    Performs library (fuel + 1) (.rule place decl around) := by
  rintro draft ⟨declared, plain, written⟩ sound enough
  have run := rule_run library fuel place decl around draft
  change (perform library (fuel + 1) (.rule place decl around)).run draft = _ at run
  cases found : draft.numbered.lookup place with
  | some known =>
    simp only [found] at run
    rw [run]
    exact ⟨[], .ruleKnown found⟩
  | none =>
    have new : draft.number (.rule place) = none := found
    cases formed : RulePatterns.ofDecl? decl with
    | none =>
      simp only [found, formed] at run
      rw [run]
      exact ⟨[], .malformed new formed⟩
    | some patterns =>
      simp only [found, formed, kindOf_eq] at run
      have less := Draft.unmet_enter (Library.mem_sites_rule tidy.keyed declared) new
      have inside := sound.enter (.rule place)
      have listing := Library.placed_nested declared written
      have firsts := Library.placed_groups tidy declared written (patterns.firstTable_given decl)
      have seconds := Library.placed_groups tidy declared written (patterns.secondTable_given decl)
      -- The list, then one table of groups and the other.
      obtain ⟨met, lists⟩ := performAll_runs tidy performs listing inside (by omega)
      have below := (lists.keeps.unmet library).trans_lt (by omega : _ < fuel)
      have middle := lists.sound tidy listing inside
      obtain ⟨early, first⟩ := performAll_runs tidy performs firsts
        (middle.laid (patterns.firstTable decl).2)
        (((Draft.Extends.laid _ _).unmet library).trans_lt below)
      have below := (first.keeps.unmet library).trans_lt
        (((Draft.Extends.laid _ _).unmet library).trans_lt below)
      obtain ⟨late, second⟩ := performAll_runs tidy performs seconds
        ((first.sound tidy firsts (middle.laid _)).laid (patterns.secondTable decl).2)
        (((Draft.Extends.laid _ _).unmet library).trans_lt below)
      have inner := each_run library fuel (around.within place decl)
        (numberedPlaces place (decl.nested.getD [])) (draft.enter (.rule place))
      simp only [StateT.run_bind, entering_run, inner, captures_run] at run
      rw [run]
      exact ⟨_, .rule new formed lists first second⟩

theorem performs_group (place : Place) (decl : RuleDecl) (around : Surroundings) :
    Performs library (fuel + 1) (.group place decl around) := by
  rintro draft ⟨declared, group, written⟩ sound enough
  have run := congrArg (fun r => (some r.1, r.2)) (capturing_run library fuel place decl around draft)
  change (perform library (fuel + 1) (.group place decl around)).run draft = _ at run
  cases found : draft.numbered.lookup place with
  | some known =>
    cases known with
    | none => exact absurd found (sound.groups place group)
    | some id =>
      simp only [found] at run
      rw [run]
      exact ⟨[], .groupKnown found⟩
  | none =>
    have new : draft.number (.rule place) = none := found
    simp only [found] at run
    have less := Draft.unmet_enter (Library.mem_sites_rule tidy.keyed declared) new
    cases bare : (decl.nested.getD []).isEmpty with
    | true =>
      simp only [bare] at run
      rw [run]
      exact ⟨[], .bareGroup new bare⟩
    | false =>
      simp only [bare] at run
      have listing := Library.placed_nested declared written
      have inside := (sound.enter (.rule place)).room
      obtain ⟨met, lists⟩ := performAll_runs tidy performs listing inside
        (((Draft.Extends.room _).unmet library).trans_lt (by omega))
      have inner := each_run library fuel (around.within place decl)
        (numberedPlaces place (decl.nested.getD [])) (draft.enter (.rule place)).room
      simp only [Bool.false_eq_true, if_false, StateT.run_bind, entering_run, holding_run, inner]
        at run
      rw [run]
      have size : (draft.enter (.rule place)).rules.size = draft.rules.size + 1 := by
        rw [Draft.rules_enter, Array.size_push]
      have whole := Runs.group new bare lists
      rw [← size] at whole
      exact ⟨_, whole⟩

end

theorem performs_listed {fuel : Nat} (keyed : library.Keyed)
    (wholes : ∀ decl, Performs library fuel (.whole decl))
    (rules : ∀ place decl around, Performs library fuel (.rule place decl around))
    (place : Place) (decl : RuleDecl) (around : Surroundings) :
    Performs library fuel (.listed place decl around) := by
  rintro draft ⟨declared, plain, written⟩ sound enough
  have run : (perform library fuel (.listed place decl around)).run draft =
      match library.task? around place decl with
      | some task => (perform library fuel task).run draft
      | none => (none, draft.turned (library.circles around decl)) := by
    simp only [perform, entry, Library.task?, Library.circles, Library.destination?]
    cases decl.reference with
    | none => rfl
    | some text =>
      dsimp only [Option.any]
      rcases library.lead around text with _ | _ | _ | _
      · exact Prod.ext rfl draft.turned_false.symm
      · exact Prod.ext rfl draft.turned_true.symm
      · rfl
      · rfl
  cases leads : library.task? around place decl with
  | none =>
    rw [leads] at run
    rw [run]
    exact ⟨_, .nowhere leads⟩
  | some task =>
    rw [leads] at run
    have there := Library.placed_task keyed declared plain written leads
    have performs : Performs library fuel task := by
      rcases Library.task?_eq_some leads with ⟨_, rfl⟩ | ⟨_, _, _, rfl⟩
      · exact wholes _
      · exact rules _ _ _
    obtain ⟨met, runs⟩ := performs draft there sound enough
    rw [run]
    exact ⟨_, .leads leads runs⟩

theorem performs (tidy : library.Tidy) (fuel : Nat) (task : Task) : Performs library fuel task := by
  induction fuel generalizing task with
  | zero => exact fun _ _ _ none => absurd none (Nat.not_lt_zero _)
  | succ fuel ih =>
    have wholes := performs_whole tidy ih
    have rules := performs_rule tidy ih
    cases task with
    | listed place decl around => exact performs_listed tidy.keyed wholes rules place decl around
    | whole decl => exact wholes decl
    | rule place decl around => exact rules place decl around
    | group place decl around => exact performs_group tidy ih place decl around

end Compile

namespace Library

def ownInjecting (library : Library) (injections : List (String × RuleDecl)) :
    List (String × Compile.Task) :=
  injections.map fun (selector, decl) => (selector, .listed
    ((Surroundings.root library.base).into (.injection selector)) decl (.ofGrammar library.base))

def foreignInjecting (library : Library) (scopes : List String) : List (String × Compile.Task) :=
  scopes.filterMap fun scope => (library.grammar? scope).bind fun decl =>
    decl.injectionSelector.map fun selector => (selector, .whole decl)

def allInjecting (library : Library) : List (String × Compile.Task) :=
  library.ownInjecting library.base.injections ++ library.foreignInjecting library.injectors

def agenda (library : Library) : List Compile.Task :=
  .whole library.base :: library.allInjecting.map (·.2)

theorem placed_agenda {library : Library} (tidy : library.Tidy) :
    ∀ task ∈ library.agenda, library.Placed task := by
  have own : library.Written (.ofGrammar library.base) := .ofGrammar (if_pos rfl)
  intro task member
  rcases List.mem_cons.mp member with rfl | member
  · exact own.stored
  · obtain ⟨⟨selector, task⟩, listed, rfl⟩ := List.mem_map.mp member
    rcases List.mem_append.mp listed with inside | outside
    · obtain ⟨⟨key, decl⟩, here, same⟩ := List.mem_map.mp inside
      obtain ⟨-, rfl⟩ := Prod.mk.inj same
      refine ⟨Option.bind_eq_some_iff.mpr ⟨library.base, own.stored, ?_⟩, rfl, own⟩
      exact Compile.lookup_of_mem tidy.injections here
    · obtain ⟨scope, _, here⟩ := List.mem_filterMap.mp outside
      obtain ⟨decl, stored, chosen⟩ := Option.bind_eq_some_iff.mp here
      obtain ⟨_, _, same⟩ := Option.map_eq_some_iff.mp chosen
      obtain ⟨-, rfl⟩ := Prod.mk.inj same
      show library.grammar? decl.scopeName = some decl
      rw [tidy.keyed scope decl stored]
      exact stored

end Library

namespace Compile

variable {library : Library} {draft : Draft}

def injected (injecting : List (String × Task)) (found : List (Option RuleId)) : List Injection :=
  (injecting.zip found).flatMap fun (entry, id) => id.toList.flatMap (injectionsOf entry.1)

theorem length_performAll (fuel : Nat) (tasks : List Task) (draft : Draft) :
    ((performAll library fuel tasks).run draft).1.length = tasks.length := by
  induction tasks generalizing draft with
  | nil => rfl
  | cons task rest ih => exact congrArg (· + 1) (ih ((perform library fuel task).run draft).2)

variable (library) in
theorem performAll_append_run (fuel : Nat) (one two : List Task) (draft : Draft) :
    (performAll library fuel (one ++ two)).run draft =
      let first := (performAll library fuel one).run draft
      let second := (performAll library fuel two).run first.2
      (first.1 ++ second.1, second.2) := by
  induction one generalizing draft with
  | nil => rfl
  | cons task rest ih =>
    have further := ih ((perform library fuel task).run draft).2
    exact congrArg (fun r => (((perform library fuel task).run draft).1 :: r.1, r.2)) further

theorem injections_toList (selector : String) (id : Option RuleId) : (match id with
    | some id => injectionsOf selector id
    | none => []) = id.toList.flatMap (injectionsOf selector) := by
  cases id <;> simp

variable (library) in
theorem ownInjections_run (injections : List (String × RuleDecl)) (draft : Draft) :
    let entries := library.ownInjecting injections
    let run := (performAll library (fuel library) (entries.map (·.2))).run draft
    (ownInjections library injections).run draft = (injected entries run.1, run.2) := by
  induction injections generalizing draft with
  | nil => rfl
  | cons injection rest ih =>
    obtain ⟨selector, decl⟩ := injection
    let place := (Surroundings.root library.base).into (.injection selector)
    let first := (perform library (fuel library)
      (.listed place decl (.ofGrammar library.base))).run draft
    have further := ih first.2
    have value := congrArg (first.1.toList.flatMap (injectionsOf selector) ++ ·.1) further
    have last := congrArg Prod.snd further
    exact Prod.ext ((congrArg (· ++ _) (injections_toList selector first.1)).trans value) last

variable (library) in
theorem foreignInjections_run (scopes : List String) (draft : Draft) :
    let entries := library.foreignInjecting scopes
    let run := (performAll library (fuel library) (entries.map (·.2))).run draft
    (foreignInjections library scopes).run draft = (injected entries run.1, run.2) := by
  induction scopes generalizing draft with
  | nil => rfl
  | cons scope rest ih =>
    dsimp only at ih ⊢
    unfold foreignInjections Library.foreignInjecting
    cases stored : library.grammar? scope with
    | none =>
      simp only [List.filterMap_cons, stored, Option.bind_none]
      exact ih draft
    | some decl =>
      cases chosen : decl.injectionSelector with
      | none =>
        simp only [List.filterMap_cons, stored, Option.bind_some, chosen, Option.map_none]
        exact ih draft
      | some selector =>
        simp only [List.filterMap_cons, stored, Option.bind_some, chosen, Option.map_some]
        let first := (grammar library (fuel library) decl).run draft
        have further := ih first.2
        have value := congrArg (injectionsOf selector first.1 ++ ·.1) further
        have last := congrArg Prod.snd further
        exact Prod.ext (value.trans (congrArg (· ++ _) (List.flatMap_singleton _ _).symm)) last

theorem injected_append {one two : List (String × Task)} {first second : List (Option RuleId)}
    (same : one.length = first.length) :
    injected (one ++ two) (first ++ second) = injected one first ++ injected two second := by
  rw [injected, List.zip_append same, List.flatMap_append]
  rfl

theorem graph_runs (tidy : library.Tidy) :
    ∃ root found last met, Runs library library.agenda Draft.empty (some root :: found) last met ∧
      (graph library).run Draft.empty =
        ((root, byPriority (injected library.allInjecting found)), last) := by
  let fuel := fuel library
  have sound : Draft.empty.Sound := .empty
  obtain ⟨met, runs⟩ := performAll_runs tidy (performs tidy fuel) (Library.placed_agenda tidy) sound
    (Draft.empty.unmet_le library)
  let root := (grammar library fuel library.base).run Draft.empty
  let own := (performAll library fuel
    ((library.ownInjecting library.base.injections).map (·.2))).run root.2
  let foreign := (performAll library fuel
    ((library.foreignInjecting library.injectors).map (·.2))).run own.2
  have all : (performAll library fuel library.agenda).run Draft.empty =
      (some root.1 :: (own.1 ++ foreign.1), foreign.2) := by
    have rest := performAll_append_run library fuel
      ((library.ownInjecting library.base.injections).map (·.2))
      ((library.foreignInjecting library.injectors).map (·.2)) root.2
    unfold Library.agenda Library.allInjecting
    rw [List.map_append]
    exact congrArg (fun r => (some root.1 :: r.1, r.2)) rest
  rw [all] at runs
  refine ⟨root.1, own.1 ++ foreign.1, foreign.2, met, runs, ?_⟩
  have owns := ownInjections_run library library.base.injections root.2
  have others := foreignInjections_run library library.injectors own.2
  have run : (graph library).run Draft.empty =
      let own := (ownInjections library library.base.injections).run root.2
      let foreign := (foreignInjections library library.injectors).run own.2
      ((root.1, byPriority (own.1 ++ foreign.1)), foreign.2) := rfl
  dsimp only at run owns others
  rw [run, owns]
  dsimp only
  rw [others, Library.allInjecting, injected_append (by rw [length_performAll, List.length_map])]

end Compile

/-- The compiler comes upon the rule in a list, with the repositories around it. -/
def Library.Meets (library : Library) (place : Place) (around : Surroundings) : Prop :=
  ∃ found last met, Compile.Runs library library.agenda Draft.empty found last met ∧
    (place, around) ∈ met

theorem Library.straight_iff {library : Library} (tidy : library.Tidy) : library.Straight ↔
    ∀ place around, library.Meets place around → library.circlesAt place around = false := by
  obtain ⟨root, found, last, met, runs, run⟩ := Compile.graph_runs tidy
  have went := runs.wentRound_eq tidy (Library.placed_agenda tidy)
  rw [Straight, run]
  change last.wentRound = false ↔ _
  rw [went, show Draft.empty.wentRound = false from rfl, Bool.false_or, List.any_eq_false]
  constructor
  · rintro straight place around ⟨_, _, _, again, member⟩
    obtain ⟨-, -, rfl⟩ := again.unique runs
    simpa using straight (place, around) member
  · intro straight here member
    simpa using straight here.1 here.2 ⟨_, _, _, runs, member⟩

end Highlighter
