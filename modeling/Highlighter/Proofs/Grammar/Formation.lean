import Highlighter.Proofs.Grammar.Derivation
import Highlighter.Proofs.Grammar.Injections
import Highlighter.Proofs.Grammar.Resolution

set_option autoImplicit false

namespace Highlighter

/-- What there is a rule for: a grammar, a declared rule or group, or the rules within a group. -/
inductive Origin where
  | site (site : Site)
  | holder (place : Place)

def Origin.isListed : Origin → Bool
  | .site (.whole _) => true
  | .site (.rule place) => !place.isGroup
  | .holder _ => false

namespace Library

variable {library : Library} {origins : List Origin}

/-- The number that a task was given is that of what the task is about. A rule in a list has none
where it leads to nothing, and otherwise the number of what it leads to. -/
inductive Given (library : Library) (origins : List Origin) :
    Compile.Task → Option RuleId → Prop
  | nowhere {place : Place} {decl : RuleDecl} {around : Surroundings}
      (nothing : library.task? around place decl = none) :
      Given library origins (.listed place decl around) none
  | leads {place : Place} {decl : RuleDecl} {around : Surroundings} {task : Compile.Task}
      {found : Option RuleId} (leads : library.task? around place decl = some task)
      (given : Given library origins task found) :
      Given library origins (.listed place decl around) found
  | malformed {place : Place} {decl : RuleDecl} {around : Surroundings}
      (malformed : RulePatterns.ofDecl? decl = none) :
      Given library origins (.rule place decl around) none
  | whole {decl : GrammarDecl} {id : RuleId}
      (here : origins[id]? = some (.site (.whole decl.scopeName))) :
      Given library origins (.whole decl) (some id)
  | rule {place : Place} {decl : RuleDecl} {around : Surroundings} {id : RuleId}
      (plain : place.isGroup = false) (here : origins[id]? = some (.site (.rule place))) :
      Given library origins (.rule place decl around) (some id)
  | group {place : Place} {decl : RuleDecl} {around : Surroundings} {id : RuleId}
      (group : place.isGroup = true) (here : origins[id]? = some (.site (.rule place))) :
      Given library origins (.group place decl around) (some id)

inductive Formed (library : Library) (origins : List Origin) : Origin → Rule → Prop
  | whole {decl : GrammarDecl} {nested : List (Option RuleId)} {id : RuleId}
      (stored : library.grammar? decl.scopeName = some decl)
      (lists : List.Forall₂ (library.Given origins) (Compile.wholeTasks decl) nested) :
      Formed library origins (.site (.whole decl.scopeName)) (Rule.held id nested.reduceOption)
  | rule {place : Place} {decl : RuleDecl} {around : Surroundings} {patterns : RulePatterns}
      {nested before after : List (Option RuleId)} {id : RuleId}
      (declared : library.rule? place = some decl) (plain : place.isGroup = false)
      (formed : RulePatterns.ofDecl? decl = some patterns)
      (lists : List.Forall₂ (library.Given origins) (Compile.nestedTasks around place decl) nested)
      (first : List.Forall₂ (library.Given origins)
        (Compile.groupTasks around place decl (patterns.firstTable decl)) before)
      (second : List.Forall₂ (library.Given origins)
        (Compile.groupTasks around place decl (patterns.secondTable decl)) after) :
      Formed library origins (.site (.rule place)) (Compile.templates decl (patterns.kind decl
        nested.reduceOption (Compile.tabled (patterns.firstTable decl).2 before)
          (Compile.tabled (patterns.secondTable decl).2 after)) id)
  | bareGroup {place : Place} {decl : RuleDecl} {id : RuleId}
      (declared : library.rule? place = some decl) (group : place.isGroup = true)
      (bare : (decl.nested.getD []).isEmpty = true) :
      Formed library origins (.site (.rule place)) (Compile.templates decl (.capturing none) id)
  | group {place : Place} {decl : RuleDecl} {inner id : RuleId}
      (declared : library.rule? place = some decl) (group : place.isGroup = true)
      (held : origins[inner]? = some (.holder place)) :
      Formed library origins (.site (.rule place))
        (Compile.templates decl (.capturing (some inner)) id)
  | holder {place : Place} {decl : RuleDecl} {around : Surroundings} {nested : List (Option RuleId)}
      {id : RuleId}
      (declared : library.rule? place = some decl)
      (some : (decl.nested.getD []).isEmpty = false)
      (lists : List.Forall₂ (library.Given origins) (Compile.nestedTasks around place decl) nested) :
      Formed library origins (.holder place) (Rule.held id nested.reduceOption)

theorem further {id : RuleId} {origin : Origin} (more : List Origin)
    (here : origins[id]? = some origin) : (origins ++ more)[id]? = some origin := by
  rw [List.getElem?_append_left (List.getElem?_eq_some_iff.mp here).1, here]

theorem Given.append {task : Compile.Task} {found : Option RuleId}
    (given : library.Given origins task found) (more : List Origin) :
    library.Given (origins ++ more) task found := by
  induction given with
  | nowhere nothing => exact .nowhere nothing
  | leads leads _ ih => exact .leads leads ih
  | malformed malformed => exact .malformed malformed
  | whole here => exact .whole (further more here)
  | rule plain here => exact .rule plain (further more here)
  | group group here => exact .group group (further more here)

theorem Formed.append {origin : Origin} {rule : Rule} (formed : library.Formed origins origin rule)
    (more : List Origin) : library.Formed (origins ++ more) origin rule := by
  have given {tasks : List Compile.Task} {found : List (Option RuleId)}
      (all : List.Forall₂ (library.Given origins) tasks found) :
      List.Forall₂ (library.Given (origins ++ more)) tasks found :=
    all.imp fun _ _ given => given.append more
  cases formed with
  | whole stored lists => exact .whole stored (given lists)
  | rule declared plain formed lists first second =>
    exact .rule declared plain formed (given lists) (given first) (given second)
  | bareGroup declared group bare => exact .bareGroup declared group bare
  | group declared group held => exact .group declared group (further more held)
  | holder declared some lists => exact .holder declared some (given lists)

end Library

namespace Draft

structure Accounts (library : Library) (origins : List Origin) (draft : Draft) : Prop where
  length : origins.length = draft.rules.size
  distinct : origins.Nodup
  numbers : ∀ site id, draft.number site = some (some id) ↔ origins[id]? = some (.site site)
  holders : ∀ place, .holder place ∈ origins → draft.number (.rule place) ≠ none
  dismissed : ∀ place, draft.number (.rule place) = some none →
    place.isGroup = false ∧ ∃ decl, library.rule? place = some decl ∧ RulePatterns.ofDecl? decl = none
  formed : ∀ id rule, draft.filled id = some rule →
    ∃ origin, origins[id]? = some origin ∧ library.Formed origins origin rule

namespace Accounts

variable {library : Library} {origins : List Origin} {draft : Draft}

theorem empty (library : Library) : Draft.empty.Accounts library [] where
  length := rfl
  distinct := List.nodup_nil
  numbers := fun site id => by simp [number_empty]
  holders := fun place none => nomatch none
  dismissed := fun place here => by simp [number_empty] at here
  formed := fun id rule here => by simp [filled, Draft.empty] at here

theorem getElem?_append_one {origin other : Origin} {id : RuleId} :
    (origins ++ [origin])[id]? = some other ↔
      origins[id]? = some other ∨ origin = other ∧ id = origins.length := by
  grind

theorem push {next : Draft} {origin : Origin} (accounts : draft.Accounts library origins)
    (rules : next.rules = draft.rules.push none) (new : origin ∉ origins)
    (numbers : ∀ site id, next.number site = some (some id) ↔
      draft.number site = some (some id) ∨ origin = .site site ∧ id = draft.rules.size)
    (kept : draft.Extends next)
    (held : ∀ place, origin = .holder place → next.number (.rule place) ≠ none)
    (dismissed : ∀ place, next.number (.rule place) = some none →
      draft.number (.rule place) = some none) : next.Accounts library (origins ++ [origin]) where
  length := by simp [rules, accounts.length]
  distinct := by
    rw [List.nodup_append_comm]
    exact List.nodup_cons.mpr ⟨new, accounts.distinct⟩
  numbers := fun site id => by
    rw [numbers, accounts.numbers, getElem?_append_one, accounts.length]
  holders := fun place member => by
    rcases List.mem_append.mp member with old | last
    · obtain ⟨found, here⟩ := Option.ne_none_iff_exists'.mp (accounts.holders place old)
      simp [kept.numbers _ _ here]
    · exact held place (List.mem_singleton.mp last).symm
  dismissed := fun place here => accounts.dismissed place (dismissed place here)
  formed := fun id rule here => by
    have old : draft.filled id = some rule := by
      rw [filled, rules, Array.getElem?_push] at here
      split at here
      · simp at here
      · exact here
    obtain ⟨origin, known, formed⟩ := accounts.formed id rule old
    exact ⟨origin, Library.further _ known, formed.append _⟩

theorem newest (accounts : draft.Accounts library origins) (origin : Origin) :
    (origins ++ [origin])[draft.rules.size]? = some origin :=
  getElem?_append_one.mpr (.inr ⟨rfl, accounts.length.symm⟩)

theorem enter {site : Site} (accounts : draft.Accounts library origins)
    (new : draft.number site = none) :
    (draft.enter site).Accounts library (origins ++ [.site site]) := by
  refine accounts.push (rules_enter draft site) ?_ ?_ (.enter new) (fun _ => nofun) ?_
  · intro member
    obtain ⟨id, here⟩ := List.mem_iff_getElem?.mp member
    simp [(accounts.numbers site id).mpr here] at new
  · intro other id
    rw [number_enter]
    by_cases same : other = site
    · simp [same, new, eq_comm]
    · simp [same, Ne.symm same]
  · intro place here
    rw [number_enter] at here
    split at here
    · simp at here
    · exact here

theorem room {place : Place} (accounts : draft.Accounts library origins)
    (numbered : draft.number (.rule place) ≠ none) (new : .holder place ∉ origins) :
    draft.room.Accounts library (origins ++ [.holder place]) := by
  refine accounts.push rfl new ?_ (.room draft) ?_ ?_
  · simp [number_room]
  · rintro _ ⟨⟩
    rwa [number_room]
  · simp [number_room]

theorem laid (accounts : draft.Accounts library origins) (table : List (String × RuleDecl)) :
    (draft.laid table).Accounts library origins where
  length := accounts.length
  distinct := accounts.distinct
  numbers := accounts.numbers
  holders := accounts.holders
  dismissed := accounts.dismissed
  formed := accounts.formed

theorem turned (accounts : draft.Accounts library origins) (round : Bool) :
    (draft.turned round).Accounts library origins where
  length := accounts.length
  distinct := accounts.distinct
  numbers := accounts.numbers
  holders := accounts.holders
  dismissed := accounts.dismissed
  formed := accounts.formed

theorem fill {id : RuleId} {origin : Origin} {rule : Rule} (accounts : draft.Accounts library origins)
    (here : origins[id]? = some origin) (formed : library.Formed origins origin rule) :
    (draft.fill id rule).Accounts library origins where
  length := by simpa [Draft.fill] using accounts.length
  distinct := accounts.distinct
  numbers := accounts.numbers
  holders := accounts.holders
  dismissed := accounts.dismissed
  formed := fun other present known => by
    by_cases same : other = id
    · subst same
      have inside : other < draft.rules.size := by
        rw [← accounts.length]
        exact (List.getElem?_eq_some_iff.mp here).1
      rw [filled_fill_self inside] at known
      exact ⟨origin, here, Option.some.inj known ▸ formed⟩
    · refine accounts.formed other present ?_
      rwa [filled, Draft.fill, Array.getElem?_setIfInBounds_ne (Ne.symm same)] at known

theorem dismiss {place : Place} {decl : RuleDecl} (accounts : draft.Accounts library origins)
    (new : draft.number (.rule place) = none) (declared : library.rule? place = some decl)
    (plain : place.isGroup = false) (malformed : RulePatterns.ofDecl? decl = none) :
    (draft.dismiss place).Accounts library origins where
  length := accounts.length
  distinct := accounts.distinct
  numbers := fun site id => by
    rw [← accounts.numbers, number_dismiss]
    by_cases same : site = .rule place
    · simp [same, new]
    · simp [same]
  holders := fun other member => by
    rw [number_dismiss]
    split
    · simp
    · exact accounts.holders other member
  dismissed := fun other here => by
    rw [number_dismiss] at here
    split at here
    · rename_i same
      obtain rfl := Site.rule.inj same
      exact ⟨plain, decl, declared, malformed⟩
    · exact accounts.dismissed other here
  formed := accounts.formed

end Accounts

end Draft

namespace Draft

variable {draft middle next last : Draft}

def Completes (draft next : Draft) : Prop :=
  ∀ id, draft.rules.size ≤ id → id < next.rules.size → (next.filled id).isSome

namespace Completes

theorem of_size (same : next.rules.size ≤ draft.rules.size) : Completes draft next :=
  fun _ new inside => absurd inside (not_lt.mpr (same.trans new))

theorem trans (first : Completes draft middle) (kept : middle.Extends last)
    (further : Completes middle last) : Completes draft last := by
  intro id new inside
  by_cases early : id < middle.rules.size
  · rw [filled, kept.rules id early]
    exact first id new early
  · exact further id (not_lt.mp early) inside

theorem fill (completes : Completes middle next)
    (room : middle.rules.size = draft.rules.size + 1) (kept : middle.Extends next) (rule : Rule) :
    Completes draft (next.fill draft.rules.size rule) := by
  intro id new inside
  have own : draft.rules.size < next.rules.size := by
    have := kept.size
    omega
  rcases Nat.eq_or_lt_of_le new with rfl | later
  · rw [filled_fill_self own]
    rfl
  · have before : id < next.rules.size := by simpa [Draft.fill] using inside
    rw [filled, Draft.fill, Array.getElem?_setIfInBounds_ne (Nat.ne_of_lt later)]
    exact completes id (by omega) before

end Completes

end Draft

namespace Compile

variable {library : Library} {tasks : List Task} {draft last : Draft}
  {found : List (Option RuleId)} {met : List (Place × Surroundings)} {origins : List Origin}

theorem Runs.accounts (runs : Runs library tasks draft found last met) (tidy : library.Tidy)
    (placed : ∀ task ∈ tasks, library.Placed task) (accounts : draft.Accounts library origins) :
    ∃ more, last.Accounts library (origins ++ more) ∧
      List.Forall₂ (library.Given (origins ++ more)) tasks found := by
  induction runs generalizing origins with
  | none => exact ⟨[], by simpa using accounts, .nil⟩
  | more _ _ first further =>
    obtain ⟨here, others⟩ := List.forall_mem_cons.mp placed
    obtain ⟨early, accounts, given⟩ := first (List.forall_mem_singleton.mpr here) accounts
    obtain ⟨late, accounts, rest⟩ := further others accounts
    rw [List.append_assoc] at accounts rest
    refine ⟨early ++ late, accounts, .cons ?_ rest⟩
    rw [← List.append_assoc]
    exact (List.forall₂_cons.mp given).1.append late
  | nowhere nothing =>
    exact ⟨[], by simpa using accounts.turned _, .cons (.nowhere nothing) .nil⟩
  | leads leads _ ih =>
    obtain ⟨declared, plain, written⟩ := placed _ List.mem_cons_self
    obtain ⟨more, accounts, given⟩ := ih (List.forall_mem_singleton.mpr
      (Library.placed_task tidy.keyed declared plain written leads)) accounts
    exact ⟨more, accounts, .cons (.leads leads (List.forall₂_cons.mp given).1) .nil⟩
  | wholeKnown known =>
    obtain ⟨id, -, rfl⟩ := Option.map_eq_some_iff.mp known
    refine ⟨[], by simpa using accounts, .cons (.whole ?_) .nil⟩
    rw [List.append_nil, ← accounts.numbers, known]
  | @ruleKnown place decl around draft found known =>
    obtain ⟨declared, plain, _⟩ := placed _ List.mem_cons_self
    refine ⟨[], by simpa using accounts, .cons ?_ .nil⟩
    rw [List.append_nil]
    cases found with
    | none =>
      obtain ⟨-, other, here, malformed⟩ := accounts.dismissed place known
      obtain rfl := Option.some.inj (declared.symm.trans here)
      exact .malformed malformed
    | some id => exact .rule plain ((accounts.numbers _ id).mp known)
  | @groupKnown place decl around draft found known =>
    obtain ⟨declared, group, _⟩ := placed _ List.mem_cons_self
    refine ⟨[], by simpa using accounts, .cons ?_ .nil⟩
    rw [List.append_nil]
    cases found with
    | none => simp [(accounts.dismissed place known).1] at group
    | some id => exact .group group ((accounts.numbers _ id).mp known)
  | malformed new malformed =>
    obtain ⟨declared, plain, _⟩ := placed _ List.mem_cons_self
    exact ⟨[], by simpa using accounts.dismiss new declared plain malformed,
      .cons (.malformed malformed) .nil⟩
  | @whole decl draft last found met new _ ih =>
    have stored : library.grammar? decl.scopeName = some decl := placed _ List.mem_cons_self
    obtain ⟨more, inner, lists⟩ := ih (Library.placed_whole stored) (accounts.enter new)
    have here := Library.further more (accounts.newest (.site (.whole decl.scopeName)))
    rw [List.append_assoc] at inner lists here
    exact ⟨_, inner.fill here (.whole stored lists), .cons (.whole here) .nil⟩
  | @rule place decl around patterns draft one two last nested before after _ _ _ new formed _ _ _
      lists first second =>
    obtain ⟨declared, plain, written⟩ := placed _ List.mem_cons_self
    obtain ⟨more, inner, lists⟩ := lists (Library.placed_nested declared written) (accounts.enter new)
    obtain ⟨early, middle, first⟩ := first (Library.placed_groups tidy declared written
      (patterns.firstTable_given decl)) (inner.laid _)
    obtain ⟨late, final, second⟩ := second (Library.placed_groups tidy declared written
      (patterns.secondTable_given decl)) (middle.laid _)
    have here := Library.further (more ++ early ++ late) (accounts.newest (.site (.rule place)))
    have lists := lists.imp fun _ _ given => (given.append early).append late
    have first := first.imp fun _ _ given => given.append late
    simp only [List.append_assoc] at final lists first second here
    exact ⟨_, final.fill here (.rule declared plain formed lists first second),
      .cons (.rule plain here) .nil⟩
  | @bareGroup place decl around draft new bare =>
    obtain ⟨declared, group, _⟩ := placed _ List.mem_cons_self
    have here := accounts.newest (.site (.rule place))
    exact ⟨_, (accounts.enter new).fill here (.bareGroup declared group bare),
      .cons (.group group here) .nil⟩
  | @group place decl around draft last nested met new some _ ih =>
    obtain ⟨declared, group, written⟩ := placed _ List.mem_cons_self
    -- A group takes two numbers, its own and that of what holds the rules for its text.
    have entered := accounts.enter new
    have numbered : (draft.enter (.rule place)).number (.rule place) ≠ Option.none := by
      simp [Draft.number_enter]
    have absent : .holder place ∉ origins ++ [.site (.rule place)] := by
      intro member
      rcases List.mem_append.mp member with old | last
      · exact accounts.holders place old new
      · simp at last
    obtain ⟨more, inner, lists⟩ := ih (Library.placed_nested declared written)
      (entered.room numbered absent)
    have here := Library.further more (Library.further [.holder place]
      (accounts.newest (.site (.rule place))))
    have holder := Library.further more (entered.newest (.holder place))
    rw [Draft.rules_enter, Array.size_push] at holder
    simp only [List.append_assoc] at inner lists here holder
    refine ⟨_, (inner.fill holder (.holder declared some lists)).fill here
      (.group declared group holder), .cons (.group group here) .nil⟩

theorem Runs.completes (runs : Runs library tasks draft found last met) : draft.Completes last := by
  induction runs with
  | none | nowhere | wholeKnown | ruleKnown | groupKnown | malformed => exact .of_size le_rfl
  | more _ runs first further => exact first.trans runs.keeps further
  | leads _ _ ih => exact ih
  | whole _ runs ih => exact ih.fill (by simp [Draft.rules_enter]) runs.keeps _
  | rule _ _ lists one two inner first second =>
    have kept := one.keeps.trans ((Draft.Extends.laid _ _).trans two.keeps)
    have all := inner.trans ((Draft.Extends.laid _ _).trans kept)
      (first.trans ((Draft.Extends.laid _ _).trans two.keeps) second)
    exact all.fill (by simp [Draft.rules_enter])
      (lists.keeps.trans ((Draft.Extends.laid _ _).trans kept)) _
  | bareGroup => exact (Draft.Completes.of_size le_rfl).fill (by simp [Draft.rules_enter]) (.refl _) _
  | @group place _ _ draft last nested _ _ _ runs ih =>
    let entered := draft.enter (.rule place)
    have size : entered.rules.size = draft.rules.size + 1 := by
      rw [Draft.rules_enter, Array.size_push]
    have inner : entered.Completes (last.fill entered.rules.size
        (Rule.held entered.rules.size nested.reduceOption)) :=
      ih.fill (by simp [entered, Draft.room]) runs.keeps _
    have kept : entered.Extends (last.fill entered.rules.size
        (Rule.held entered.rules.size nested.reduceOption)) :=
      ((Draft.Extends.room entered).trans runs.keeps).fill le_rfl _
    rw [size] at inner kept
    exact inner.fill size kept _

end Compile

namespace Rule

def isCapturing (rule : Rule) : Bool :=
  match rule.kind with
  | .capturing _ => true
  | _ => false

def tables (rule : Rule) : List CaptureRules :=
  match rule.kind with
  | .matching _ captures => [captures]
  | .spanning _ before _ after _ _ => [before, after]
  | .continuing _ before _ during _ => [before, during]
  | .holding _ | .capturing _ => []

end Rule

namespace Library

variable {library : Library} {origins : List Origin} {tasks : List Compile.Task}
  {found : List (Option RuleId)} {origin : Origin} {rule : Rule} {id : RuleId}

theorem exists_given (all : List.Forall₂ (library.Given origins) tasks found)
    (member : some id ∈ found) : ∃ task ∈ tasks, library.Given origins task (some id) := by
  induction all with
  | nil => exact nomatch member
  | @cons task first tasks found given _ ih =>
    rcases List.mem_cons.mp member with rfl | later
    · exact ⟨task, List.mem_cons_self, given⟩
    · obtain ⟨task, listed, given⟩ := ih later
      exact ⟨task, List.mem_cons_of_mem _ listed, given⟩

theorem Given.isListed {task : Compile.Task} {found : Option RuleId}
    (given : library.Given origins task found)
    (single : ∀ place decl around, task ≠ .group place decl around) (here : found = some id) :
    ∃ origin, origins[id]? = some origin ∧ origin.isListed = true := by
  induction given with
  | nowhere | malformed => exact nomatch here
  | leads leads _ ih =>
    refine ih (fun place decl around => ?_) here
    rcases task?_eq_some leads with ⟨_, rfl⟩ | ⟨_, _, _, rfl⟩ <;> exact nofun
  | whole known =>
    obtain rfl := Option.some.inj here
    exact ⟨_, known, rfl⟩
  | @rule place _ _ _ plain known =>
    obtain rfl := Option.some.inj here
    exact ⟨_, known, by simp [Origin.isListed, plain]⟩
  | group => exact absurd rfl (single _ _ _)

theorem isListed_of_listing {around : Surroundings} {items : List (Place × RuleDecl)}
    (all : List.Forall₂ (library.Given origins) (Compile.listing around items) found)
    (member : id ∈ found.reduceOption) :
    ∃ origin, origins[id]? = some origin ∧ origin.isListed = true := by
  obtain ⟨task, listed, given⟩ := exists_given all (List.reduceOption_mem_iff.mp member)
  obtain ⟨item, -, rfl⟩ := List.mem_map.mp listed
  exact given.isListed (fun _ _ _ => nofun) rfl

theorem group_of_grouping {around : Surroundings} {place : Place} {decl : RuleDecl}
    {table : CaptureField × List (String × RuleDecl)}
    (all : List.Forall₂ (library.Given origins) (Compile.groupTasks around place decl table) found)
    (member : some id ∈ Compile.tabled table.2 found) :
    ∃ group, origins[id]? = some (.site (.rule group)) ∧ group.isGroup = true := by
  have given : some id ∈ found := by
    obtain ⟨pair, listed, rfl⟩ := List.mem_map.mp (Compile.of_mem_spread member)
    exact List.reduceOption_mem_iff.mp (List.of_mem_zip listed).2
  obtain ⟨task, listed, given⟩ := exists_given all given
  obtain ⟨item, -, rfl⟩ := List.mem_map.mp listed
  cases given with
  | group group here => exact ⟨_, here, group⟩

theorem Formed.isCapturing (formed : library.Formed origins origin rule)
    (listed : origin.isListed = true) : rule.isCapturing = false := by
  cases formed with
  | whole | holder => rfl
  | @rule _ _ _ patterns => cases patterns <;> rfl
  | bareGroup _ group | group _ group => simp [Origin.isListed, group] at listed

theorem Formed.capturing {place : Place} (formed : library.Formed origins (.site (.rule place)) rule)
    (group : place.isGroup = true) : rule.isCapturing = true := by
  cases formed with
  | rule _ plain => simp [group] at plain
  | bareGroup | group => rfl

theorem Formed.held {place : Place} (formed : library.Formed origins (.holder place) rule) :
    ∃ id nested, rule = Rule.held id nested := by
  cases formed with
  | holder => exact ⟨_, _, rfl⟩

theorem Formed.whole_held {scope : String}
    (formed : library.Formed origins (.site (.whole scope)) rule) :
    ∃ id nested, rule = Rule.held id nested := by
  cases formed with
  | whole => exact ⟨_, _, rfl⟩

theorem Formed.nested (formed : library.Formed origins origin rule) (member : id ∈ rule.nested) :
    ∃ origin, origins[id]? = some origin ∧ origin.isListed = true := by
  cases formed with
  | whole _ lists => exact isListed_of_listing lists member
  | @rule _ _ _ patterns _ _ _ _ _ _ _ lists =>
    cases patterns with
    | matching => exact nomatch member
    | spanning | continuing | absent => exact isListed_of_listing lists member
  | bareGroup | group => exact nomatch member
  | holder _ _ lists => exact isListed_of_listing lists member

theorem Formed.tables (formed : library.Formed origins origin rule) {table : CaptureRules}
    (listed : table ∈ rule.tables) (member : some id ∈ table) :
    ∃ group, origins[id]? = some (.site (.rule group)) ∧ group.isGroup = true := by
  cases formed with
  | whole | bareGroup | group | holder => exact nomatch listed
  | @rule _ _ _ patterns _ _ _ _ _ _ _ _ first second =>
    cases patterns with
    | matching =>
      obtain rfl := List.mem_singleton.mp listed
      exact group_of_grouping first member
    | spanning | continuing =>
      rcases List.mem_pair.mp listed with rfl | rfl
      · exact group_of_grouping first member
      · exact group_of_grouping second member
    | absent => exact nomatch listed

theorem Formed.inner (formed : library.Formed origins origin rule)
    (kind : rule.kind = .capturing (some id)) : ∃ place, origins[id]? = some (.holder place) := by
  cases formed with
  | whole | holder => exact nomatch kind
  | @rule _ _ _ patterns => cases patterns <;> exact nomatch kind
  | bareGroup => exact nomatch kind
  | group _ _ held =>
    obtain rfl := Option.some.inj (RuleKind.capturing.inj kind)
    exact ⟨_, held⟩

end Library

theorem Library.injecting_single {library : Library} {entry : String × Compile.Task}
    (member : entry ∈ library.allInjecting) (place : Place) (decl : RuleDecl) (around : Surroundings) :
    entry.2 ≠ .group place decl around := by
  rcases List.mem_append.mp member with own | foreign
  · obtain ⟨_, -, rfl⟩ := List.mem_map.mp own
    exact nofun
  · obtain ⟨scope, -, here⟩ := List.mem_filterMap.mp foreign
    obtain ⟨decl, -, chosen⟩ := Option.bind_eq_some_iff.mp here
    obtain ⟨_, -, rfl⟩ := Option.map_eq_some_iff.mp chosen
    exact nofun

namespace Compile

theorem rule_of_mem_injectionsOf {selector : String} {id : RuleId} {injection : Injection}
    (member : injection ∈ injectionsOf selector id) : injection.rule = id := by
  unfold injectionsOf at member
  split at member
  · obtain ⟨_, -, rfl⟩ := List.mem_map.mp member
    rfl
  · exact nomatch member

end Compile

namespace RuleGraph

variable {graph : RuleGraph} {library : Library} {origins : List Origin}

/-- Each rule has the number that it stands at. Every number leads to a rule of the table, and to one
of the right kind: lists hold no rules for groups, tables for groups hold nothing else, and what a
group's text is read by only holds others. -/
structure WellFormed (graph : RuleGraph) : Prop where
  numbered : ∀ id rule, graph.rule? id = some rule → rule.id = id
  root : ∃ nested, graph.rule? graph.root = some (Rule.held graph.root nested)
  nested : ∀ id rule, graph.rule? id = some rule → ∀ part ∈ rule.nested,
    ∃ other, graph.rule? part = some other ∧ other.isCapturing = false
  tables : ∀ id rule, graph.rule? id = some rule → ∀ table ∈ rule.tables, ∀ group,
    some group ∈ table → ∃ other, graph.rule? group = some other ∧ other.isCapturing = true
  inner : ∀ id rule holder, graph.rule? id = some rule → rule.kind = .capturing (some holder) →
    ∃ nested, graph.rule? holder = some (Rule.held holder nested)
  injections : ∀ injection ∈ graph.injections,
    ∃ rule, graph.rule? injection.rule = some rule ∧ rule.isCapturing = false

/-- The table has one rule for each thing, at that thing's number. -/
structure MadeOf (graph : RuleGraph) (library : Library) (origins : List Origin) : Prop where
  numbered : ∀ id rule, graph.rule? id = some rule → rule.id = id
  distinct : origins.Nodup
  rules : List.Forall₂ (library.Formed origins) origins graph.rules.toList
  agenda : ∃ found, List.Forall₂ (library.Given origins) library.agenda (some graph.root :: found) ∧
    graph.injections = Compile.byPriority (Compile.injected library.allInjecting found)

namespace MadeOf

theorem exists_rule (made : graph.MadeOf library origins) {id : RuleId} {origin : Origin}
    (here : origins[id]? = some origin) :
    ∃ rule, graph.rule? id = some rule ∧ library.Formed origins origin rule := by
  obtain ⟨inside, rfl⟩ := List.getElem?_eq_some_iff.mp here
  obtain ⟨same, formed⟩ := List.forall₂_iff_get.mp made.rules
  have stored : id < graph.rules.size := inside.trans_eq same
  exact ⟨graph.rules[id], Array.getElem?_eq_getElem stored, formed id inside stored⟩

theorem exists_origin (made : graph.MadeOf library origins) {id : RuleId} {rule : Rule}
    (here : graph.rule? id = some rule) :
    ∃ origin, origins[id]? = some origin ∧ library.Formed origins origin rule := by
  obtain ⟨stored, rfl⟩ := Array.getElem?_eq_some_iff.mp here
  obtain ⟨same, formed⟩ := List.forall₂_iff_get.mp made.rules
  have inside : id < origins.length := stored.trans_eq same.symm
  exact ⟨origins[id], List.getElem?_eq_getElem inside, formed id inside stored⟩

theorem listed (made : graph.MadeOf library origins) {id : RuleId}
    (known : ∃ origin, origins[id]? = some origin ∧ origin.isListed = true) :
    ∃ rule, graph.rule? id = some rule ∧ rule.isCapturing = false := by
  obtain ⟨origin, here, listed⟩ := known
  obtain ⟨rule, there, formed⟩ := made.exists_rule here
  exact ⟨rule, there, formed.isCapturing listed⟩

theorem injected (made : graph.MadeOf library origins) {injection : Injection}
    (member : injection ∈ graph.injections) :
    ∃ origin, origins[injection.rule]? = some origin ∧ origin.isListed = true := by
  obtain ⟨found, given, same⟩ := made.agenda
  rw [same] at member
  obtain ⟨⟨⟨selector, task⟩, entry⟩, listed, member⟩ :=
    List.mem_flatMap.mp (Compile.mem_byPriority member)
  obtain ⟨id, here, injected⟩ := List.mem_flatMap.mp member
  obtain rfl := Option.mem_toList.mp here
  have given := (List.forall₂_iff_zip.mp (List.forall₂_map_left_iff.mp
    (List.forall₂_cons.mp given).2)).2 listed
  rw [Compile.rule_of_mem_injectionsOf injected]
  refine given.isListed (fun place decl around => ?_) rfl
  exact Library.injecting_single (List.of_mem_zip listed).1 place decl around

theorem held (made : graph.MadeOf library origins) {id : RuleId} {rule : Rule}
    (here : graph.rule? id = some rule) (held : ∃ own nested, rule = Rule.held own nested) :
    ∃ nested, graph.rule? id = some (Rule.held id nested) := by
  obtain ⟨own, nested, rfl⟩ := held
  obtain rfl : own = id := made.numbered id _ here
  exact ⟨nested, here⟩

theorem wellFormed (made : graph.MadeOf library origins) : graph.WellFormed where
  numbered := made.numbered
  root := by
    obtain ⟨found, given, -⟩ := made.agenda
    cases (List.forall₂_cons.mp given).1 with
    | whole here =>
      obtain ⟨rule, there, formed⟩ := made.exists_rule here
      exact made.held there formed.whole_held
  nested := fun id rule here part member => by
    obtain ⟨origin, _, formed⟩ := made.exists_origin here
    exact made.listed (formed.nested member)
  tables := fun id rule here table listed group member => by
    obtain ⟨origin, _, formed⟩ := made.exists_origin here
    obtain ⟨place, known, isGroup⟩ := formed.tables listed member
    obtain ⟨other, there, formed⟩ := made.exists_rule known
    exact ⟨other, there, formed.capturing isGroup⟩
  inner := fun id rule holder here kind => by
    obtain ⟨origin, _, formed⟩ := made.exists_origin here
    obtain ⟨place, known⟩ := formed.inner kind
    obtain ⟨other, there, formed⟩ := made.exists_rule known
    exact made.held there formed.held
  injections := fun injection member => made.listed (made.injected member)

end MadeOf

/-- Where compiling comes to its end, the table is well formed. Each number that was handed out has its
rule then, so nothing has to be put in for a missing one. Each grammar, declared rule and group has at
most one number, and its rule is the one that is stored there. For up to 2 ^ 31 rules and grammars 32
bits are enough for the numbers. -/
theorem compile_wellFormed (library : Library) (tidy : library.Tidy) {graph : RuleGraph}
    (compiled : compile? library = some graph) :
    let draft := ((Compile.graph library).run Draft.empty).2
    let sites := library.ruleCount + library.repository.grammars.length + 1
    draft.rules = graph.rules.map some ∧ graph.WellFormed ∧ graph.rules.size ≤ 2 * sites ∧
      (sites ≤ 2 ^ 31 → ∀ id rule, graph.rule? id = some rule → rule.id < 2 ^ 32) ∧
      ∃ origins, graph.MadeOf library origins ∧
        ∀ site id, draft.number site = some (some id) ↔ origins[id]? = some (.site site) := by
  obtain ⟨-, -, rfl⟩ := compile?_eq_some_iff.mp compiled
  obtain ⟨root, found, last, met, runs, run⟩ := Compile.graph_runs tidy
  obtain ⟨origins, accounts, given⟩ := runs.accounts tidy (Library.placed_agenda tidy) (.empty library)
  rw [List.nil_append] at accounts given
  have whole : compile library = ⟨last.rules.mapIdx fun id rule => rule.getD (Rule.held id []), root,
      Compile.byPriority (Compile.injected library.allInjecting found)⟩ := by
    rw [compile, run]
  -- All numbers have their rules by now, so nothing is put in for a missing one.
  have finished : last.rules = (compile library).rules.map some := by
    refine Array.ext (by simp [whole]) fun id inside _ => ?_
    obtain ⟨rule, here⟩ := Option.isSome_iff_exists.mp (runs.completes id (Nat.zero_le id) inside)
    have stored : last.rules[id] = some rule := by
      simpa [Draft.filled, Array.getElem?_eq_getElem inside] using here
    simp [whole, stored]
  have made : (compile library).MadeOf library origins := by
    refine ⟨fun _ _ => compile_numbered, accounts.distinct, ?rules, found, ?agenda⟩
    case rules =>
      have size : origins.length = (compile library).rules.toList.length := by
        simp [accounts.length, finished]
      refine List.forall₂_iff_get.mpr ⟨size, fun id inside stored => ?_⟩
      have filled : last.filled id = some (compile library).rules[id] := by
        have stored : id < (compile library).rules.size := stored
        simp [Draft.filled, finished, Array.getElem?_eq_getElem stored]
      obtain ⟨origin, here, formed⟩ := accounts.formed id _ filled
      obtain ⟨_, rfl⟩ := List.getElem?_eq_some_iff.mp here
      exact formed
    case agenda =>
      rw [whole]
      exact ⟨given, rfl⟩
  have size : (compile library).rules.size ≤
      2 * (library.ruleCount + library.repository.grammars.length + 1) := by
    have few := runs.size_le tidy (Library.placed_agenda tidy)
    have start : Draft.empty.rules.size = 0 := rfl
    have sites := Draft.empty.unmet_le library
    have same : last.rules.size = (compile library).rules.size := by rw [finished, Array.size_map]
    omega
  rw [run]
  refine ⟨finished, made.wellFormed, size, fun few id rule here => ?_, origins, made,
    accounts.numbers⟩
  have inside := (Array.getElem?_eq_some_iff.mp here).1
  rw [compile_numbered here]
  exact inside.trans_le (size.trans (Nat.mul_le_mul_left 2 few))

end RuleGraph

namespace Library

open RuleDecl (word referring holding bracketed)

def knitted : Library :=
  let group := holding ["$self", "u#part", "#list"]
  let grouped := { word "x" with captures := some [("1", group), ("0", word "all")] }
  let inner : GrammarDecl := ⟨some "u", none, [RuleDecl.referring "t", RuleDecl.referring "#part"],
    [("part", bracketed "$base")], [], some "R:t", ["t"], [], none⟩
  ⟨⟨some "t", none, [grouped, referring "#list", referring "u"],
    [("list", holding ["#list", "u", "#part"])], [("L:t", referring "#list")], none, [], [], none⟩,
    ⟨[("u", inner)], [("t", ["u"])]⟩⟩

end Library

namespace RuleGraph

open Library (knitted)

theorem compile_wellFormed_knitted :
    compile? knitted = some (compile knitted) ∧ (compile knitted).rules.size = 8 ∧
      (compile knitted).WellFormed ∧ ∃ origins, (compile knitted).MadeOf knitted origins := by
  have compiled : compile? knitted = some (compile knitted) :=
    compile?_eq_some_iff.mpr ⟨by cbv, by unfold Library.Straight; cbv, rfl⟩
  obtain ⟨-, formed, -, -, origins, made, -⟩ :=
    compile_wellFormed knitted (Library.tidy_of_isTidy (by cbv)) compiled
  exact ⟨compiled, by cbv, formed, origins, made⟩

end RuleGraph

end Highlighter
