import Highlighter.Proofs.Grammar.Derivation
import Highlighter.Proofs.Grammar.Tables

set_option autoImplicit false

namespace Highlighter

namespace Text

/-- ASCII digits, after a plus sign or nothing, for a number of at most 64 bits. -/
def IsIndex (key : String) : Prop :=
  ∃ sign digits, key.toList = sign ++ digits ∧ (sign = [] ∨ sign = ['+']) ∧ digits ≠ [] ∧
    (∀ c ∈ digits, c.isDigit = true) ∧ digitsValue digits ≤ largestIndex

theorem isSome_readIndex?_iff (key : String) :
    (readIndex? key.toList).isSome = true ↔ IsIndex key := by
  have read (digits : List Char) :
      (if digits.isEmpty || !digits.all Char.isDigit then none
        else if digitsValue digits ≤ largestIndex then some (digitsValue digits) else none).isSome =
          true ↔
        digits ≠ [] ∧ (∀ c ∈ digits, c.isDigit = true) ∧ digitsValue digits ≤ largestIndex := by
    simp [Option.isSome_iff_exists, and_assoc]
  have signed : '+'.isDigit = false := by decide
  unfold readIndex? readNumber? IsIndex
  generalize key.toList = cs
  split
  · rename_i rest
    rw [read]
    constructor
    · exact fun holds => ⟨['+'], rest, rfl, .inr rfl, holds⟩
    · rintro ⟨sign, digits, whole, rfl | rfl, holds⟩
      · obtain rfl : '+' :: rest = digits := whole
        exact absurd (holds.2.1 '+' List.mem_cons_self) (by simp [signed])
      · obtain rfl := (List.cons.inj whole).2
        exact holds
  · rename_i unsigned
    rw [read]
    constructor
    · exact fun holds => ⟨[], cs, rfl, .inl rfl, holds⟩
    · rintro ⟨sign, digits, whole, rfl | rfl, holds⟩
      · obtain rfl : cs = digits := whole
        exact holds
      · exact absurd whole (unsigned digits)

end Text

namespace RuleDecl

/-- There are none of the patterns that go together, or there is one to begin with and just one of
those to end with and to go on with. -/
def IsPaired (rule : RuleDecl) : Prop :=
  (rule.opening = none ∧ rule.closing = none ∧ rule.continuing = none) ∨
    (rule.opening.isSome = true ∧ rule.closing.isSome ≠ rule.continuing.isSome)

structure Complete (rule : RuleDecl) : Prop where
  reference : rule.reference ≠ some ""
  keys : ∀ field, ∀ entry ∈ (rule.captured field).getD [], Text.IsIndex entry.1
  paired : rule.reference = none → rule.pattern = none → rule.IsPaired

theorem ownFault?_eq_none_iff (rule : RuleDecl) : rule.ownFault? = none ↔
    rule.reference ≠ some "" ∧
      (rule.reference = none → rule.pattern = none → rule.IsPaired) := by
  unfold ownFault? IsPaired
  rw [Option.orElse_eq_none, and_comm]
  refine and_congr ?_ ?_
  · simp
  · cases rule.reference with
    | some text => simp
    | none =>
      cases rule.pattern with
      | some source => simp
      | none =>
        cases rule.opening <;> cases rule.closing <;> cases rule.continuing <;> simp

theorem Accepted.complete {rule : RuleDecl} (accepted : rule.Accepted) : rule.Complete := by
  obtain ⟨path, sound⟩ := accepted
  have own := ((fault?_eq_none_iff path rule).mp sound).1
  obtain ⟨reference, paired⟩ := (ownFault?_eq_none_iff rule).mp own
  refine ⟨reference, fun field entry member => ?_, paired⟩
  have parts : Accepted rule := ⟨path, sound⟩
  exact (Text.isSome_readIndex?_iff entry.1).mp (parts.parts.2.2 field entry member).1

end RuleDecl

def GrammarDecl.Declares (grammar : GrammarDecl) : RuleDecl → Prop :=
  Library.Declares ⟨grammar, Repository.empty⟩

namespace GrammarDecl

variable {grammar : GrammarDecl}

def IsComplete (grammar : GrammarDecl) : Prop := ∀ rule, grammar.Declares rule → rule.Complete

def IsNamed (grammar : GrammarDecl) : Prop :=
  ∃ name, grammar.scopeName? = some name ∧ ∃ c ∈ name.toList, Text.isSpace c = false

theorem isNamed_iff : grammar.scopeName?.all Text.isBlankText = false ↔ grammar.IsNamed := by
  unfold IsNamed
  cases grammar.scopeName? with
  | none => simp
  | some name => simp [Text.isBlankText]

section

open RuleDecl

-- By the tree of the rule, whose parts are declared where it is.
mutual

theorem fault?_eq_none (complete : grammar.IsComplete) (path : String) :
    (rule : RuleDecl) → grammar.Declares rule → rule.fault? path = none
  | ⟨reference, name, contentName, pattern, captures, opening, openingCaptures, closing,
      closingCaptures, continuing, continuingCaptures, nested, repository, closingLast⟩ => by
    intro declared
    obtain ⟨reference, keys, paired⟩ := complete _ declared
    have group (field : CaptureField) := fun entry member =>
      And.intro (keys field entry member) (declared.group field member)
    refine (fault?_eq_none_iff _ _).mpr ⟨(ownFault?_eq_none_iff _).mpr ⟨reference, paired⟩, ?_, ?_,
      optionFault?_eq_none complete path _ captures (group .all),
      optionFault?_eq_none complete path _ openingCaptures (group .opening),
      optionFault?_eq_none complete path _ closingCaptures (group .closing),
      optionFault?_eq_none complete path _ continuingCaptures (group .continuing)⟩
    · cases nested with
      | none => rfl
      | some rules =>
        exact listFault?_eq_none complete _ 0 rules fun _ member => .nested declared member
    · cases repository with
      | none => rfl
      | some table =>
        exact tableFault?_eq_none complete _ table fun _ member => .inner declared member

theorem listFault?_eq_none (complete : grammar.IsComplete) (path : String) (index : Nat) :
    (rules : List RuleDecl) → (∀ rule ∈ rules, grammar.Declares rule) →
      listFault? path index rules = none
  | [], _ => rfl
  | rule :: rest, declared => by
    obtain ⟨first, others⟩ := List.forall_mem_cons.mp declared
    rw [listFault?, fault?_eq_none complete _ rule first,
      listFault?_eq_none complete path (index + 1) rest others]
    rfl

theorem tableFault?_eq_none (complete : grammar.IsComplete) (path : String) :
    (table : List (String × RuleDecl)) → (∀ entry ∈ table, grammar.Declares entry.2) →
      tableFault? path table = none
  | [], _ => rfl
  | (name, rule) :: rest, declared => by
    obtain ⟨first, others⟩ := List.forall_mem_cons.mp declared
    rw [tableFault?, fault?_eq_none complete _ rule first,
      tableFault?_eq_none complete path rest others]
    rfl

theorem optionFault?_eq_none (complete : grammar.IsComplete) (path field : String) :
    (table : Option (List (String × RuleDecl))) →
      (∀ entry ∈ table.getD [], Text.IsIndex entry.1 ∧ grammar.Declares entry.2) →
        capturesFault? path field (table.getD []) = none
  | none, _ => rfl
  | some table, declared => capturesFault?_eq_none complete path field table declared

theorem capturesFault?_eq_none (complete : grammar.IsComplete) (path field : String) :
    (table : List (String × RuleDecl)) →
      (∀ entry ∈ table, Text.IsIndex entry.1 ∧ grammar.Declares entry.2) →
        capturesFault? path field table = none
  | [], _ => rfl
  | (key, rule) :: rest, declared => by
    obtain ⟨⟨isIndex, first⟩, others⟩ := List.forall_mem_cons.mp declared
    have isKey : isCaptureKey key = true := (Text.isSome_readIndex?_iff key).mpr isIndex
    rw [capturesFault?, if_pos isKey, fault?_eq_none complete _ rule first,
      capturesFault?_eq_none complete path field rest others]
    rfl

end

theorem injectionsFault?_eq_none (complete : grammar.IsComplete)
    (table : List (String × RuleDecl)) (declared : ∀ entry ∈ table, grammar.Declares entry.2) :
    injectionsFault? table = none := by
  induction table with
  | nil => rfl
  | cons entry rest ih =>
    obtain ⟨first, others⟩ := List.forall_mem_cons.mp declared
    rw [injectionsFault?, fault?_eq_none complete _ entry.2 first, ih others]
    rfl

end

theorem validate_of_complete (named : grammar.IsNamed) (complete : grammar.IsComplete) :
    grammar.validate = .ok () := by
  have stored : grammar ∈ (⟨grammar, Repository.empty⟩ : Library).decls := List.mem_cons_self
  have patterns := listFault?_eq_none complete "patterns" 0 grammar.patterns
    fun _ listed => .pattern stored listed
  have entries := tableFault?_eq_none complete "repository" grammar.repository
    fun _ listed => .entry stored listed
  have injections := injectionsFault?_eq_none complete grammar.injections
    fun _ listed => .injection stored listed
  rw [validate, isNamed_iff.mpr named, patterns, entries, injections]
  rfl

theorem complete_of_validate (accepted : grammar.validate = .ok ()) :
    grammar.IsNamed ∧ grammar.IsComplete := by
  refine ⟨isNamed_iff.mp ?_, fun rule declared => (Library.Declares.accepted declared ?_).complete⟩
  · unfold validate at accepted
    split at accepted
    · exact nomatch accepted
    · rename_i named
      exact Bool.eq_false_iff.mpr named
  · intro other stored
    obtain rfl := List.mem_singleton.mp stored
    exact accepted

end GrammarDecl

namespace GrammarDecl

variable {grammar : GrammarDecl} {steps : List PlaceStep} {rule : RuleDecl}

theorem declares_of_part? {step : PlaceStep} (found : grammar.part? steps step = some rule) :
    grammar.Declares rule := by
  have stored : grammar ∈ (⟨grammar, Repository.empty⟩ : Library).decls := List.mem_cons_self
  induction steps generalizing step rule with
  | nil =>
    cases step with
    | pattern index => exact .pattern stored (List.mem_of_getElem? found)
    | entry name => exact .entry stored (Table.mem_of_lookup found)
    | capture field key => exact nomatch found
    | injection selector => exact .injection stored (Table.mem_of_lookup found)
  | cons last steps ih =>
    obtain ⟨outer, here, inner⟩ := Option.bind_eq_some_iff.mp found
    have declared := ih here
    cases step with
    | pattern index => exact .nested declared (List.mem_of_getElem? inner)
    | entry name => exact .inner declared (Table.mem_of_lookup inner)
    | capture field key => exact .group declared field (Table.mem_of_lookup inner)
    | injection selector => exact nomatch inner

theorem declares_of_rule? (found : grammar.rule? steps = some rule) : grammar.Declares rule := by
  cases steps with
  | nil => exact absurd found (by simp [rule?])
  | cons last steps => exact declares_of_part? found

end GrammarDecl

namespace Compile

def Task.Resolved : Task → Prop
  | .rule _ decl _ => decl.reference = none
  | .listed _ _ _ | .whole _ | .group _ _ _ => True

theorem resolved_listing (around : Surroundings) (items : List (Place × RuleDecl)) :
    ∀ task ∈ listing around items, task.Resolved := by
  intro task member
  obtain ⟨_, _, rfl⟩ := List.mem_map.mp member
  trivial

theorem resolved_grouping (around : Surroundings) (place : Place) (decl : RuleDecl)
    (table : CaptureField × List (String × RuleDecl)) :
    ∀ task ∈ groupTasks around place decl table, task.Resolved := by
  intro task member
  obtain ⟨_, _, rfl⟩ := List.mem_map.mp member
  trivial

theorem resolved_task {library : Library} {around : Surroundings} {place : Place} {decl : RuleDecl}
    {task : Task} (leads : library.task? around place decl = some task) : task.Resolved := by
  unfold Library.task? at leads
  split at leads
  · rename_i refers
    obtain rfl := Option.some.inj leads
    exact refers
  · obtain ⟨destination, found, rfl⟩ := Option.map_eq_some_iff.mp leads
    have ended : library.Ended (fun _ => True) destination :=
      Library.follow_ended (fun _ _ _ => trivial) _ trivial (Lead.destination?_eq_some_iff.mp found)
    cases destination with
    | grammar _ => trivial
    | rule _ _ _ => exact ended.2.1

theorem resolved_agenda (library : Library) : ∀ task ∈ library.agenda, task.Resolved := by
  intro task member
  rcases List.mem_cons.mp member with rfl | member
  · trivial
  · obtain ⟨entry, listed, rfl⟩ := List.mem_map.mp member
    rcases List.mem_append.mp listed with inside | outside
    · obtain ⟨_, _, rfl⟩ := List.mem_map.mp inside
      trivial
    · obtain ⟨_, _, here⟩ := List.mem_filterMap.mp outside
      obtain ⟨_, _, chosen⟩ := Option.bind_eq_some_iff.mp here
      obtain ⟨_, _, rfl⟩ := Option.map_eq_some_iff.mp chosen
      trivial

end Compile

def Draft.Direct (library : Library) (draft : Draft) : Prop :=
  ∀ place found, draft.number (.rule place) = some found → place.isGroup = false →
    ∃ rule, library.rule? place = some rule ∧ rule.reference = none

namespace Draft.Direct

variable {library : Library} {draft : Draft} {place : Place} {decl : RuleDecl}

theorem enterWhole (direct : draft.Direct library) (scope : String) :
    (draft.enter (.whole scope)).Direct library := by
  intro place found here
  rw [number_enter, if_neg nofun] at here
  exact direct place found here

theorem enterRule (direct : draft.Direct library)
    (here : library.rule? place = some decl ∧ decl.reference = none) :
    (draft.enter (.rule place)).Direct library := by
  intro other found number plain
  rw [number_enter] at number
  split at number
  · rename_i same
    obtain rfl := Site.rule.inj same
    exact ⟨decl, here⟩
  · exact direct other found number plain

theorem enterGroup (direct : draft.Direct library) (group : place.isGroup = true) :
    (draft.enter (.rule place)).Direct library := by
  intro other found number plain
  rw [number_enter] at number
  split at number
  · rename_i same
    obtain rfl := Site.rule.inj same
    exact nomatch group.symm.trans plain
  · exact direct other found number plain

theorem dismiss (direct : draft.Direct library)
    (here : library.rule? place = some decl ∧ decl.reference = none) :
    (draft.dismiss place).Direct library := by
  intro other found number plain
  rw [number_dismiss] at number
  split at number
  · rename_i same
    obtain rfl := Site.rule.inj same
    exact ⟨decl, here⟩
  · exact direct other found number plain

theorem fill (direct : draft.Direct library) (id : RuleId) (rule : Rule) :
    (draft.fill id rule).Direct library :=
  direct

theorem room (direct : draft.Direct library) : draft.room.Direct library := direct

theorem laid (direct : draft.Direct library) (table : List (String × RuleDecl)) :
    (draft.laid table).Direct library :=
  direct

end Draft.Direct

namespace Compile

variable {library : Library} {tasks : List Task} {draft last : Draft}
  {found : List (Option RuleId)} {met : List (Place × Surroundings)}

theorem Runs.direct (runs : Runs library tasks draft found last met) (tidy : library.Tidy)
    (placed : ∀ task ∈ tasks, library.Placed task) (resolved : ∀ task ∈ tasks, task.Resolved)
    (direct : draft.Direct library) : last.Direct library := by
  induction runs with
  | none | nowhere | wholeKnown | ruleKnown | groupKnown => exact direct
  | more _ _ first further =>
    obtain ⟨here, others⟩ := List.forall_mem_cons.mp placed
    obtain ⟨ends, others'⟩ := List.forall_mem_cons.mp resolved
    exact further others others' (first (List.forall_mem_singleton.mpr here)
      (List.forall_mem_singleton.mpr ends) direct)
  | leads leads _ ih =>
    obtain ⟨declared, plain, written⟩ := placed _ List.mem_cons_self
    exact ih (List.forall_mem_singleton.mpr
      (Library.placed_task tidy.keyed declared plain written leads))
        (List.forall_mem_singleton.mpr (resolved_task leads)) direct
  | malformed =>
    obtain ⟨declared, _, _⟩ := placed _ List.mem_cons_self
    exact direct.dismiss ⟨declared, resolved _ List.mem_cons_self⟩
  | whole _ _ ih =>
    exact (ih (Library.placed_whole (placed _ List.mem_cons_self)) (resolved_listing _ _)
      (direct.enterWhole _)).fill _ _
  | rule _ _ _ _ _ lists first second =>
    obtain ⟨declared, _, written⟩ := placed _ List.mem_cons_self
    have refers := resolved _ List.mem_cons_self
    have inner := lists (Library.placed_nested declared written) (resolved_listing _ _)
      (direct.enterRule ⟨declared, refers⟩)
    have middle := first (Library.placed_groups tidy declared written
      (RulePatterns.firstTable_given _ _)) (resolved_grouping _ _ _ _) (inner.laid _)
    exact (second (Library.placed_groups tidy declared written
      (RulePatterns.secondTable_given _ _)) (resolved_grouping _ _ _ _) (middle.laid _)).fill _ _
  | bareGroup =>
    obtain ⟨_, group, _⟩ := placed _ List.mem_cons_self
    exact (direct.enterGroup group).fill _ _
  | group _ _ _ ih =>
    obtain ⟨declared, group, written⟩ := placed _ List.mem_cons_self
    exact ((ih (Library.placed_nested declared written) (resolved_listing _ _)
      (direct.enterGroup group).room).fill _ _).fill _ _

theorem graph_direct (tidy : library.Tidy) :
    ((graph library).run Draft.empty).2.Direct library := by
  obtain ⟨root, found, last, met, runs, run⟩ := graph_runs tidy
  rw [run]
  exact runs.direct tidy (Library.placed_agenda tidy) (resolved_agenda library)
    fun _ _ here => by simp [Draft.number_empty] at here

end Compile

def Library.Reached (library : Library) (place : Place) : Prop :=
  (((Compile.graph library).run Draft.empty).2.number (.rule place)).isSome = true

theorem RulePatterns.opening_of_absent {rule : RuleDecl}
    (paired : rule.pattern = none → rule.IsPaired) (absent : ofDecl? rule = some .absent) :
    rule.opening = none := by
  unfold ofDecl? at absent
  split at absent
  · obtain ⟨_, _, same⟩ := Option.map_eq_some_iff.mp absent
    exact nomatch same
  · assumption
  · rename_i opening plain opens
    rcases paired plain with ⟨none, -, -⟩ | ⟨-, one⟩
    · exact none
    · split at absent
      · exact nomatch absent
      · split at absent
        · obtain ⟨_, _, same⟩ := Option.map_eq_some_iff.mp absent
          exact nomatch same
        · obtain ⟨_, _, same⟩ := Option.map_eq_some_iff.mp absent
          exact nomatch same
        · rename_i closing continuing
          simp [closing, continuing] at one

/-- Validation looks at every rule of a grammar. Where patterns of a grammar that has passed it are
compiled, there is never one to begin with and none to end or go on with. -/
theorem GrammarDecl.validate_reaches (grammar : GrammarDecl) :
    (grammar.validate = .ok () ↔
      grammar.IsNamed ∧ ∀ rule, grammar.Declares rule → rule.Complete) ∧
    (grammar.validate = .ok () → ∀ library : Library, library.Tidy →
      library.grammar? grammar.scopeName = some grammar → ∀ steps,
        let place : Place := ⟨grammar.scopeName, steps⟩
        library.Reached place → place.isGroup = false →
          ∃ rule, grammar.rule? steps = some rule ∧ grammar.Declares rule ∧
            rule.reference = none ∧ (rule.pattern = none → rule.IsPaired) ∧
              (RulePatterns.ofDecl? rule = some .absent → rule.opening = none)) := by
  refine ⟨⟨complete_of_validate, fun holds => validate_of_complete holds.1 holds.2⟩, ?_⟩
  intro accepted library tidy stored steps place reached plain
  obtain ⟨found, number⟩ := Option.isSome_iff_exists.mp reached
  obtain ⟨rule, here, refers⟩ := Compile.graph_direct tidy place found number plain
  have inside : grammar.rule? steps = some rule := by
    rw [Library.rule?, stored] at here
    exact here
  have declared := declares_of_rule? inside
  have paired := ((complete_of_validate accepted).2 rule declared).paired refers
  exact ⟨rule, inside, declared, refers, paired, RulePatterns.opening_of_absent paired⟩

open RuleDecl (word referring bracketed)

def GrammarDecl.braced : GrammarDecl :=
  let pair := { bracketed "$self" with captures := some [("0", word "pair"), ("+1", word "inner")] }
  ⟨some "t", none, [referring "#pair"], [("pair", pair)], [], none, [], [], none⟩

theorem GrammarDecl.validate_reaches_braced :
    (braced.IsNamed ∧ ∀ rule, braced.Declares rule → rule.Complete) ∧
      ∃ rule, braced.rule? [.entry "pair"] = some rule ∧ rule.IsPaired ∧
        rule.opening = some "<" ∧ RulePatterns.ofDecl? rule ≠ some .absent := by
  obtain ⟨valid, reaches⟩ := validate_reaches braced
  have accepted : braced.validate = .ok () := by cbv
  obtain ⟨rule, inside, -, -, paired, formed⟩ := reaches accepted ⟨braced, Repository.empty⟩
    (Library.tidy_of_isTidy (by cbv)) (by cbv) [.entry "pair"] (by cbv) rfl
  obtain rfl := Option.some.inj inside
  exact ⟨valid.mp accepted, _, rfl, paired rfl, rfl,
    fun absent => Option.some_ne_none _ (formed absent)⟩

example :
    let group := { word "x" with pattern := none, opening := some "<" }
    let pair := { bracketed "$self" with closingCaptures := some [("1", group)] }
    { GrammarDecl.braced with repository := [("pair", pair)] }.validate =
      .error (.malformedRule "repository.pair.endCaptures.1" .openingAlone) := by
  cbv

end Highlighter
