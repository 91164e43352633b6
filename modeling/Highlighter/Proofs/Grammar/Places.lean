import Highlighter.Grammar.Reference
import Mathlib

set_option autoImplicit false

namespace Highlighter

namespace RuleDecl

def captured (rule : RuleDecl) : CaptureField → Option (List (String × RuleDecl))
  | .all => rule.captures
  | .opening => rule.openingCaptures
  | .closing => rule.closingCaptures
  | .continuing => rule.continuingCaptures

def part? (rule : RuleDecl) : PlaceStep → Option RuleDecl
  | .pattern index => (rule.nested.getD [])[index]?
  | .entry name => (rule.repository.getD []).lookup name
  | .capture field key => ((rule.captured field).getD []).lookup key
  | .injection _ => none

mutual

def ways (steps : List PlaceStep) : RuleDecl → List (List PlaceStep)
  | ⟨_, _, _, _, captures, _, openingCaptures, _, closingCaptures, _, continuingCaptures, nested,
      repository, _⟩ =>
    steps :: (tableWays (.capture .all) steps captures ++
      tableWays (.capture .opening) steps openingCaptures ++
      tableWays (.capture .closing) steps closingCaptures ++
      tableWays (.capture .continuing) steps continuingCaptures ++
      tableWays .entry steps repository ++
      nestedWays steps nested)

def nestedWays (steps : List PlaceStep) : Option (List RuleDecl) → List (List PlaceStep)
  | none => []
  | some rules => listWays steps 0 rules

def tableWays (step : String → PlaceStep) (steps : List PlaceStep) :
    Option (List (String × RuleDecl)) → List (List PlaceStep)
  | none => []
  | some table => entriesWays step steps table

def entriesWays (step : String → PlaceStep) (steps : List PlaceStep) :
    List (String × RuleDecl) → List (List PlaceStep)
  | [] => []
  | (key, rule) :: rest => ways (step key :: steps) rule ++ entriesWays step steps rest

def listWays (steps : List PlaceStep) (index : Nat) : List RuleDecl → List (List PlaceStep)
  | [] => []
  | rule :: rest => ways (.pattern index :: steps) rule ++ listWays steps (index + 1) rest

end

mutual

theorem length_ways (steps : List PlaceStep) : (rule : RuleDecl) →
    (rule.ways steps).length = rule.size
  | ⟨_, _, _, _, captures, _, openingCaptures, _, closingCaptures, _, continuingCaptures, nested,
      repository, _⟩ => by
    simp only [ways, List.length_cons, List.length_append, length_tableWays]
    cases nested with
    | none =>
      simp only [nestedWays, size, List.length_nil]
      omega
    | some rules =>
      simp only [nestedWays, size, length_listWays]
      omega

theorem length_tableWays (step : String → PlaceStep) (steps : List PlaceStep) :
    (table : Option (List (String × RuleDecl))) →
      (tableWays step steps table).length = tableSize table
  | none => rfl
  | some table => length_entriesWays step steps table

theorem length_entriesWays (step : String → PlaceStep) (steps : List PlaceStep) :
    (table : List (String × RuleDecl)) →
      (entriesWays step steps table).length = entriesSize table
  | [] => rfl
  | (key, rule) :: rest => by
    simp only [entriesWays, entriesSize, List.length_append, length_ways,
      length_entriesWays step steps rest]

theorem length_listWays (steps : List PlaceStep) (index : Nat) : (rules : List RuleDecl) →
    (listWays steps index rules).length = listSize rules
  | [] => rfl
  | rule :: rest => by
    simp only [listWays, listSize, List.length_append, length_ways,
      length_listWays steps (index + 1) rest]

end

theorem mem_ways (rule : RuleDecl) (steps : List PlaceStep) : steps ∈ rule.ways steps := by
  cases rule
  exact List.mem_cons_self

theorem entriesWays_of_lookup (step : String → PlaceStep) (steps : List PlaceStep) (key : String)
    (rule : RuleDecl) (table : List (String × RuleDecl)) (found : table.lookup key = some rule) :
    rule.ways (step key :: steps) ⊆ entriesWays step steps table := by
  induction table with
  | nil => simp at found
  | cons entry rest ih =>
    obtain ⟨other, first⟩ := entry
    rw [List.lookup_cons] at found
    simp only [entriesWays]
    split at found
    · rename_i same
      obtain rfl := Option.some.inj found
      obtain rfl := beq_iff_eq.mp same
      exact List.subset_append_left _ _
    · exact List.subset_append_of_subset_right _ (ih found)

theorem tableWays_of_lookup (step : String → PlaceStep) (steps : List PlaceStep) (key : String)
    (rule : RuleDecl) (table : Option (List (String × RuleDecl)))
    (found : (table.getD []).lookup key = some rule) :
    rule.ways (step key :: steps) ⊆ tableWays step steps table := by
  cases table with
  | none => simp at found
  | some table => exact entriesWays_of_lookup step steps key rule table found

theorem listWays_of_getElem? (steps : List PlaceStep) (start index : Nat) (rule : RuleDecl)
    (rules : List RuleDecl) (found : rules[index]? = some rule) :
    rule.ways (.pattern (start + index) :: steps) ⊆ listWays steps start rules := by
  induction rules generalizing start index with
  | nil => simp at found
  | cons first rest ih =>
    simp only [listWays]
    cases index with
    | zero =>
      obtain rfl := Option.some.inj found
      exact List.subset_append_left _ _
    | succ index =>
      have inner := ih (start + 1) index found
      rw [Nat.add_right_comm] at inner
      exact List.subset_append_of_subset_right _ inner

theorem ways_of_part? (rule part : RuleDecl) (steps : List PlaceStep) (step : PlaceStep)
    (found : rule.part? step = some part) : part.ways (step :: steps) ⊆ rule.ways steps := by
  intro way member
  obtain ⟨_, _, _, _, captures, _, opening, _, closing, _, continuing, nested, repository, _⟩ := rule
  rw [ways]
  cases step with
  | pattern index =>
    cases nested with
    | none => simp [part?] at found
    | some rules =>
      have inner := listWays_of_getElem? steps 0 index part rules (by simpa [part?] using found)
      rw [Nat.zero_add] at inner
      simp [nestedWays, inner member]
  | entry name =>
    simp [tableWays_of_lookup .entry steps name part repository found member]
  | capture field key =>
    cases field with
    | all => simp [tableWays_of_lookup (.capture .all) steps key part captures found member]
    | opening => simp [tableWays_of_lookup (.capture .opening) steps key part opening found member]
    | closing => simp [tableWays_of_lookup (.capture .closing) steps key part closing found member]
    | continuing =>
      simp [tableWays_of_lookup (.capture .continuing) steps key part continuing found member]
  | injection selector => simp [part?] at found

end RuleDecl

namespace GrammarDecl

def part? (grammar : GrammarDecl) : List PlaceStep → PlaceStep → Option RuleDecl
  | [], .pattern index => grammar.patterns[index]?
  | [], .entry name => grammar.repository.lookup name
  | [], .injection selector => grammar.injections.lookup selector
  | [], .capture _ _ => none
  | last :: steps, step => (grammar.part? steps last).bind (·.part? step)

def rule? (grammar : GrammarDecl) : List PlaceStep → Option RuleDecl
  | [] => none
  | last :: steps => grammar.part? steps last

theorem part?_of_rule? {grammar : GrammarDecl} {steps : List PlaceStep} {rule : RuleDecl}
    (here : grammar.rule? steps = some rule) (step : PlaceStep) :
    grammar.part? steps step = rule.part? step := by
  cases steps with
  | nil => simp [rule?] at here
  | cons last steps =>
    rw [rule?] at here
    rw [part?, here, Option.bind_some]

def ways (grammar : GrammarDecl) : List (List PlaceStep) :=
  RuleDecl.listWays [] 0 grammar.patterns ++ RuleDecl.entriesWays .entry [] grammar.repository ++
    RuleDecl.entriesWays .injection [] grammar.injections

theorem length_ways (grammar : GrammarDecl) : grammar.ways.length = grammar.ruleCount := by
  simp only [ways, ruleCount, List.length_append, RuleDecl.length_listWays,
    RuleDecl.length_entriesWays]

theorem ways_of_part? (grammar : GrammarDecl) (steps : List PlaceStep) (step : PlaceStep)
    (rule : RuleDecl) (found : grammar.part? steps step = some rule) :
    rule.ways (step :: steps) ⊆ grammar.ways := by
  intro way member
  induction steps generalizing step rule with
  | nil =>
    unfold ways
    cases step with
    | pattern index =>
      have inner := RuleDecl.listWays_of_getElem? [] 0 index rule grammar.patterns found
      rw [Nat.zero_add] at inner
      simp [inner member]
    | entry name => simp [RuleDecl.entriesWays_of_lookup .entry [] name rule _ found member]
    | capture field key => simp [part?] at found
    | injection selector =>
      simp [RuleDecl.entriesWays_of_lookup .injection [] selector rule _ found member]
  | cons last steps ih =>
    obtain ⟨outer, here, inner⟩ := Option.bind_eq_some_iff.mp found
    exact ih last outer here (RuleDecl.ways_of_part? outer rule (last :: steps) step inner member)

theorem mem_ways_of_rule? (grammar : GrammarDecl) (steps : List PlaceStep) (rule : RuleDecl)
    (found : grammar.rule? steps = some rule) : steps ∈ grammar.ways := by
  cases steps with
  | nil => simp [rule?] at found
  | cons last steps =>
    exact ways_of_part? grammar steps last rule found (rule.mem_ways (last :: steps))

end GrammarDecl

namespace Library

def decls (library : Library) : List GrammarDecl :=
  library.base :: library.repository.grammars.map (·.2)

def places (library : Library) : List Place :=
  library.decls.flatMap fun grammar => grammar.ways.map (⟨grammar.scopeName, ·⟩)

theorem length_places (library : Library) : library.places.length = library.ruleCount := by
  have total (table : Table GrammarDecl) (count : Nat) :
      table.foldl (fun count entry => count + entry.2.ruleCount) count =
        count + (table.map (·.2.ruleCount)).sum := by
    induction table generalizing count with
    | nil => rfl
    | cons entry rest ih =>
      rw [List.foldl_cons, ih, List.map_cons, List.sum_cons, ← Nat.add_assoc]
  calc library.places.length
    _ = library.base.ruleCount + (library.repository.grammars.map (·.2.ruleCount)).sum := by
      simp [places, decls, List.length_flatMap, GrammarDecl.length_ways, Function.comp_def]
    _ = library.ruleCount := (total _ _).symm

theorem mem_decls_of_grammar? {library : Library} {scope : String} {grammar : GrammarDecl}
    (known : library.grammar? scope = some grammar) : grammar ∈ library.decls := by
  unfold grammar? at known
  split at known
  · simp [decls, Option.some.inj known]
  · exact List.mem_cons_of_mem _ (List.mem_map_of_mem (Table.mem_of_lookup known))

def Keyed (library : Library) : Prop :=
  ∀ scope grammar, library.grammar? scope = some grammar → grammar.scopeName = scope

def rule? (library : Library) (place : Place) : Option RuleDecl :=
  (library.grammar? place.grammar).bind (·.rule? place.steps)

theorem mem_places_of_rule? {library : Library} (keyed : library.Keyed) {place : Place}
    {rule : RuleDecl} (found : library.rule? place = some rule) : place ∈ library.places := by
  obtain ⟨grammar, known, here⟩ := Option.bind_eq_some_iff.mp found
  refine List.mem_flatMap.mpr ⟨grammar, mem_decls_of_grammar? known, List.mem_map.mpr
    ⟨place.steps, grammar.mem_ways_of_rule? place.steps rule here, ?_⟩⟩
  rw [keyed place.grammar grammar known]

/-- The library is stored as it was read: each grammar under its own scope, and no key twice in a
table. -/
structure Tidy (library : Library) : Prop where
  keyed : library.Keyed
  groups : ∀ place rule field table, library.rule? place = some rule →
    rule.captured field = some table → (table.map (·.1)).Nodup
  injections : (library.base.injections.map (·.1)).Nodup

def isTidy (library : Library) : Bool :=
  library.repository.grammars.all (fun (scope, grammar) => grammar.scopeName == scope) &&
    library.places.all (fun place => (library.rule? place).all fun rule =>
      [CaptureField.all, .opening, .closing, .continuing].all fun field =>
        (rule.captured field).all fun table => decide (table.map (·.1)).Nodup) &&
    decide (library.base.injections.map (·.1)).Nodup

theorem tidy_of_isTidy {library : Library} (checked : library.isTidy = true) : library.Tidy := by
  simp only [isTidy, Bool.and_eq_true, List.all_eq_true, decide_eq_true_eq] at checked
  obtain ⟨⟨scopes, groups⟩, injections⟩ := checked
  have keyed : library.Keyed := by
    intro scope grammar known
    unfold grammar? at known
    split at known
    · rename_i own
      rw [← Option.some.inj known, own]
    · exact beq_iff_eq.mp (scopes (scope, grammar) (Table.mem_of_lookup known))
  refine ⟨keyed, fun place rule field table here captured => ?_, injections⟩
  have checked := groups place (mem_places_of_rule? keyed here)
  simp only [here, Option.all_some, List.all_eq_true] at checked
  have fields := checked field (by cases field <;> simp)
  simpa [captured] using fields

end Library

end Highlighter
