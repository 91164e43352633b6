import Highlighter.Proofs.Grammar.Following

set_option autoImplicit false

namespace Highlighter

variable (gone : Place → Bool)

namespace Place

def shiftStep (place : Place) : PlaceStep → PlaceStep
  | .pattern index =>
    .pattern (Nat.count (fun other => gone (place.into (.pattern other)) = false) index)
  | step => step

def shiftSteps (grammar : String) : List PlaceStep → List PlaceStep
  | [] => []
  | step :: outer => shiftStep gone ⟨grammar, outer⟩ step :: shiftSteps grammar outer

def shift (place : Place) : Place := ⟨place.grammar, shiftSteps gone place.grammar place.steps⟩

def isGone (place : Place) : Bool :=
  match place.steps with
  | .pattern _ :: _ => gone place
  | _ => false

def StaysAt (grammar : String) : List PlaceStep → Prop
  | [] => True
  | step :: outer => isGone gone ⟨grammar, step :: outer⟩ = false ∧ StaysAt grammar outer

def Stays (place : Place) : Prop := StaysAt gone place.grammar place.steps

variable {gone} {place other : Place}

theorem shift_into (place : Place) (step : PlaceStep) :
    (place.into step).shift gone = (place.shift gone).into (place.shiftStep gone step) := rfl

theorem isGone_pattern (place : Place) (index : Nat) :
    (place.into (.pattern index)).isGone gone = gone (place.into (.pattern index)) := rfl

theorem gone_of_isGone (isGone : place.isGone gone = true) : gone place = true := by
  obtain ⟨grammar, steps⟩ := place
  rcases steps with _ | ⟨_ | _ | _ | _, _⟩
  all_goals first | exact isGone | exact nomatch isGone

theorem isGroup_shift (place : Place) : (place.shift gone).isGroup = place.isGroup := by
  obtain ⟨grammar, steps⟩ := place
  rcases steps with _ | ⟨_ | _ | _ | _, _⟩ <;> rfl

theorem shiftStep_inj {one two : PlaceStep} (first : (place.into one).isGone gone = false)
    (second : (place.into two).isGone gone = false)
    (same : place.shiftStep gone one = place.shiftStep gone two) : one = two := by
  cases one <;> cases two <;> try exact same
  · exact congrArg _ (Nat.count_injective first second (PlaceStep.pattern.inj same))
  all_goals exact nomatch same

theorem shiftSteps_inj {grammar : String} {steps others : List PlaceStep}
    (first : StaysAt gone grammar steps) (second : StaysAt gone grammar others)
    (same : shiftSteps gone grammar steps = shiftSteps gone grammar others) : steps = others := by
  induction steps generalizing others with
  | nil =>
    cases others with
    | nil => rfl
    | cons => exact nomatch same
  | cons step outer ih =>
    cases others with
    | nil => exact nomatch same
    | cons last others =>
      obtain ⟨same, rest⟩ := List.cons.inj same
      obtain rfl := ih first.2 second.2 rest
      rw [shiftStep_inj first.1 second.1 same]

theorem shift_inj (first : place.Stays gone) (second : other.Stays gone)
    (same : place.shift gone = other.shift gone) : place = other := by
  obtain ⟨grammar, steps⟩ := place
  obtain ⟨_, others⟩ := other
  obtain ⟨rfl, same⟩ := Place.mk.inj same
  exact congrArg (Place.mk grammar) (shiftSteps_inj first second same)

end Place

namespace RuleDecl

mutual

def without (place : Place) : RuleDecl → RuleDecl
  | ⟨reference, name, contentName, pattern, captures, opening, openingCaptures, closing,
      closingCaptures, continuing, continuingCaptures, nested, repository, closingLast⟩ =>
    ⟨reference, name, contentName, pattern, tableWithout (.capture .all) place captures, opening,
      tableWithout (.capture .opening) place openingCaptures, closing,
      tableWithout (.capture .closing) place closingCaptures, continuing,
      tableWithout (.capture .continuing) place continuingCaptures, nestedWithout place nested,
      tableWithout .entry place repository, closingLast⟩

def nestedWithout (place : Place) : Option (List RuleDecl) → Option (List RuleDecl)
  | none => none
  | some rules => some (listWithout place 0 rules)

def tableWithout (step : String → PlaceStep) (place : Place) :
    Option (List (String × RuleDecl)) → Option (List (String × RuleDecl))
  | none => none
  | some table => some (entriesWithout step place table)

def entriesWithout (step : String → PlaceStep) (place : Place) :
    List (String × RuleDecl) → List (String × RuleDecl)
  | [] => []
  | (key, rule) :: rest =>
    (key, without (place.into (step key)) rule) :: entriesWithout step place rest

def listWithout (place : Place) (index : Nat) : List RuleDecl → List RuleDecl
  | [] => []
  | rule :: rest =>
    if gone (place.into (.pattern index)) then listWithout place (index + 1) rest
    else without (place.into (.pattern index)) rule :: listWithout place (index + 1) rest

end

variable {gone} {place : Place} {decl : RuleDecl}

theorem reference_without (place : Place) (decl : RuleDecl) :
    (decl.without gone place).reference = decl.reference := by cases decl; rfl

theorem repository_without (place : Place) (decl : RuleDecl) :
    (decl.without gone place).repository = tableWithout gone .entry place decl.repository := by
  cases decl; rfl

theorem captured_without (place : Place) (decl : RuleDecl) (field : CaptureField) :
    (decl.without gone place).captured field =
      tableWithout gone (.capture field) place (decl.captured field) := by
  cases decl; cases field <;> rfl

theorem nested_without (place : Place) (decl : RuleDecl) :
    (decl.without gone place).nested.getD [] = listWithout gone place 0 (decl.nested.getD []) := by
  cases decl with
  | mk => rename_i nested _ _; cases nested <;> rfl

theorem ofDecl?_without (place : Place) (decl : RuleDecl) :
    RulePatterns.ofDecl? (decl.without gone place) = RulePatterns.ofDecl? decl := by cases decl; rfl

theorem templates_without (place : Place) (decl : RuleDecl) (kind : RuleKind) :
    Compile.templates (decl.without gone place) kind = Compile.templates decl kind := by
  cases decl; rfl

theorem closingLast_without (place : Place) (decl : RuleDecl) :
    (decl.without gone place).closingLast = decl.closingLast := by cases decl; rfl

theorem entriesWithout_eq (step : String → PlaceStep) (place : Place)
    (table : List (String × RuleDecl)) : entriesWithout gone step place table =
      table.map fun (key, rule) => (key, rule.without gone (place.into (step key))) := by
  induction table with
  | nil => rfl
  | cons entry rest ih => rw [entriesWithout, ih, List.map_cons]

theorem lookup_entriesWithout (step : String → PlaceStep) (place : Place)
    (table : List (String × RuleDecl)) (key : String) :
    (entriesWithout gone step place table).lookup key =
      (table.lookup key).map (·.without gone (place.into (step key))) := by
  induction table with
  | nil => rfl
  | cons entry rest ih =>
    obtain ⟨other, rule⟩ := entry
    rw [entriesWithout, List.lookup_cons, List.lookup_cons]
    split
    · rename_i same
      rw [beq_iff_eq.mp same, Option.map_some]
    · exact ih

theorem numberedPlaces_without (place : Place) (rules : List RuleDecl) :
    Compile.numberedPlaces (place.shift gone) (listWithout gone place 0 rules) =
      ((Compile.numberedPlaces place rules).filter fun item => !item.1.isGone gone).map
        fun item => (item.1.shift gone, item.2.without gone item.1) := by
  let keep (index : Nat) : Prop := gone (place.into (.pattern index)) = false
  have shifted (start : Nat) :
      ((listWithout gone place start rules).zipIdx (Nat.count keep start)).map
          (fun item => ((place.shift gone).into (.pattern item.2), item.1)) =
        (((rules.zipIdx start).map fun item => (place.into (.pattern item.2), item.1)).filter
          fun item => !item.1.isGone gone).map
            fun item => (item.1.shift gone, item.2.without gone item.1) := by
    induction rules generalizing start with
    | nil => rfl
    | cons rule rest ih =>
      have next := ih (start + 1)
      rw [Nat.count_succ] at next
      rw [listWithout, List.zipIdx_cons, List.map_cons, List.filter_cons]
      cases here : gone (place.into (.pattern start)) with
      | true => simpa [keep, Place.isGone_pattern, here] using next
      | false =>
        simp only [keep, Place.isGone_pattern, here, if_true, Bool.false_eq_true, if_false,
          Bool.not_false] at next ⊢
        rw [List.zipIdx_cons, List.map_cons, List.map_cons, next]
        rfl
  exact shifted 0

theorem getElem?_listWithout {place : Place} {rules : List RuleDecl} {index : Nat} {part : RuleDecl} :
    (listWithout gone place 0 rules)[index]? = some part ↔
      ∃ old rule, rules[old]? = some rule ∧ (place.into (.pattern old)).isGone gone = false ∧
        place.shiftStep gone (.pattern old) = .pattern index ∧
          rule.without gone (place.into (.pattern old)) = part := by
  have listed : (listWithout gone place 0 rules)[index]? = some part ↔
      ((place.shift gone).into (.pattern index), part) ∈
        Compile.numberedPlaces (place.shift gone) (listWithout gone place 0 rules) := by
    rw [Compile.mem_numberedPlaces]
    constructor
    · exact fun here => ⟨index, here, rfl⟩
    · rintro ⟨other, here, same⟩
      obtain ⟨-, same⟩ := Place.mk.inj same
      obtain rfl := PlaceStep.pattern.inj (List.cons.inj same).1
      exact here
  rw [listed, numberedPlaces_without, List.mem_map]
  constructor
  · rintro ⟨⟨old, rule⟩, kept, same⟩
    obtain ⟨member, stays⟩ := List.mem_filter.mp kept
    obtain ⟨number, here, rfl⟩ := Compile.mem_numberedPlaces.mp member
    obtain ⟨moved, rfl⟩ := Prod.mk.inj same
    refine ⟨number, rule, here, by simpa using stays, ?_, rfl⟩
    exact (List.cons.inj (Place.mk.inj moved).2).1
  · rintro ⟨old, rule, here, stays, moved, rfl⟩
    refine ⟨(place.into (.pattern old), rule), List.mem_filter.mpr ⟨?_, by simpa using stays⟩, ?_⟩
    · exact Compile.mem_numberedPlaces.mpr ⟨old, here, rfl⟩
    · rw [Place.shift_into, moved]

theorem part?_without {next : PlaceStep} {part : RuleDecl} :
    (decl.without gone place).part? next = some part ↔
      ∃ step rule, decl.part? step = some rule ∧ (place.into step).isGone gone = false ∧
        place.shiftStep gone step = next ∧ rule.without gone (place.into step) = part := by
  have table (step : String → PlaceStep) (table : Option (List (String × RuleDecl))) (key : String) :
      ((tableWithout gone step place table).getD []).lookup key =
        ((table.getD []).lookup key).map (·.without gone (place.into (step key))) := by
    cases table with
    | none => rfl
    | some table => exact lookup_entriesWithout step place table key
  constructor
  · intro here
    cases next with
    | pattern index =>
      rw [part?, nested_without, getElem?_listWithout] at here
      obtain ⟨old, rule, here, stays, moved, same⟩ := here
      exact ⟨.pattern old, rule, here, stays, moved, same⟩
    | entry name =>
      rw [part?, repository_without, table, Option.map_eq_some_iff] at here
      obtain ⟨rule, here, same⟩ := here
      exact ⟨.entry name, rule, here, rfl, rfl, same⟩
    | capture field key =>
      rw [part?, captured_without, table, Option.map_eq_some_iff] at here
      obtain ⟨rule, here, same⟩ := here
      exact ⟨.capture field key, rule, here, rfl, rfl, same⟩
    | injection selector => cases here
  · rintro ⟨step, rule, here, stays, rfl, rfl⟩
    cases step with
    | pattern old =>
      change (decl.without gone place).part? (.pattern _) = _
      rw [part?, nested_without]
      exact getElem?_listWithout.mpr ⟨old, rule, here, stays, rfl, rfl⟩
    | entry name =>
      change (decl.without gone place).part? (.entry name) = _
      rw [part?] at here
      rw [part?, repository_without, table, here, Option.map_some]
    | capture field key =>
      change (decl.without gone place).part? (.capture field key) = _
      rw [part?] at here
      rw [part?, captured_without, table, here, Option.map_some]
    | injection selector => cases here

end RuleDecl

namespace GrammarDecl

def without (grammar : GrammarDecl) : GrammarDecl :=
  let root := Surroundings.root grammar
  { grammar with
    patterns := RuleDecl.listWithout gone root 0 grammar.patterns
    repository := RuleDecl.entriesWithout gone .entry root grammar.repository
    injections := RuleDecl.entriesWithout gone .injection root grammar.injections }

variable {gone} {grammar : GrammarDecl}

theorem part?_without_nil {next : PlaceStep} {part : RuleDecl} :
    (grammar.without gone).part? [] next = some part ↔
      ∃ step rule, grammar.part? [] step = some rule ∧
        ((Surroundings.root grammar).into step).isGone gone = false ∧
        (Surroundings.root grammar).shiftStep gone step = next ∧
          rule.without gone ((Surroundings.root grammar).into step) = part := by
  constructor
  · intro here
    cases next with
    | pattern index =>
      obtain ⟨old, rule, here, stays, moved, same⟩ := RuleDecl.getElem?_listWithout.mp here
      exact ⟨.pattern old, rule, here, stays, moved, same⟩
    | entry name =>
      rw [part?, without, RuleDecl.lookup_entriesWithout, Option.map_eq_some_iff] at here
      obtain ⟨rule, here, same⟩ := here
      exact ⟨.entry name, rule, here, rfl, rfl, same⟩
    | capture field key => cases here
    | injection selector =>
      rw [part?, without, RuleDecl.lookup_entriesWithout, Option.map_eq_some_iff] at here
      obtain ⟨rule, here, same⟩ := here
      exact ⟨.injection selector, rule, here, rfl, rfl, same⟩
  · rintro ⟨step, rule, here, stays, rfl, rfl⟩
    cases step with
    | pattern old => exact RuleDecl.getElem?_listWithout.mpr ⟨old, rule, here, stays, rfl, rfl⟩
    | entry name =>
      change (grammar.without gone).part? [] (.entry name) = _
      rw [part?] at here
      rw [part?, without, RuleDecl.lookup_entriesWithout, here, Option.map_some]
    | capture field key => cases here
    | injection selector =>
      change (grammar.without gone).part? [] (.injection selector) = _
      rw [part?] at here
      rw [part?, without, RuleDecl.lookup_entriesWithout, here, Option.map_some]

theorem rule?_cons (grammar : GrammarDecl) (step last : PlaceStep) (outer : List PlaceStep) :
    grammar.rule? (step :: last :: outer) =
      (grammar.rule? (last :: outer)).bind (·.part? step) := rfl

theorem rule?_without {steps : List PlaceStep} {rule : RuleDecl} :
    (grammar.without gone).rule? steps = some rule ↔
      ∃ old decl, grammar.rule? old = some decl ∧ Place.StaysAt gone grammar.scopeName old ∧
        Place.shiftSteps gone grammar.scopeName old = steps ∧
          decl.without gone ⟨grammar.scopeName, old⟩ = rule := by
  induction steps generalizing rule with
  | nil =>
    constructor
    · exact fun here => nomatch here
    · rintro ⟨old, decl, here, _, moved, _⟩
      cases old with
      | nil => exact nomatch here
      | cons => exact nomatch moved
  | cons step outer ih =>
    constructor
    · intro here
      cases outer with
      | nil =>
        obtain ⟨old, decl, here, stays, moved, same⟩ := part?_without_nil.mp here
        exact ⟨[old], decl, here, ⟨stays, trivial⟩, congrArg ([·]) moved, same⟩
      | cons last outer =>
        rw [rule?_cons, Option.bind_eq_some_iff] at here
        obtain ⟨_, around, here⟩ := here
        obtain ⟨steps, whole, declared, stay, rest, rfl⟩ := ih.mp around
        obtain ⟨old, decl, part, stays, moved, same⟩ := RuleDecl.part?_without.mp here
        refine ⟨old :: steps, decl, ?_, ⟨stays, stay⟩, ?_, same⟩
        · rw [rule?, part?_of_rule? declared, part]
        · rw [Place.shiftSteps, rest, ← moved]
    · rintro ⟨old, decl, here, stays, moved, rfl⟩
      cases old with
      | nil => exact nomatch here
      | cons old steps =>
        obtain ⟨rfl, rfl⟩ := List.cons.inj moved
        cases steps with
        | nil => exact part?_without_nil.mpr ⟨old, decl, here, stays.1, rfl, rfl⟩
        | cons last steps =>
          rw [rule?_cons, Option.bind_eq_some_iff] at here
          obtain ⟨whole, declared, part⟩ := here
          have around := ih.mpr ⟨last :: steps, whole, declared, stays.2, rfl, rfl⟩
          rw [rule?, part?_of_rule? around]
          exact RuleDecl.part?_without.mpr ⟨old, decl, part, stays.1, rfl, rfl⟩

end GrammarDecl

namespace Library

def without (library : Library) : Library :=
  ⟨library.base.without gone, { library.repository with
    grammars := library.repository.grammars.map fun (scope, grammar) =>
      (scope, grammar.without gone) }⟩

variable {gone} {library : Library} {place : Place} {decl : RuleDecl}

theorem grammar?_without (scope : String) : (library.without gone).grammar? scope =
    (library.grammar? scope).map (·.without gone) := by
  have others := Table.get?_map library.repository.grammars (·.without gone) scope
  change (if scope = library.base.scopeName then some (library.base.without gone) else _) = _
  unfold grammar?
  split
  · rfl
  · exact others

theorem rule?_without (keyed : library.Keyed) {rule : RuleDecl} :
    (library.without gone).rule? place = some rule ↔ ∃ old decl, library.rule? old = some decl ∧
      old.Stays gone ∧ old.shift gone = place ∧ decl.without gone old = rule := by
  obtain ⟨scope, steps⟩ := place
  simp only [rule?, grammar?_without, Option.bind_eq_some_iff, Option.map_eq_some_iff]
  constructor
  · rintro ⟨_, ⟨grammar, stored, rfl⟩, here⟩
    obtain ⟨old, decl, there, stays, rfl, rfl⟩ := GrammarDecl.rule?_without.mp here
    obtain rfl := keyed _ _ stored
    exact ⟨⟨grammar.scopeName, old⟩, decl, ⟨grammar, stored, there⟩, stays, rfl, rfl⟩
  · rintro ⟨⟨home, old⟩, decl, ⟨grammar, stored, here⟩, stays, moved, rfl⟩
    obtain ⟨rfl, rfl⟩ := Place.mk.inj moved
    obtain rfl := keyed _ _ stored
    exact ⟨_, ⟨grammar, stored, rfl⟩,
      GrammarDecl.rule?_without.mpr ⟨old, decl, here, stays, rfl, rfl⟩⟩

theorem table?_without (keyed : library.Keyed) {table : List (String × RuleDecl)}
    (stays : place.Stays gone) (here : library.table? place = some table) :
    (library.without gone).table? (place.shift gone) =
      some (RuleDecl.entriesWithout gone .entry place table) := by
  obtain ⟨scope, steps⟩ := place
  obtain ⟨grammar, stored, here⟩ := Option.bind_eq_some_iff.mp here
  have stored' : (library.without gone).grammar? scope = some (grammar.without gone) := by
    rw [grammar?_without, stored, Option.map_some]
  obtain rfl := keyed _ _ stored
  refine Option.bind_eq_some_iff.mpr ⟨_, stored', ?_⟩
  cases steps with
  | nil =>
    obtain rfl := Option.some.inj here
    rfl
  | cons step outer =>
    obtain ⟨decl, declared, here⟩ := Option.bind_eq_some_iff.mp here
    have moved := GrammarDecl.rule?_without.mpr ⟨step :: outer, decl, declared, stays, rfl, rfl⟩
    refine Option.bind_eq_some_iff.mpr ⟨_, moved, ?_⟩
    rw [RuleDecl.repository_without, here]
    rfl

theorem keyed_without (keyed : library.Keyed) : (library.without gone).Keyed := by
  intro scope grammar stored
  rw [grammar?_without, Option.map_eq_some_iff] at stored
  obtain ⟨grammar, stored, rfl⟩ := stored
  exact keyed scope grammar stored

theorem tidy_without (tidy : library.Tidy) : (library.without gone).Tidy where
  keyed := keyed_without tidy.keyed
  groups := fun place rule field table here given => by
    obtain ⟨old, decl, declared, _, rfl, rfl⟩ := (rule?_without tidy.keyed).mp here
    rw [RuleDecl.captured_without] at given
    cases captured : decl.captured field with
    | none => simp [captured, RuleDecl.tableWithout] at given
    | some entries =>
      rw [captured, RuleDecl.tableWithout, RuleDecl.entriesWithout_eq] at given
      obtain rfl := Option.some.inj given
      rw [List.map_map]
      exact tidy.groups old decl field entries declared captured
  injections := by
    change ((RuleDecl.entriesWithout gone _ _ library.base.injections).map (·.1)).Nodup
    rw [RuleDecl.entriesWithout_eq, List.map_map]
    exact tidy.injections

end Library

namespace Surroundings

def without (around : Surroundings) : Surroundings :=
  ⟨around.grammar.without gone, around.repositories.map fun (place, table) =>
    (place.shift gone, RuleDecl.entriesWithout gone .entry place table)⟩

def Stays (around : Surroundings) : Prop :=
  ∀ repository ∈ around.repositories, repository.1.Stays gone

variable {gone} {around : Surroundings} {place : Place}

theorem stays_ofGrammar (grammar : GrammarDecl) : (ofGrammar grammar).Stays gone := by
  intro repository only
  obtain rfl := List.mem_singleton.mp only
  trivial

theorem within_without (around : Surroundings) (place : Place) (decl : RuleDecl) :
    (around.without gone).within (place.shift gone) (decl.without gone place) =
      (around.within place decl).without gone := by
  unfold within
  rw [RuleDecl.repository_without]
  cases decl.repository <;> rfl

theorem Stays.within (stays : around.Stays gone) (stay : place.Stays gone) (decl : RuleDecl) :
    (around.within place decl).Stays gone := by
  unfold Surroundings.within
  split
  · exact List.forall_mem_cons.mpr ⟨stay, stays⟩
  · exact stays

theorem lookup?_without (around : Surroundings) (name : String) :
    (around.without gone).lookup? name =
      (around.lookup? name).map fun (place, rule) => (place.shift gone, rule.without gone place) := by
  obtain ⟨grammar, repositories⟩ := around
  unfold lookup? without
  dsimp only
  induction repositories with
  | nil => rfl
  | cons repository rest ih =>
    rw [List.map_cons, List.findSome?_cons, List.findSome?_cons, RuleDecl.lookup_entriesWithout]
    cases repository.2.lookup name with
    | none => exact ih
    | some rule => rfl

theorem Stays.lookup? (stays : around.Stays gone) {name : String} {rule : RuleDecl}
    (found : around.lookup? name = some (place, rule)) : place.Stays gone := by
  obtain ⟨repository, member, here⟩ := List.exists_of_findSome?_eq_some found
  obtain ⟨_, _, same⟩ := Option.map_eq_some_iff.mp here
  obtain ⟨rfl, -⟩ := Prod.mk.inj same
  exact ⟨rfl, stays repository member⟩

end Surroundings

def Destination.without : Destination → Destination
  | .grammar decl => .grammar (decl.without gone)
  | .rule place decl around =>
    .rule (place.shift gone) (decl.without gone place) (around.without gone)

def Lead.without : Lead → Lead
  | .nowhere => .nowhere
  | .round => .round
  | .towards destination => .towards (destination.without gone)

variable {gone} in
theorem Lead.without_eq_iff {lead : Lead} {last : Option Destination} :
    lead.without gone = .ofEnd last ↔
      ∃ ending, lead = .ofEnd ending ∧ ending.map (Destination.without gone) = last := by
  constructor
  · intro same
    cases lead with
    | nowhere => exact ⟨none, rfl, Lead.ofEnd_inj _ _ same⟩
    | towards destination => exact ⟨some destination, rfl, Lead.ofEnd_inj _ _ same⟩
    | round => cases last <;> exact nomatch same
  · rintro ⟨ending, rfl, rfl⟩
    cases ending <;> rfl

namespace Library

def Stride.without : Stride → Stride
  | .ended destination => .ended (destination.without gone)
  | .on around place text => .on (around.without gone) (place.shift gone) text

variable {gone} {library : Library} {around : Surroundings}

theorem Written.without (written : library.Written around) (keyed : library.Keyed)
    (stays : around.Stays gone) : (library.without gone).Written (around.without gone) where
  stored := by
    change (library.without gone).grammar? around.grammar.scopeName = _
    rw [grammar?_without, written.stored, Option.map_some]
    rfl
  tables := fun repository member => by
    obtain ⟨⟨place, table⟩, listed, rfl⟩ := List.mem_map.mp member
    exact table?_without keyed (stays _ listed) (written.tables _ listed)

theorem stride?_without (library : Library) (around : Surroundings) (text : String) :
    (library.without gone).stride? (around.without gone) text =
      (library.stride? around text).map (Stride.without gone) := by
  have arrival (around : Surroundings) (name : String) :
      arrival? (around.without gone) name = (arrival? around name).map (Stride.without gone) := by
    unfold arrival?
    rw [Surroundings.lookup?_without, Option.map_map, Option.map_map]
    congr 1
    funext ⟨place, rule⟩
    simp only [Function.comp, RuleDecl.reference_without]
    cases rule.reference <;> rfl
  unfold stride?
  cases referenceOf text with
  | self | base => rfl
  | «local» name => exact arrival around name
  | foreign scope name =>
    cases name with
    | none =>
      dsimp only
      rw [grammar?_without]
      cases library.grammar? scope <;> rfl
    | some name =>
      dsimp only
      rw [grammar?_without]
      cases library.grammar? scope with
      | none => rfl
      | some grammar => exact arrival (.ofGrammar grammar) name

theorem Follows.without {text : String} {trail : List (Surroundings × Place × String)}
    {ending : Option Destination} (follows : library.Follows around text trail ending) :
    (library.without gone).Follows (around.without gone) text
      (trail.map fun (around, place, text) => (around.without gone, place.shift gone, text))
      (ending.map (Destination.without gone)) := by
  induction follows with
  | lost lost => exact .lost (by rw [stride?_without, lost]; rfl)
  | ended ended => exact .ended (by rw [stride?_without, ended]; rfl)
  | on on _ ih => exact .on (by rw [stride?_without, on]; rfl) ih

theorem Follows.of_without {text : String} {trail : List (Surroundings × Place × String)}
    {last : Option Destination}
    (follows : (library.without gone).Follows (around.without gone) text trail last) :
    ∃ trail ending, library.Follows around text trail ending ∧
      ending.map (Destination.without gone) = last := by
  generalize here : around.without gone = pruned at follows
  induction follows generalizing around with
  | lost lost =>
    rw [← here, stride?_without, Option.map_eq_none_iff] at lost
    exact ⟨[], none, .lost lost, rfl⟩
  | ended ended =>
    rw [← here, stride?_without, Option.map_eq_some_iff] at ended
    obtain ⟨_ | _, ended, same⟩ := ended
    · exact ⟨[], _, .ended ended, congrArg some (Stride.ended.inj same)⟩
    · exact nomatch same
  | on on _ ih =>
    rw [← here, stride?_without, Option.map_eq_some_iff] at on
    obtain ⟨_ | ⟨next, place, further⟩, on, same⟩ := on
    · exact nomatch same
    · obtain ⟨moved, _, rfl⟩ := Stride.on.inj same
      obtain ⟨trail, ending, rest, same⟩ := ih moved
      exact ⟨_, ending, .on on rest, same⟩

theorem lead_without (keyed : library.Keyed) (written : library.Written around)
    (stays : around.Stays gone) (text : String) :
    (library.without gone).lead (around.without gone) text =
      (library.lead around text).without gone := by
  refine Lead.eq_of_ends fun last => ?_
  rw [lead_eq_iff (keyed_without keyed) (written.without keyed stays), Lead.without_eq_iff]
  constructor
  · rintro ⟨_, follows⟩
    obtain ⟨trail, ending, follows, same⟩ := follows.of_without
    exact ⟨ending, (lead_eq_iff keyed written).mpr ⟨trail, follows⟩, same⟩
  · rintro ⟨ending, found, rfl⟩
    obtain ⟨trail, follows⟩ := (lead_eq_iff keyed written).mp found
    exact ⟨_, follows.without⟩

theorem destination?_without (keyed : library.Keyed) (written : library.Written around)
    (stays : around.Stays gone) (text : String) :
    (library.without gone).destination? (around.without gone) text =
      (library.destination? around text).map (Destination.without gone) := by
  rw [destination?, destination?, lead_without keyed written stays]
  cases library.lead around text <;> rfl

theorem circles_without (keyed : library.Keyed) (written : library.Written around)
    (stays : around.Stays gone) (place : Place) (decl : RuleDecl) :
    (library.without gone).circles (around.without gone) (decl.without gone place) =
      library.circles around decl := by
  unfold circles
  rw [RuleDecl.reference_without]
  cases decl.reference with
  | none => rfl
  | some text =>
    rw [Option.any_some, Option.any_some, lead_without keyed written stays]
    cases library.lead around text <;> rfl

end Library

namespace Compile

namespace Task

def without : Task → Task
  | .listed place decl around =>
    .listed (place.shift gone) (decl.without gone place) (around.without gone)
  | .whole decl => .whole (decl.without gone)
  | .rule place decl around =>
    .rule (place.shift gone) (decl.without gone place) (around.without gone)
  | .group place decl around =>
    .group (place.shift gone) (decl.without gone place) (around.without gone)

def isGone : Task → Bool
  | .listed place _ _ => place.isGone gone
  | _ => false

def Stays : Task → Prop
  | .listed place _ around => place.Stays gone ∧ around.Stays gone
  | .whole _ => True
  | .rule place _ around | .group place _ around => place.Stays gone ∧ around.Stays gone

end Task

def kept (tasks : List Task) : List Task := (tasks.filter (!·.isGone gone)).map (·.without gone)

variable {gone} {around : Surroundings} {place : Place} {decl : RuleDecl}

theorem kept_eq_map {tasks : List Task} (stay : ∀ task ∈ tasks, task.isGone gone = false) :
    kept gone tasks = tasks.map (·.without gone) := by
  rw [kept, List.filter_eq_self.mpr fun task member => by simp [stay task member]]

theorem listing_without (around : Surroundings) (place : Place) (rules : List RuleDecl) :
    listing (around.without gone)
        (numberedPlaces (place.shift gone) (RuleDecl.listWithout gone place 0 rules)) =
      kept gone (listing around (numberedPlaces place rules)) := by
  rw [listing, RuleDecl.numberedPlaces_without, kept, listing, List.filter_map, List.map_map,
    List.map_map]
  rfl

theorem nestedTasks_without (around : Surroundings) (place : Place) (decl : RuleDecl) :
    nestedTasks (around.without gone) (place.shift gone) (decl.without gone place) =
      kept gone (nestedTasks around place decl) := by
  rw [nestedTasks, Surroundings.within_without, RuleDecl.nested_without, listing_without]
  rfl

theorem wholeTasks_without (decl : GrammarDecl) :
    wholeTasks (decl.without gone) = kept gone (wholeTasks decl) :=
  listing_without (.ofGrammar decl) (Surroundings.root decl) decl.patterns

section

variable (step : String → PlaceStep) (place : Place) (table : List (String × RuleDecl))

theorem indexed_without : indexed (RuleDecl.entriesWithout gone step place table) =
    (indexed table).map fun (n, key, rule) => (n, key, rule.without gone (place.into (step key))) := by
  let below (a b : Nat × String × RuleDecl) : Bool := a.1 ≤ b.1
  let inner (group : Nat × String × RuleDecl) : Nat × String × RuleDecl :=
    (group.1, group.2.1, group.2.2.without gone (place.into (step group.2.1)))
  have sorted (groups : List (Nat × String × RuleDecl)) :
      (groups.mergeSort below).map inner = (groups.map inner).mergeSort below :=
    List.map_mergeSort fun _ _ _ _ => rfl
  refine Eq.trans ?_ (sorted _).symm
  rw [List.map_filterMap, indexed, RuleDecl.entriesWithout_eq, List.filterMap_map]
  congr 2
  funext entry
  simp only [Function.comp, Option.map_map]
  rfl

theorem tableLength?_without :
    tableLength? (RuleDecl.entriesWithout gone step place table) = tableLength? table := by
  unfold tableLength?
  rw [indexed_without, List.getLast?_map]
  cases (indexed table).getLast? <;> rfl

theorem groups_without : groups (RuleDecl.entriesWithout gone step place table) =
    (groups table).map fun (n, key, rule) => (n, key, rule.without gone (place.into (step key))) := by
  unfold groups
  rw [tableLength?_without, indexed_without]
  split <;> rfl

theorem tabled_without (found : List (Option RuleId)) :
    tabled (RuleDecl.entriesWithout gone step place table) found = tabled table found := by
  rw [tabled, groups_without, tableLength?_without, List.map_map]
  rfl

theorem laid_without (draft : Draft) :
    draft.laid (RuleDecl.entriesWithout gone step place table) = draft.laid table := by
  rw [Draft.laid, tableLength?_without]
  rfl

end

end Compile

variable {gone}

namespace RulePatterns

def tableAt (gone : Place → Bool) (place : Place) (table : CaptureField × List (String × RuleDecl)) :
    CaptureField × List (String × RuleDecl) :=
  (table.1, RuleDecl.entriesWithout gone (.capture table.1) place table.2)

theorem tableOr_without (place : Place) (decl : RuleDecl) (field : CaptureField) :
    (decl.without gone place).tableOr field = tableAt gone place (decl.tableOr field) := by
  have all : (decl.without gone place).captured .all = _ := RuleDecl.captured_without place decl .all
  unfold RuleDecl.tableOr
  rw [RuleDecl.captured_without]
  cases decl.captured field with
  | some table => rfl
  | none =>
    change (CaptureField.all, ((decl.without gone place).captured .all).getD []) = _
    rw [all]
    unfold RuleDecl.captured
    cases decl.captures <;> rfl

theorem firstTable_without (place : Place) (decl : RuleDecl) (patterns : RulePatterns) :
    patterns.firstTable (decl.without gone place) =
      tableAt gone place (patterns.firstTable decl) := by
  cases patterns with
  | matching | spanning | continuing => exact tableOr_without place decl _
  | absent => rfl

theorem secondTable_without (place : Place) (decl : RuleDecl) (patterns : RulePatterns) :
    patterns.secondTable (decl.without gone place) =
      tableAt gone place (patterns.secondTable decl) := by
  cases patterns with
  | spanning | continuing => exact tableOr_without place decl _
  | matching | absent => rfl

theorem kind_without (place : Place) (decl : RuleDecl) (nested : List RuleId)
    (first second : CaptureRules) (patterns : RulePatterns) :
    patterns.kind (decl.without gone place) nested first second =
      patterns.kind decl nested first second := by
  cases patterns with
  | spanning => rw [kind, kind, RuleDecl.closingLast_without]
  | matching | continuing | absent => rfl

end RulePatterns

theorem Compile.groupTasks_without (around : Surroundings) (place : Place) (decl : RuleDecl)
    (table : CaptureField × List (String × RuleDecl)) :
    groupTasks (around.without gone) (place.shift gone) (decl.without gone place)
        (RulePatterns.tableAt gone place table) =
      (groupTasks around place decl table).map (·.without gone) := by
  unfold groupTasks grouping
  rw [Surroundings.within_without, RulePatterns.tableAt, groups_without, List.map_map, List.map_map]
  rfl

namespace Library

variable {library : Library} {around : Surroundings} {place : Place} {decl : RuleDecl}

theorem task?_without (keyed : library.Keyed) (written : library.Written around)
    (stays : around.Stays gone) (place : Place) (decl : RuleDecl) :
    (library.without gone).task? (around.without gone) (place.shift gone) (decl.without gone place) =
      (library.task? around place decl).map (·.without gone) := by
  unfold task?
  rw [RuleDecl.reference_without]
  cases decl.reference with
  | none => rfl
  | some text =>
    dsimp only
    rw [destination?_without keyed written stays, Option.map_map, Option.map_map]
    congr 1
    funext destination
    cases destination <;> rfl

section

variable (stay : place.Stays gone) (stays : around.Stays gone)

include stays

theorem stays_task {task : Compile.Task} (stay : place.Stays gone)
    (leads : library.task? around place decl = some task) : task.Stays gone := by
  unfold task? at leads
  split at leads
  · obtain rfl := Option.some.inj leads
    exact ⟨stay, stays⟩
  · obtain ⟨destination, found, rfl⟩ := Option.map_eq_some_iff.mp leads
    have start (scope : String) (grammar : GrammarDecl)
        (_ : library.grammar? scope = some grammar) : (Surroundings.ofGrammar grammar).Stays gone :=
      Surroundings.stays_ofGrammar grammar
    have ended := follow_ended start _ stays (Lead.destination?_eq_some_iff.mp found)
    cases destination with
    | grammar grammar => trivial
    | rule place decl around =>
      obtain ⟨stays, -, name, found⟩ := ended
      exact ⟨stays.lookup? found, stays⟩

include stay

theorem stays_nested : ∀ task ∈ Compile.nestedTasks around place decl,
    task.isGone gone = false → task.Stays gone := by
  intro task member here
  obtain ⟨⟨inner, part⟩, listed, rfl⟩ := List.mem_map.mp member
  obtain ⟨index, _, rfl⟩ := Compile.mem_numberedPlaces.mp listed
  exact ⟨⟨here, stay⟩, stays.within stay decl⟩

theorem stays_groups (table : CaptureField × List (String × RuleDecl)) :
    ∀ task ∈ Compile.groupTasks around place decl table, task.Stays gone := by
  intro task member
  obtain ⟨⟨n, key, part⟩, _, rfl⟩ := List.mem_map.mp member
  exact ⟨⟨rfl, stay⟩, stays.within stay decl⟩

end

theorem stays_whole (grammar : GrammarDecl) : ∀ task ∈ Compile.wholeTasks grammar,
    task.isGone gone = false → task.Stays gone := by
  intro task member here
  obtain ⟨⟨inner, part⟩, listed, rfl⟩ := List.mem_map.mp member
  obtain ⟨index, _, rfl⟩ := Compile.mem_numberedPlaces.mp listed
  exact ⟨⟨here, trivial⟩, Surroundings.stays_ofGrammar grammar⟩

theorem allInjecting_without (library : Library) : (library.without gone).allInjecting =
    library.allInjecting.map fun (selector, task) => (selector, task.without gone) := by
  have own : (library.without gone).ownInjecting (library.without gone).base.injections =
      (library.ownInjecting library.base.injections).map
        fun (selector, task) => (selector, task.without gone) := by
    change (library.without gone).ownInjecting (RuleDecl.entriesWithout gone _ _ _) = _
    unfold ownInjecting
    rw [RuleDecl.entriesWithout_eq, List.map_map, List.map_map]
    rfl
  have foreign (scopes : List String) : (library.without gone).foreignInjecting scopes =
      (library.foreignInjecting scopes).map
        fun (selector, task) => (selector, task.without gone) := by
    unfold foreignInjecting
    rw [List.map_filterMap]
    congr 1
    funext scope
    rw [grammar?_without]
    cases library.grammar? scope with
    | none => rfl
    | some decl =>
      change (decl.injectionSelector.map _) = Option.map _ (decl.injectionSelector.map _)
      rw [Option.map_map]
      rfl
  rw [allInjecting, allInjecting, List.map_append, own]
  exact congrArg _ (foreign _)

end Library

end Highlighter
