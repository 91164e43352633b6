import Highlighter.Proofs.Grammar.Declared

set_option autoImplicit false

namespace Highlighter

namespace GrammarDecl

def nearest? (grammar : GrammarDecl) (outer : List PlaceStep) (name : String) :
    Option (List PlaceStep) :=
  (outer.tails.find? fun steps => (grammar.part? steps (.entry name)).isSome).map (.entry name :: ·)

theorem nearest?_nil (grammar : GrammarDecl) (name : String) :
    grammar.nearest? [] name =
      if (grammar.part? [] (.entry name)).isSome then some [.entry name] else none := by
  unfold nearest?
  rw [List.tails, List.find?_cons]
  cases (grammar.part? [] (.entry name)).isSome <;> rfl

theorem nearest?_cons (grammar : GrammarDecl) (last : PlaceStep) (outer : List PlaceStep)
    (name : String) :
    grammar.nearest? (last :: outer) name =
      if (grammar.part? (last :: outer) (.entry name)).isSome then some (.entry name :: last :: outer)
      else grammar.nearest? outer name := by
  unfold nearest?
  rw [List.tails_cons, List.find?_cons]
  cases (grammar.part? (last :: outer) (.entry name)).isSome <;> simp

end GrammarDecl

inductive Site where
  | whole (scope : String)
  | rule (place : Place)
  deriving DecidableEq

inductive Turn where
  | arrived (site : Site)
  | on (place : Place)

namespace Library

def nearest? (library : Library) (place : Place) (name : String) : Option Place :=
  (library.grammar? place.grammar).bind fun grammar =>
    (grammar.nearest? place.steps.tail name).map (⟨place.grammar, ·⟩)

def turn? (library : Library) (place : Place) : Option Turn :=
  (library.rule? place).bind fun rule =>
    match rule.reference with
    | none => some (.arrived (.rule place))
    | some text =>
      match referenceOf text with
      | .self => some (.arrived (.whole place.grammar))
      | .base => some (.arrived (.whole library.base.scopeName))
      | .local name => (library.nearest? place name).map .on
      | .foreign scope none => (library.grammar? scope).map fun _ => .arrived (.whole scope)
      | .foreign scope (some name) =>
        (library.grammar? scope).map fun _ => .on ⟨scope, [.entry name]⟩

inductive Leads (library : Library) : Place → List Place → Site → Prop where
  | arrive {place : Place} {site : Site} (turn : library.turn? place = some (.arrived site)) :
      Leads library place [place] site
  | go {place next : Place} {trail : List Place} {site : Site}
      (turn : library.turn? place = some (.on next)) (rest : Leads library next trail site) :
      Leads library place (place :: trail) site

/-- What the rule at a place in a list stands for. References that run in a circle or into nothing
stand for nothing. -/
def Means (library : Library) (place : Place) (site : Site) : Prop :=
  ∃ trail, library.Leads place trail site

namespace Leads

variable {library : Library} {place : Place} {trail : List Place} {site : Site}

theorem unique (leads : library.Leads place trail site) {other : List Place} {last : Site}
    (also : library.Leads place other last) : trail = other ∧ site = last := by
  induction leads generalizing other with
  | arrive turn =>
    cases also with
    | arrive same => exact ⟨rfl, by simpa [turn] using same⟩
    | go same _ => simp [turn] at same
  | go turn _ ih =>
    cases also with
    | arrive same => simp [turn] at same
    | go same rest =>
      obtain rfl : _ = _ := by simpa [turn] using same
      obtain ⟨rfl, rfl⟩ := ih rest
      exact ⟨rfl, rfl⟩

theorem of_mem (leads : library.Leads place trail site) {other : Place} (met : other ∈ trail) :
    ∃ rest, rest.length ≤ trail.length ∧ library.Leads other rest site := by
  induction leads with
  | arrive turn =>
    obtain rfl := List.mem_singleton.mp met
    exact ⟨_, le_rfl, .arrive turn⟩
  | go turn rest ih =>
    rcases List.mem_cons.mp met with rfl | later
    · exact ⟨_, le_rfl, .go turn rest⟩
    · obtain ⟨rest, shorter, leads⟩ := ih later
      exact ⟨rest, shorter.trans (Nat.le_succ _), leads⟩

-- Meeting a place again would mean going in a circle for ever.
theorem nodup (leads : library.Leads place trail site) : trail.Nodup := by
  induction leads with
  | arrive _ => exact List.nodup_singleton _
  | go turn rest ih =>
    refine List.nodup_cons.mpr ⟨fun again => ?_, ih⟩
    obtain ⟨other, shorter, leads⟩ := rest.of_mem again
    have same := ((Leads.go turn rest).unique leads).1
    rw [← same, List.length_cons] at shorter
    omega

theorem declared (leads : library.Leads place trail site) {other : Place} (met : other ∈ trail) :
    ∃ rule, library.rule? other = some rule := by
  obtain ⟨_, _, leads⟩ := leads.of_mem met
  cases leads with
  | arrive turn | go turn _ =>
    obtain ⟨rule, here, _⟩ := Option.bind_eq_some_iff.mp turn
    exact ⟨rule, here⟩

theorem length_le (keyed : library.Keyed) (leads : library.Leads place trail site) :
    trail.length ≤ library.ruleCount := by
  rw [← library.length_places]
  refine (leads.nodup.subperm fun other met => ?_).length_le
  obtain ⟨rule, here⟩ := leads.declared met
  exact mem_places_of_rule? keyed here

end Leads

theorem Means.unique {library : Library} {place : Place} {site other : Site}
    (means : library.Means place site) (also : library.Means place other) : site = other := by
  obtain ⟨_, leads⟩ := means
  obtain ⟨_, others⟩ := also
  exact (leads.unique others).2

end Library

namespace GrammarDecl

def table? (grammar : GrammarDecl) : List PlaceStep → Option (List (String × RuleDecl))
  | [] => some grammar.repository
  | last :: steps => (grammar.part? steps last).bind (·.repository)

theorem part?_entry (grammar : GrammarDecl) (steps : List PlaceStep) (name : String) :
    grammar.part? steps (.entry name) = (grammar.table? steps).bind (·.lookup name) := by
  cases steps with
  | nil => rfl
  | cons last steps =>
    simp only [part?, table?, Option.bind_assoc]
    congr 1
    funext rule
    cases h : rule.repository <;> simp [RuleDecl.part?, h]

def around (grammar : GrammarDecl) (outer : List PlaceStep) : Surroundings :=
  ⟨grammar, outer.tails.filterMap fun steps =>
    (grammar.table? steps).map (⟨grammar.scopeName, steps⟩, ·)⟩

theorem around_nil (grammar : GrammarDecl) : grammar.around [] = Surroundings.ofGrammar grammar :=
  rfl

theorem around_cons (grammar : GrammarDecl) (last : PlaceStep) (steps : List PlaceStep)
    (rule : RuleDecl) (here : grammar.part? steps last = some rule) :
    grammar.around (last :: steps) =
      (grammar.around steps).within ⟨grammar.scopeName, last :: steps⟩ rule := by
  unfold around Surroundings.within
  rw [List.tails_cons, List.filterMap_cons]
  cases h : rule.repository <;> simp [table?, here, h]

theorem around_suffix (grammar : GrammarDecl) {inner outer : List PlaceStep}
    (within : outer <:+ inner) :
    (grammar.around outer).repositories <:+ (grammar.around inner).repositories := by
  obtain ⟨before, rfl⟩ := within
  refine List.IsSuffix.filterMap _ ?_
  induction before with
  | nil => exact List.suffix_rfl
  | cons first rest ih => exact ih.trans (List.suffix_cons _ _)

theorem lookup?_around (grammar : GrammarDecl) (outer : List PlaceStep) (name : String) :
    (grammar.around outer).lookup? name =
      (grammar.nearest? outer name).bind fun found =>
        (grammar.rule? found).map (⟨grammar.scopeName, found⟩, ·) := by
  have here (steps : List PlaceStep) (others : List (Place × List (String × RuleDecl))) :
      Surroundings.lookup? ⟨grammar, ((grammar.table? steps).map
          ((⟨grammar.scopeName, steps⟩ : Place), ·)).toList ++ others⟩ name =
        match grammar.part? steps (.entry name) with
        | some rule => some (⟨grammar.scopeName, .entry name :: steps⟩, rule)
        | none => Surroundings.lookup? ⟨grammar, others⟩ name := by
    rw [part?_entry]
    cases found : grammar.table? steps with
    | none => rfl
    | some table =>
      cases entry : table.lookup name <;> simp [Surroundings.lookup?, entry, Place.into]
  induction outer with
  | nil =>
    rw [nearest?_nil]
    refine (here [] []).trans ?_
    cases found : grammar.part? [] (.entry name) <;> simp [rule?, found, Surroundings.lookup?]
  | cons last outer ih =>
    rw [nearest?_cons]
    have split : (grammar.around (last :: outer)).repositories =
        ((grammar.table? (last :: outer)).map
          ((⟨grammar.scopeName, last :: outer⟩ : Place), ·)).toList ++
            (grammar.around outer).repositories := by
      unfold around
      rw [List.tails_cons, List.filterMap_cons]
      cases grammar.table? (last :: outer) <;> rfl
    have step := here (last :: outer) (grammar.around outer).repositories
    rw [← split] at step
    refine step.trans ?_
    cases found : grammar.part? (last :: outer) (.entry name) with
    | none =>
      rw [if_neg (by simp)]
      exact ih
    | some rule => simp [rule?, found]

end GrammarDecl

namespace Surroundings

def named? (name : String) (repository : Place × List (String × RuleDecl)) :
    Option (Place × RuleDecl) :=
  (repository.2.lookup name).map fun rule => (repository.1.into (.entry name), rule)

theorem lookup?_eq (carried : Surroundings) (name : String) :
    carried.lookup? name = carried.repositories.findSome? (named? name) :=
  rfl

/-- Repositories that a reader has come by on its way to a rule at a place: those around the place,
in their order, and others of the grammar, all of them met once and, but for the grammar's own, at
places that are `known`. -/
structure Fits (grammar : GrammarDecl) (outer : List PlaceStep) (known : Place → Prop)
    (carried : Surroundings) : Prop where
  own : carried.grammar = grammar
  around : (grammar.around outer).repositories.Sublist carried.repositories
  distinct : (carried.repositories.map (·.1)).Nodup
  members : ∀ place table, (place, table) ∈ carried.repositories →
    place.grammar = grammar.scopeName ∧ grammar.table? place.steps = some table ∧
      (place.steps = [] ∨ known place)

namespace Fits

variable {grammar : GrammarDecl} {outer : List PlaceStep} {known : Place → Prop}
  {carried : Surroundings}

theorem mono (fits : Fits grammar outer known carried) {more : Place → Prop}
    (grows : ∀ place, known place → more place) : Fits grammar outer more carried where
  own := fits.own
  around := fits.around
  distinct := fits.distinct
  members := fun place table member =>
    let ⟨own, declared, met⟩ := fits.members place table member
    ⟨own, declared, met.imp_right (grows place)⟩

theorem ofGrammar (grammar : GrammarDecl) (known : Place → Prop) :
    Fits grammar [] known (ofGrammar grammar) where
  own := rfl
  around := List.Sublist.refl _
  distinct := List.nodup_singleton _
  members := fun place table member => by
    obtain ⟨rfl, rfl⟩ := Prod.mk.inj (List.mem_singleton.mp member)
    exact ⟨rfl, rfl, .inl rfl⟩

theorem within (fits : Fits grammar outer known carried) {last : PlaceStep} {rule : RuleDecl}
    (here : grammar.part? outer last = some rule) {more : Place → Prop}
    (new : ¬ known ⟨grammar.scopeName, last :: outer⟩) (met : more ⟨grammar.scopeName, last :: outer⟩)
    (grows : ∀ place, known place → more place) :
    Fits grammar (last :: outer) more (carried.within ⟨grammar.scopeName, last :: outer⟩ rule) := by
  have old := fits.mono grows
  have around := grammar.around_cons last outer rule here
  unfold Surroundings.within at around ⊢
  cases declared : rule.repository with
  | none =>
    simp only [declared] at around ⊢
    exact { old with around := around ▸ old.around }
  | some table =>
    simp only [declared] at around ⊢
    refine ⟨fits.own, around ▸ fits.around.cons_cons _, ?_, fun place other member => ?_⟩
    · refine List.nodup_cons.mpr ⟨fun again => ?_, fits.distinct⟩
      obtain ⟨⟨place, other⟩, member, rfl⟩ := List.mem_map.mp again
      rcases (fits.members _ other member).2.2 with root | met
      · exact absurd root (List.cons_ne_nil _ _)
      · exact new met
    · rcases List.mem_cons.mp member with same | inside
      · obtain ⟨rfl, rfl⟩ := Prod.mk.inj same
        exact ⟨rfl, by simp [GrammarDecl.table?, here, declared], .inr met⟩
      · exact old.members place other inside

theorem inside (fits : Fits grammar outer known carried) {steps : List PlaceStep}
    (suffix : steps <:+ outer) : Fits grammar steps known carried :=
  { fits with around := (grammar.around_suffix suffix).sublist.trans fits.around }

theorem lookup? (fits : Fits grammar outer known carried) {name : String}
    (apart : ∀ steps, (grammar.part? steps (.entry name)).isSome → steps <:+ outer) :
    carried.lookup? name = (grammar.around outer).lookup? name := by
  let declares (item : Place × List (String × RuleDecl)) : Bool := (item.2.lookup name).isSome
  have same : (grammar.around outer).repositories.filter declares =
      carried.repositories.filter declares := by
    refine (fits.around.filter declares).eq_of_length_le ?_
    refine ((fits.distinct.of_map.filter declares).subperm ?_).length_le
    intro (place, table) member
    obtain ⟨inside, declared⟩ := List.mem_filter.mp member
    obtain ⟨own, here, _⟩ := fits.members place table inside
    have within : place.steps <:+ outer := apart place.steps (by
      rw [GrammarDecl.part?_entry, here]
      exact declared)
    refine List.mem_filter.mpr ⟨List.mem_filterMap.mpr
      ⟨place.steps, (List.mem_tails _ _).mpr within, ?_⟩, declared⟩
    rw [here, ← own]
    rfl
  have found (items : List (Place × List (String × RuleDecl))) :
      items.findSome? (named? name) = (items.filter declares).findSome? (named? name) := by
    induction items with
    | nil => rfl
    | cons item rest ih =>
      rw [List.filter_cons, List.findSome?_cons]
      cases entry : item.2.lookup name <;> simp [declares, named?, entry, ih]
  rw [lookup?_eq, lookup?_eq, found, ← same, ← found]

end Fits

end Surroundings

def Place.InRepository (place : Place) : Prop := ∃ name, .entry name ∈ place.steps

namespace Library

/-- The names that a rule in a repository refers to are declared around it only, or in other
grammars. -/
def Apart (library : Library) : Prop :=
  ∀ place rule text name, library.rule? place = some rule → rule.reference = some text →
    referenceOf text = .local name → place.InRepository →
      ∀ grammar, library.grammar? place.grammar = some grammar →
        ∀ steps, (grammar.part? steps (.entry name)).isSome → steps <:+ place.steps.tail

theorem apart_of_flat {library : Library}
    (flat : ∀ place rule, library.rule? place = some rule → rule.repository = none) :
    library.Apart := by
  intro place _ _ name _ _ _ _ grammar stored steps declares
  cases steps with
  | nil => exact List.nil_suffix
  | cons last steps =>
    rw [GrammarDecl.part?_entry, GrammarDecl.table?] at declares
    cases here : grammar.part? steps last with
    | none => simp [here] at declares
    | some rule =>
      have bare := flat ⟨place.grammar, last :: steps⟩ rule (by rw [rule?, stored]; exact here)
      simp [here, bare] at declares

def isApart (library : Library) : Bool :=
  library.places.all fun place =>
    match (library.rule? place).bind (·.reference) with
    | none => true
    | some text =>
      match referenceOf text with
      | .local name =>
        place.steps.all (fun step => match step with
          | .entry _ => false
          | _ => true) ||
        library.places.all fun other =>
          other.grammar != place.grammar || other.steps.head? != some (.entry name) ||
            other.steps.tail.isSuffixOf place.steps.tail
      | _ => true

theorem apart_of_isApart {library : Library} (keyed : library.Keyed)
    (checked : library.isApart = true) : library.Apart := by
  intro place rule text name here refers names ⟨entry, inside⟩ grammar stored steps declares
  obtain ⟨found, there⟩ := Option.isSome_iff_exists.mp declares
  have listed : (⟨place.grammar, .entry name :: steps⟩ : Place) ∈ library.places :=
    @mem_places_of_rule? library keyed _ found (by rw [rule?, stored]; exact there)
  have checked := List.all_eq_true.mp checked place (mem_places_of_rule? keyed here)
  simp only [here, Option.bind_some, refers, names, Bool.or_eq_true, List.all_eq_true] at checked
  rcases checked with outside | others
  · simpa using outside _ inside
  · simpa using others _ listed

structure Reaches (library : Library) (known : Place → Prop) (grammar : GrammarDecl) (place : Place)
    (rule : RuleDecl) (carried : Surroundings) : Prop where
  home : library.grammar? place.grammar = some grammar
  here : grammar.rule? place.steps = some rule
  fits : carried.Fits grammar place.steps.tail known
  lexical : carried = grammar.around place.steps.tail ∨ place.InRepository

structure Stands (library : Library) (known : Place → Prop) (grammar : GrammarDecl) (place : Place)
    (carried : Surroundings) : Prop where
  home : library.grammar? place.grammar = some grammar
  fits : carried.Fits grammar place.steps known
  lexical : carried = grammar.around place.steps ∨ place.InRepository

def Arrives (library : Library) (known : Place → Prop) : Destination → Site → Prop
  | .grammar grammar, .whole scope =>
    scope = grammar.scopeName ∧ library.grammar? scope = some grammar
  | .rule place rule carried, .rule other =>
    place = other ∧ ∃ grammar, library.Reaches known grammar place rule carried
  | _, _ => False

variable {library : Library} {known : Place → Prop}

theorem turn?_eq {place : Place} {rule : RuleDecl} (here : library.rule? place = some rule) :
    library.turn? place =
      match rule.reference with
      | none => some (.arrived (.rule place))
      | some text =>
        match referenceOf text with
        | .self => some (.arrived (.whole place.grammar))
        | .base => some (.arrived (.whole library.base.scopeName))
        | .local name => (library.nearest? place name).map .on
        | .foreign scope none => (library.grammar? scope).map fun _ => .arrived (.whole scope)
        | .foreign scope (some name) =>
          (library.grammar? scope).map fun _ => .on ⟨scope, [.entry name]⟩ := by
  rw [turn?, here]
  rfl

theorem next_of_turn? {place next : Place} (turn : library.turn? place = some (.on next)) :
    (∃ name outer, outer <:+ place.steps.tail ∧ next = ⟨place.grammar, .entry name :: outer⟩) ∨
      ∃ scope name, next = ⟨scope, [.entry name]⟩ := by
  obtain ⟨rule, _, here⟩ := Option.bind_eq_some_iff.mp turn
  split at here
  · simp at here
  · split at here
    · simp at here
    · simp at here
    · obtain ⟨_, nearest, same⟩ := Option.map_eq_some_iff.mp here
      obtain rfl := Turn.on.inj same
      obtain ⟨grammar, _, inner⟩ := Option.bind_eq_some_iff.mp nearest
      obtain ⟨_, chosen, rfl⟩ := Option.map_eq_some_iff.mp inner
      obtain ⟨outer, found, rfl⟩ := Option.map_eq_some_iff.mp chosen
      exact .inl ⟨_, outer, (List.mem_tails _ _).mp (List.mem_of_find?_eq_some found), rfl⟩
    · simp at here
    · obtain ⟨_, _, same⟩ := Option.map_eq_some_iff.mp here
      obtain rfl := Turn.on.inj same
      exact .inr ⟨_, _, rfl⟩

theorem eq_of_turn? {place other : Place}
    (turn : library.turn? place = some (.arrived (.rule other))) : place = other := by
  obtain ⟨rule, _, here⟩ := Option.bind_eq_some_iff.mp turn
  split at here
  · simpa using here
  · split at here <;> simp at here

namespace Stands

variable {grammar : GrammarDecl} {place : Place} {carried : Surroundings}

theorem mono (stands : library.Stands known grammar place carried) {more : Place → Prop}
    (grows : ∀ place, known place → more place) : library.Stands more grammar place carried :=
  { stands with fits := stands.fits.mono grows }

theorem ofGrammar (stored : library.grammar? grammar.scopeName = some grammar)
    (known : Place → Prop) :
    library.Stands known grammar (Surroundings.root grammar) (Surroundings.ofGrammar grammar) :=
  ⟨stored, .ofGrammar grammar known, .inl rfl⟩

theorem part (stands : library.Stands known grammar place carried) {step : PlaceStep}
    {rule : RuleDecl} (here : grammar.part? place.steps step = some rule) :
    library.Reaches known grammar (place.into step) rule carried :=
  ⟨stands.home, here, stands.fits, stands.lexical.imp_right fun ⟨name, member⟩ =>
    ⟨name, List.mem_cons_of_mem _ member⟩⟩

end Stands

namespace Reaches

variable {grammar : GrammarDecl} {place : Place} {rule : RuleDecl} {carried : Surroundings}

theorem declared (reaches : library.Reaches known grammar place rule carried) :
    library.rule? place = some rule := by
  rw [rule?, reaches.home]
  exact reaches.here

theorem within (reaches : library.Reaches known grammar place rule carried) (keyed : library.Keyed)
    {more : Place → Prop} (new : ¬ known place) (met : more place)
    (grows : ∀ place, known place → more place) :
    library.Stands more grammar place (carried.within place rule) := by
  have key := keyed place.grammar grammar reaches.home
  obtain ⟨scope, steps⟩ := place
  obtain rfl : grammar.scopeName = scope := key
  obtain ⟨home, here, fits, lexical⟩ := reaches
  cases steps with
  | nil => simp [GrammarDecl.rule?] at here
  | cons last outer =>
    refine ⟨home, fits.within here new met grows, lexical.imp_left fun same => ?_⟩
    rw [grammar.around_cons last outer rule here, same]
    rfl

theorem lookup? (reaches : library.Reaches known grammar place rule carried) (keyed : library.Keyed)
    (apart : library.Apart) {text name : String} (refers : rule.reference = some text)
    (names : referenceOf text = .local name) :
    match carried.lookup? name with
    | none => library.turn? place = none
    | some (next, entry) =>
      library.turn? place = some (.on next) ∧ library.Reaches known grammar next entry carried := by
  have same : carried.lookup? name = (grammar.around place.steps.tail).lookup? name := by
    rcases reaches.lexical with rfl | inside
    · rfl
    · exact reaches.fits.lookup? (apart place rule text name reaches.declared refers names inside
        grammar reaches.home)
  have turn : library.turn? place =
      (grammar.nearest? place.steps.tail name).map fun found => .on ⟨place.grammar, found⟩ := by
    simp [turn?_eq reaches.declared, refers, names, nearest?, reaches.home, Function.comp_def]
  rw [same, grammar.lookup?_around, turn]
  cases nearest : grammar.nearest? place.steps.tail name with
  | none => rfl
  | some found =>
    obtain ⟨steps, chosen, rfl⟩ := Option.map_eq_some_iff.mp nearest
    have declares := List.find?_some chosen
    have within := (List.mem_tails _ _).mp (List.mem_of_find?_eq_some chosen)
    obtain ⟨entry, here⟩ := Option.isSome_iff_exists.mp declares
    have key := keyed place.grammar grammar reaches.home
    simp only [GrammarDecl.rule?, here, Option.bind_some, Option.map_some, key, true_and]
    exact ⟨reaches.home, here, reaches.fits.inside within, .inr ⟨name, List.mem_cons_self⟩⟩

end Reaches

theorem not_leads {place : Place} (nowhere : library.turn? place = none) {trail : List Place}
    {site : Site} : ¬ library.Leads place trail site := by
  intro leads
  cases leads with
  | arrive turn | go turn _ => simp [nowhere] at turn

theorem Means.onward {place next : Place} (turn : library.turn? place = some (.on next)) {site : Site}
    (means : library.Means next site) : library.Means place site :=
  let ⟨trail, leads⟩ := means
  ⟨place :: trail, .go turn leads⟩

def Ends (library : Library) (known : Place → Prop) (place : Place) (fuel : Nat) : Lead → Prop
  | .towards destination => ∃ site, library.Means place site ∧ library.Arrives known destination site
  | .nowhere => ∀ site, ¬ library.Means place site
  | .round => ∀ trail site, library.Leads place trail site → fuel < trail.length

theorem Ends.onward {place next : Place} {fuel : Nat} {lead : Lead}
    (turn : library.turn? place = some (.on next)) (rest : library.Ends known next fuel lead) :
    library.Ends known place (fuel + 1) lead := by
  have further {trail : List Place} {site : Site} (leads : library.Leads place trail site) :
      ∃ rest, trail = place :: rest ∧ library.Leads next rest site := by
    cases leads with
    | arrive same => simp [turn] at same
    | go same leads =>
      obtain rfl : _ = _ := by simpa [turn] using same
      exact ⟨_, rfl, leads⟩
  cases lead with
  | towards destination =>
    obtain ⟨site, means, arrives⟩ := rest
    exact ⟨site, means.onward turn, arrives⟩
  | nowhere =>
    rintro site ⟨trail, leads⟩
    obtain ⟨others, -, after⟩ := further leads
    exact rest site ⟨others, after⟩
  | round =>
    intro trail site leads
    obtain ⟨others, rfl, after⟩ := further leads
    exact Nat.succ_lt_succ (rest _ _ after)

theorem ends_nowhere {place : Place} (nowhere : library.turn? place = none) (fuel : Nat) :
    library.Ends known place fuel .nowhere :=
  fun _ ⟨_, leads⟩ => not_leads nowhere leads

theorem means_local {place : Place} {rule : RuleDecl} {text name : String}
    (here : library.rule? place = some rule) (refers : rule.reference = some text)
    (names : referenceOf text = .local name) (site : Site) :
    library.Means place site ↔
      ∃ entry, library.nearest? place name = some entry ∧ library.Means entry site := by
  have turn : library.turn? place = (library.nearest? place name).map .on := by
    simp [turn?_eq here, refers, names]
  constructor
  · rintro ⟨trail, leads⟩
    cases leads with
    | arrive same => simp [turn] at same
    | go same leads =>
      obtain ⟨entry, nearest, next⟩ := Option.map_eq_some_iff.mp (turn.symm.trans same)
      obtain rfl := Turn.on.inj next
      exact ⟨entry, nearest, _, leads⟩
  · rintro ⟨entry, nearest, means⟩
    exact means.onward (by rw [turn, nearest]; rfl)

variable (keyed : library.Keyed) (apart : library.Apart)

include keyed apart

theorem follow_ends (fuel : Nat) {grammar : GrammarDecl} {place : Place} {rule : RuleDecl}
    {carried : Surroundings} (reaches : library.Reaches known grammar place rule carried)
    {text : String} (refers : rule.reference = some text) :
    library.Ends known place fuel (library.follow fuel carried text) := by
  induction fuel generalizing grammar place rule carried text with
  | zero =>
    intro trail site leads
    cases leads <;> exact Nat.succ_pos _
  | succ fuel ih =>
    have turn := turn?_eq reaches.declared
    simp only [refers] at turn
    -- An entry that refers further is followed with what is left of the fuel.
    have arrive {there : GrammarDecl} {next : Place} {entry : RuleDecl} {carried : Surroundings}
        {name : String} (looked : carried.lookup? name = some (next, entry))
        (turn : library.turn? place = some (.on next))
        (reaches : library.Reaches known there next entry carried) :
        library.Ends known place (fuel + 1)
          (strode (library.follow fuel) (arrival? carried name)) := by
      refine Ends.onward turn ?_
      rw [arrival?, looked, Option.map_some]
      cases further : entry.reference with
      | some text => simpa [further, strode] using ih reaches further
      | none =>
        have arrived := turn?_eq reaches.declared
        simp only [further] at arrived
        simp only [further, strode]
        exact ⟨.rule next, ⟨_, .arrive arrived⟩, rfl, there, reaches⟩
    have whole {scope : String} {found : GrammarDecl} (stored : library.grammar? scope = some found)
        (turn : library.turn? place = some (.arrived (.whole scope))) :
        library.Ends known place (fuel + 1) (.towards (.grammar found)) :=
      ⟨.whole scope, ⟨_, .arrive turn⟩, (keyed scope found stored).symm, stored⟩
    rw [follow_succ]
    unfold stride?
    cases meaning : referenceOf text with
    | self =>
      simp only [meaning] at turn ⊢
      exact whole (reaches.fits.own.symm ▸ reaches.home) turn
    | base =>
      simp only [meaning] at turn ⊢
      exact whole (if_pos rfl) turn
    | «local» name =>
      have found := reaches.lookup? keyed apart refers meaning
      simp only
      cases looked : carried.lookup? name with
      | none =>
        simp only [looked] at found
        simpa [arrival?, looked, strode] using ends_nowhere found (fuel + 1)
      | some next =>
        simp only [looked] at found
        exact arrive looked found.1 found.2
    | foreign scope name =>
      cases stored : library.grammar? scope with
      | none =>
        have nowhere : library.turn? place = none := by cases name <;> simp [turn, meaning, stored]
        cases name <;>
          simpa only [stored, Option.map_none, Option.bind_none, strode] using
            ends_nowhere nowhere (fuel + 1)
      | some found =>
        cases name with
        | none =>
          simp only [meaning, stored] at turn
          simp only [stored, Option.map_some]
          exact whole stored turn
        | some name =>
          simp only [meaning, stored, Option.map_some] at turn
          simp only [stored, Option.bind_some]
          have named := found.lookup?_around [] name
          rw [GrammarDecl.around_nil, GrammarDecl.nearest?_nil] at named
          have there : library.rule? ⟨scope, [.entry name]⟩ = found.part? [] (.entry name) := by
            simp [rule?, stored, GrammarDecl.rule?]
          cases entry : found.part? [] (.entry name) with
          | none =>
            simp only [entry, Option.isSome_none, Bool.false_eq_true, if_false] at named
            have nowhere : library.turn? ⟨scope, [.entry name]⟩ = none := by
              simp [turn?, there, entry]
            have absent : arrival? (.ofGrammar found) name = none := by simp [arrival?, named]
            rw [absent]
            exact Ends.onward turn (ends_nowhere nowhere fuel)
          | some rule =>
            simp only [entry, Option.isSome_some, if_true, Option.bind_some, GrammarDecl.rule?,
              Option.map_some, keyed scope found stored] at named
            exact arrive named turn ⟨stored, entry, .ofGrammar found known, .inl rfl⟩

theorem destination?_means {grammar : GrammarDecl} {place : Place} {rule : RuleDecl}
    {carried : Surroundings} (reaches : library.Reaches known grammar place rule carried)
    {text : String} (refers : rule.reference = some text) :
    match library.destination? carried text with
    | some destination => ∃ site, library.Means place site ∧ library.Arrives known destination site
    | none => ∀ site, ¬ library.Means place site := by
  have ends := follow_ends keyed apart (2 * library.ruleCount + 1) reaches refers
  rw [destination?, lead]
  cases found : library.follow (2 * library.ruleCount + 1) carried text with
  | towards destination | nowhere =>
    rw [found] at ends
    exact ends
  | round =>
    rw [found] at ends
    rintro site ⟨trail, leads⟩
    have long := ends trail site leads
    have short := leads.length_le keyed
    omega

end Library

end Highlighter
