import Highlighter.Proofs.Grammar.Lexical

set_option autoImplicit false

namespace Highlighter

def RuleDecl.outline (rule : RuleDecl) : Option String × (CaptureField → Option (List String)) :=
  (rule.reference, fun field => (rule.captured field).map (·.map (·.1)))

def Site.map (image : Place → Place) : Site → Site
  | .whole scope => .whole scope
  | .rule place => .rule (image place)

def Turn.map (image : Place → Place) : Turn → Turn
  | .arrived site => .arrived (site.map image)
  | .on place => .on (image place)

/-- An image of places that keeps the names of entries and takes what is around a place to what is
around its image. Whatever entry may be meant from a place that is `kept` is kept as well. -/
structure Place.Embeds (image : Place → Place) (kept : Place → Prop) : Prop where
  root : ∀ scope, image ⟨scope, []⟩ = ⟨scope, []⟩
  step : ∀ scope step outer, ∃ next, image ⟨scope, step :: outer⟩ = (image ⟨scope, outer⟩).into next
  entry : ∀ scope name outer,
    image ⟨scope, .entry name :: outer⟩ = (image ⟨scope, outer⟩).into (.entry name)
  keeps : ∀ scope step outer name steps, kept ⟨scope, step :: outer⟩ → steps <:+ outer →
    kept ⟨scope, .entry name :: steps⟩
  roots : ∀ scope name, kept ⟨scope, [.entry name]⟩

namespace Library

/-- Another library of grammars with the same scopes. The rules at places that are `kept` stand in it
at the images of the places, with the same outlines. -/
structure Mirrors (library other : Library) (image : Place → Place) (kept : Place → Prop) : Prop where
  base : other.base.scopeName = library.base.scopeName
  grammars : ∀ scope, (other.grammar? scope).isSome = (library.grammar? scope).isSome
  rules : ∀ place, kept place →
    (other.rule? (image place)).map (·.outline) = (library.rule? place).map (·.outline)

variable {library other : Library} {image : Place → Place} {kept : Place → Prop}
  (mirrors : library.Mirrors other image kept) (embeds : Place.Embeds image kept)

include embeds

theorem grammar_image (place : Place) : (image place).grammar = place.grammar := by
  obtain ⟨scope, steps⟩ := place
  induction steps with
  | nil => rw [embeds.root]
  | cons step outer ih =>
    obtain ⟨next, same⟩ := embeds.step scope step outer
    rw [same]
    exact ih

theorem tail_image (scope : String) (steps : List PlaceStep) :
    (image ⟨scope, steps⟩).steps.tail = (image ⟨scope, steps.tail⟩).steps := by
  cases steps with
  | nil => rw [List.tail_nil, embeds.root, List.tail_nil]
  | cons step outer =>
    obtain ⟨next, same⟩ := embeds.step scope step outer
    rw [same]
    rfl

theorem suffix_image (scope : String) {outer inner : List PlaceStep} (around : outer <:+ inner) :
    (image ⟨scope, outer⟩).steps <:+ (image ⟨scope, inner⟩).steps := by
  obtain ⟨before, rfl⟩ := around
  induction before with
  | nil => exact List.suffix_rfl
  | cons step before ih =>
    obtain ⟨next, same⟩ := embeds.step scope step (before ++ outer)
    rw [List.cons_append, same]
    exact ih.trans (List.suffix_cons next _)

theorem inRepository_image {place : Place} (inside : place.InRepository) :
    (image place).InRepository := by
  obtain ⟨scope, steps⟩ := place
  obtain ⟨name, member⟩ := inside
  obtain ⟨before, outer, rfl⟩ := List.append_of_mem member
  have around : .entry name :: outer <:+ before ++ .entry name :: outer := List.suffix_append _ _
  refine ⟨name, (suffix_image embeds scope around).subset ?_⟩
  rw [embeds.entry]
  exact List.mem_cons_self

theorem keeps_entry {scope : String} {steps : List PlaceStep} (keeps : kept ⟨scope, steps⟩)
    (name : String) {outer : List PlaceStep} (around : outer <:+ steps.tail) :
    kept ⟨scope, .entry name :: outer⟩ := by
  cases steps with
  | nil =>
    obtain rfl := List.suffix_nil.mp around
    exact embeds.roots scope name
  | cons step steps => exact embeds.keeps scope step steps name outer keeps around

theorem keeps_turn? {place next : Place} (keeps : kept place)
    (turn : library.turn? place = some (.on next)) : kept next := by
  rcases next_of_turn? turn with ⟨name, outer, around, rfl⟩ | ⟨scope, name, rfl⟩
  · exact keeps_entry embeds keeps name around
  · exact embeds.roots scope name

include mirrors

theorem declares_image {scope : String} {grammar twin : GrammarDecl}
    (here : library.grammar? scope = some grammar) (there : other.grammar? scope = some twin)
    (name : String) (steps : List PlaceStep) (keeps : kept ⟨scope, .entry name :: steps⟩) :
    (twin.part? (image ⟨scope, steps⟩).steps (.entry name)).isSome =
      (grammar.part? steps (.entry name)).isSome := by
  have same := congrArg Option.isSome (mirrors.rules _ keeps)
  rw [embeds.entry, Option.isSome_map, Option.isSome_map] at same
  rw [rule?, rule?, Place.into, grammar_image embeds, here, there] at same
  exact same

theorem nearest?_image {place : Place} (keeps : kept place) (name : String) :
    other.nearest? (image place) name = (library.nearest? place name).map image := by
  obtain ⟨scope, steps⟩ := place
  unfold nearest?
  rw [grammar_image embeds, tail_image embeds]
  have scopes := mirrors.grammars scope
  cases here : library.grammar? scope with
  | none =>
    rw [here, Option.isSome_none, Option.isSome_eq_false_iff, Option.isNone_iff_eq_none] at scopes
    rw [scopes]
    rfl
  | some grammar =>
    rw [here] at scopes
    obtain ⟨twin, there⟩ := Option.isSome_iff_exists.mp scopes
    have found (outer : List PlaceStep) (around : outer <:+ steps.tail) :
        (twin.nearest? (image ⟨scope, outer⟩).steps name).map (⟨scope, ·⟩) =
          ((grammar.nearest? outer name).map (⟨scope, ·⟩)).map image := by
      have declares := declares_image mirrors embeds here there name outer
        (keeps_entry embeds keeps name around)
      have entered : image ⟨scope, .entry name :: outer⟩ =
          ⟨scope, .entry name :: (image ⟨scope, outer⟩).steps⟩ := by
        rw [embeds.entry, Place.into, grammar_image embeds]
      induction outer with
      | nil =>
        rw [embeds.root] at declares entered ⊢
        rw [GrammarDecl.nearest?_nil, GrammarDecl.nearest?_nil, declares]
        split <;> simp [entered]
      | cons step outer ih =>
        obtain ⟨next, same⟩ := embeds.step scope step outer
        have inner := (List.suffix_cons step outer).trans around
        have rest := ih inner (declares_image mirrors embeds here there name outer
          (keeps_entry embeds keeps name inner))
          (by rw [embeds.entry, Place.into, grammar_image embeds])
        rw [same] at declares entered ⊢
        simp only [Place.into] at declares entered ⊢
        rw [GrammarDecl.nearest?_cons, GrammarDecl.nearest?_cons, declares]
        split
        · simp [entered]
        · exact rest
    rw [there]
    exact found steps.tail List.suffix_rfl

theorem turn?_image {place : Place} (keeps : kept place) :
    other.turn? (image place) = (library.turn? place).map (·.map image) := by
  have same := mirrors.rules place keeps
  cases here : library.rule? place with
  | none =>
    rw [here, Option.map_none, Option.map_eq_none_iff] at same
    simp [turn?, here, same]
  | some rule =>
    rw [here] at same
    obtain ⟨twin, there, outlines⟩ := Option.map_eq_some_iff.mp same
    have refers : twin.reference = rule.reference := congrArg Prod.fst outlines
    rw [turn?_eq here, turn?_eq there, refers]
    have constant {α : Type} (scope : String) (value : α) :
        (other.grammar? scope).map (fun _ => value) = (library.grammar? scope).map fun _ => value := by
      have scopes := mirrors.grammars scope
      cases first : other.grammar? scope <;> cases second : library.grammar? scope <;>
        simp [first, second] at scopes ⊢
    cases rule.reference with
    | none => rfl
    | some text =>
      dsimp only
      cases referenceOf text with
      | self => simp [Turn.map, Site.map, grammar_image embeds]
      | base => simp [Turn.map, Site.map, mirrors.base]
      | «local» name =>
        simp only [nearest?_image mirrors embeds keeps, Option.map_map]
        rfl
      | foreign scope name =>
        cases name with
        | none => simp [constant, Turn.map, Site.map, Function.comp_def]
        | some name => simp [constant, Turn.map, Function.comp_def, embeds.entry, embeds.root, Place.into]

theorem means_image {place : Place} (keeps : kept place) (site : Site) :
    other.Means (image place) site ↔ ∃ origin, library.Means place origin ∧ origin.map image = site := by
  constructor
  · rintro ⟨trail, leads⟩
    generalize start : image place = twin at leads
    induction leads generalizing place with
    | arrive turn =>
      subst start
      rw [turn?_image mirrors embeds keeps] at turn
      obtain ⟨origin, here, same⟩ := Option.map_eq_some_iff.mp turn
      cases origin with
      | arrived origin => exact ⟨origin, ⟨_, .arrive here⟩, Turn.arrived.inj same⟩
      | on next => cases same
    | go turn _ ih =>
      subst start
      rw [turn?_image mirrors embeds keeps] at turn
      obtain ⟨origin, here, same⟩ := Option.map_eq_some_iff.mp turn
      cases origin with
      | arrived origin => cases same
      | on next =>
        obtain ⟨origin, means, same⟩ := ih (keeps_turn? embeds keeps here) (Turn.on.inj same)
        exact ⟨origin, means.onward here, same⟩
  · rintro ⟨origin, ⟨trail, leads⟩, rfl⟩
    induction leads with
    | arrive turn => exact ⟨_, .arrive (by rw [turn?_image mirrors embeds keeps, turn]; rfl)⟩
    | go turn _ ih =>
      refine (ih (keeps_turn? embeds keeps turn)).onward ?_
      rw [turn?_image mirrors embeds keeps, turn]
      rfl

end Library

namespace Library.Mirrors

variable {library other : Library} {image back : Place → Place}
  (mirrors : library.Mirrors other image fun _ => True)
  (undone : ∀ place, image (back place) = place)

include mirrors undone

theorem backwards : other.Mirrors library back fun _ => True where
  base := mirrors.base.symm
  grammars := fun scope => (mirrors.grammars scope).symm
  rules := fun place _ => by
    have same := mirrors.rules (back place) trivial
    rw [undone] at same
    exact same.symm

theorem groups
    (distinct : ∀ place rule field table, library.rule? place = some rule →
      rule.captured field = some table → (table.map (·.1)).Nodup)
    (place : Place) (rule : RuleDecl) (field : CaptureField) (table : List (String × RuleDecl))
    (here : other.rule? place = some rule) (captured : rule.captured field = some table) :
    (table.map (·.1)).Nodup := by
  have same := (mirrors.backwards undone).rules place trivial
  rw [here] at same
  obtain ⟨origin, found, outlines⟩ := Option.map_eq_some_iff.mp same
  have keys : (origin.captured field).map (·.map (·.1)) = (rule.captured field).map (·.map (·.1)) :=
    congrFun (congrArg Prod.snd outlines) field
  rw [captured] at keys
  obtain ⟨others, declared, listed⟩ := Option.map_eq_some_iff.mp keys
  have listed : others.map (·.1) = table.map (·.1) := listed
  exact listed ▸ distinct _ _ _ _ found declared

theorem apart (embeds : Place.Embeds image fun _ => True) (returns : Place.Embeds back fun _ => True)
    (apart : library.Apart) : other.Apart := by
  have backwards := mirrors.backwards undone
  rintro ⟨scope, steps⟩ rule text name here refers names inside twin there outer declares
  have same := backwards.rules ⟨scope, steps⟩ trivial
  rw [here] at same
  obtain ⟨origin, found, outlines⟩ := Option.map_eq_some_iff.mp same
  have scopes := backwards.grammars scope
  rw [there] at scopes
  obtain ⟨grammar, stored⟩ := Option.isSome_iff_exists.mp scopes
  have around := apart _ origin text name found ((congrArg Prod.fst outlines).trans refers) names
    (inRepository_image returns inside) grammar (by rwa [grammar_image returns])
    (back ⟨scope, outer⟩).steps
    (by rwa [declares_image backwards returns there stored name outer trivial])
  rw [tail_image returns] at around
  have restored (steps : List PlaceStep) :
      image ⟨scope, (back ⟨scope, steps⟩).steps⟩ = ⟨scope, steps⟩ := by
    have own : (back ⟨scope, steps⟩).grammar = scope := grammar_image returns _
    calc image ⟨scope, (back ⟨scope, steps⟩).steps⟩
      _ = image ⟨(back ⟨scope, steps⟩).grammar, (back ⟨scope, steps⟩).steps⟩ := by rw [own]
      _ = ⟨scope, steps⟩ := undone _
  have moved := suffix_image embeds scope around
  rwa [restored, restored] at moved

end Library.Mirrors

namespace Place

def Inside (place rule : Place) : Prop :=
  place.grammar = rule.grammar ∧ rule.steps <:+ place.steps.tail

theorem embeds_outside (rule : Place) (isRule : rule.steps ≠ []) :
    Embeds id fun place => ¬ place.Inside rule where
  root := fun _ => rfl
  step := fun _ step _ => ⟨step, rfl⟩
  entry := fun _ _ _ => rfl
  keeps := fun _ _ _ _ _ outside around inside => outside ⟨inside.1, inside.2.trans around⟩
  roots := fun _ _ inside => isRule (List.suffix_nil.mp inside.2)

def reorderStep (order : Nat → Nat) : PlaceStep → PlaceStep
  | .pattern index => .pattern (order index)
  | step => step

def reorderSteps (list : List PlaceStep) (order : Nat → Nat) : List PlaceStep → List PlaceStep
  | [] => []
  | step :: outer =>
    (if outer = list then reorderStep order step else step) :: reorderSteps list order outer

theorem reorderSteps_outside {list place : List PlaceStep} (order : Nat → Nat)
    (outside : ¬ list <:+ place.tail) : reorderSteps list order place = place := by
  induction place with
  | nil => rfl
  | cons step outer ih =>
    have other : outer ≠ list := by
      rintro rfl
      exact outside List.suffix_rfl
    rw [reorderSteps, if_neg other, ih fun inside => outside (inside.trans (List.tail_suffix outer))]

theorem reorderSteps_self (list : List PlaceStep) (order : Nat → Nat) :
    reorderSteps list order list = list := by
  cases list with
  | nil => rfl
  | cons last list =>
    refine reorderSteps_outside order fun inside => ?_
    have := inside.length_le
    simp at this

theorem reorderSteps_inside (list : List PlaceStep) (order : Nat → Nat) (inner : List PlaceStep)
    (step : PlaceStep) :
    reorderSteps list order (inner ++ step :: list) = inner ++ reorderStep order step :: list := by
  induction inner with
  | nil =>
    rw [List.nil_append, reorderSteps, if_pos rfl, reorderSteps_self, List.nil_append]
  | cons next inner ih =>
    have longer : inner ++ step :: list ≠ list := fun same => by
      have := congrArg List.length same
      simp at this
      omega
    rw [List.cons_append, reorderSteps, if_neg longer, ih, List.cons_append]

theorem reorderSteps_back {order back : Nat → Nat} (undone : ∀ index, order (back index) = index)
    (list place : List PlaceStep) :
    reorderSteps list order (reorderSteps list back place) = place := by
  induction place with
  | nil => rfl
  | cons step outer ih =>
    rw [reorderSteps]
    by_cases same : outer = list
    · subst same
      rw [if_pos rfl, reorderSteps_self, reorderSteps, if_pos rfl, reorderSteps_self]
      cases step <;> simp [reorderStep, undone]
    · have other : reorderSteps list back outer ≠ list := fun moved => by
        rw [moved, reorderSteps_self] at ih
        exact same ih.symm
      rw [if_neg same, reorderSteps, if_neg other, ih]

def reorder (list : Place) (order : Nat → Nat) (place : Place) : Place :=
  if place.grammar = list.grammar then ⟨place.grammar, reorderSteps list.steps order place.steps⟩
  else place

theorem reorder_back {order back : Nat → Nat} (undone : ∀ index, order (back index) = index)
    (list place : Place) : reorder list order (reorder list back place) = place := by
  obtain ⟨scope, steps⟩ := place
  by_cases same : scope = list.grammar <;> simp [reorder, same, reorderSteps_back undone]

theorem embeds_reorder (list : Place) (order : Nat → Nat) :
    Embeds (reorder list order) fun _ => True where
  root := fun scope => by
    unfold reorder
    split <;> rfl
  step := fun scope step outer => by
    unfold reorder
    split <;> exact ⟨_, rfl⟩
  entry := fun scope name outer => by
    unfold reorder
    split
    · simp [reorderSteps, reorderStep, Place.into]
    · rfl
  keeps := fun _ _ _ _ _ _ _ => trivial
  roots := fun _ _ => trivial

end Place

end Highlighter
