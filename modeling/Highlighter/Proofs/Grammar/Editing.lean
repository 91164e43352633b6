import Highlighter.Proofs.Grammar.Locality

set_option autoImplicit false

namespace Highlighter

namespace RuleDecl

def changeKey (key : String) (change : RuleDecl → RuleDecl) (table : List (String × RuleDecl)) :
    List (String × RuleDecl) :=
  table.map fun (name, rule) => (name, if name = key then change rule else rule)

theorem lookup_changeKey (key name : String) (change : RuleDecl → RuleDecl)
    (table : List (String × RuleDecl)) :
    (changeKey key change table).lookup name =
      (table.lookup name).map fun rule => if name = key then change rule else rule := by
  induction table with
  | nil => rfl
  | cons entry rest ih =>
    obtain ⟨other, rule⟩ := entry
    simp only [changeKey, List.map_cons, List.lookup_cons] at ih ⊢
    cases same : name == other with
    | true => simp [beq_iff_eq.mp same]
    | false => exact ih

def modify (step : PlaceStep) (change : RuleDecl → RuleDecl) (rule : RuleDecl) : RuleDecl :=
  match step with
  | .pattern index => { rule with nested := rule.nested.map (·.modify index change) }
  | .entry name => { rule with repository := rule.repository.map (changeKey name change) }
  | .capture .all key => { rule with captures := rule.captures.map (changeKey key change) }
  | .capture .opening key =>
    { rule with openingCaptures := rule.openingCaptures.map (changeKey key change) }
  | .capture .closing key =>
    { rule with closingCaptures := rule.closingCaptures.map (changeKey key change) }
  | .capture .continuing key =>
    { rule with continuingCaptures := rule.continuingCaptures.map (changeKey key change) }
  | .injection _ => rule

theorem keys_changeKey (key : String) (change : RuleDecl → RuleDecl)
    (table : List (String × RuleDecl)) :
    (changeKey key change table).map (·.1) = table.map (·.1) := by
  simp [changeKey]

theorem outline_modify (step : PlaceStep) (change : RuleDecl → RuleDecl) (rule : RuleDecl) :
    (rule.modify step change).outline = rule.outline := by
  have keys (key : String) (table : Option (List (String × RuleDecl))) :
      (table.map (changeKey key change)).map (·.map (·.1)) = table.map (·.map (·.1)) := by
    simp [Function.comp_def, keys_changeKey]
  cases step with
  | capture field key =>
    refine Prod.ext (by cases field <;> rfl) (funext fun kind => ?_)
    cases field <;> cases kind <;> first | rfl | exact keys key _
  | pattern _ | entry _ | injection _ => rfl

theorem getD_changeKey (key name : String) (change : RuleDecl → RuleDecl)
    (table : Option (List (String × RuleDecl))) :
    ((table.map (changeKey key change)).getD []).lookup name =
      ((table.getD []).lookup name).map fun rule => if name = key then change rule else rule := by
  cases table with
  | none => rfl
  | some table => exact lookup_changeKey key name change table

theorem part?_modify (step other : PlaceStep) (change : RuleDecl → RuleDecl) (rule : RuleDecl) :
    (rule.modify step change).part? other =
      (rule.part? other).map fun part => if other = step then change part else part := by
  have keep {part : Option RuleDecl} (different : other ≠ step) :
      part = part.map fun part => if other = step then change part else part := by
    simp [different]
  cases step with
  | pattern index =>
    cases other with
    | pattern next =>
      cases nested : rule.nested with
      | none => simp [modify, part?, nested]
      | some rules => simp [modify, part?, nested, List.getElem?_modify, eq_comm]
    | _ => exact keep (by simp)
  | entry name =>
    cases other with
    | entry next => simpa [modify, part?] using getD_changeKey name next change rule.repository
    | _ => exact keep (by simp)
  | capture field key =>
    cases other with
    | capture kind next =>
      by_cases same : kind = field
      · subst same
        cases kind <;> simpa [modify, part?, captured] using getD_changeKey key next change _
      · have unchanged : (rule.modify (.capture field key) change).captured kind =
            rule.captured kind := by
          cases field <;> cases kind <;> first | rfl | exact absurd rfl same
        rw [part?, unchanged]
        exact keep (by simp [same])
    | pattern _ | entry _ | injection _ => cases field <;> exact keep (by simp)
  | injection selector => cases other <;> simp [modify, part?]

end RuleDecl

namespace GrammarDecl

def modify (step : PlaceStep) (change : RuleDecl → RuleDecl) (grammar : GrammarDecl) : GrammarDecl :=
  match step with
  | .pattern index => { grammar with patterns := grammar.patterns.modify index change }
  | .entry name => { grammar with repository := RuleDecl.changeKey name change grammar.repository }
  | .injection selector =>
    { grammar with injections := RuleDecl.changeKey selector change grammar.injections }
  | .capture _ _ => grammar

def modifyPart (change : RuleDecl → RuleDecl) (grammar : GrammarDecl) :
    List PlaceStep → PlaceStep → GrammarDecl
  | [], step => grammar.modify step change
  | last :: outer, step => grammar.modifyPart (RuleDecl.modify step change) outer last

variable {grammar other : GrammarDecl}

theorem part?_modify (step other : PlaceStep) (change : RuleDecl → RuleDecl)
    (grammar : GrammarDecl) :
    (grammar.modify step change).part? [] other =
      (grammar.part? [] other).map fun part => if other = step then change part else part := by
  have keep {part : Option RuleDecl} (different : other ≠ step) :
      part = part.map fun part => if other = step then change part else part := by
    simp [different]
  cases step with
  | pattern index =>
    cases other with
    | pattern next => simp [modify, part?, List.getElem?_modify, eq_comm]
    | _ => exact keep (by simp)
  | entry name =>
    cases other with
    | entry next => simpa [modify, part?] using RuleDecl.lookup_changeKey name next change _
    | _ => exact keep (by simp)
  | injection selector =>
    cases other with
    | injection next => simpa [modify, part?] using RuleDecl.lookup_changeKey selector next change _
    | _ => exact keep (by simp)
  | capture field key => cases other <;> simp [modify, part?]

theorem part?_modifyPart (change : RuleDecl → RuleDecl) (grammar : GrammarDecl)
    (outer : List PlaceStep) (step other : PlaceStep) :
    (grammar.modifyPart change outer step).part? outer other =
      (grammar.part? outer other).map fun part => if other = step then change part else part := by
  induction outer generalizing step other change with
  | nil => exact part?_modify step other change grammar
  | cons last outer ih =>
    rw [modifyPart, part?, ih, part?]
    cases grammar.part? outer last with
    | none => rfl
    | some rule => simpa using rule.part?_modify step other change

theorem part?_append {steps : List PlaceStep} {first second : PlaceStep}
    (same : other.part? steps first = grammar.part? steps second) (inner : List PlaceStep)
    (step : PlaceStep) :
    other.part? (inner ++ first :: steps) step = grammar.part? (inner ++ second :: steps) step := by
  induction inner generalizing step with
  | nil => simp only [List.nil_append, part?, same]
  | cons last inner ih => simp only [List.cons_append, part?, ih]

theorem outline_modifyPart {change : RuleDecl → RuleDecl}
    (keeps : ∀ rule, (change rule).outline = rule.outline) (grammar : GrammarDecl)
    (outer : List PlaceStep) (step : PlaceStep) (place : List PlaceStep) (last : PlaceStep)
    (outside : ¬ step :: outer <:+ place) :
    ((grammar.modifyPart change outer step).part? place last).map (·.outline) =
      (grammar.part? place last).map (·.outline) := by
  -- Where the changed rule is held, its own reference is the same and the others are untouched.
  have around (change : RuleDecl → RuleDecl) (keeps : ∀ rule, (change rule).outline = rule.outline)
      (outer : List PlaceStep) (step : PlaceStep) (outside : ¬ step :: outer <:+ place)
      (inside : outer <:+ place) :
      ((grammar.modifyPart change outer step).part? place last).map (·.outline) =
        (grammar.part? place last).map (·.outline) := by
    have beside := part?_modifyPart change grammar outer step
    obtain ⟨inner, rfl⟩ := inside
    rcases List.eq_nil_or_concat' inner with rfl | ⟨inner, next, rfl⟩
    · rw [List.nil_append, beside, Option.map_map]
      congr 1
      funext rule
      by_cases same : last = step <;> simp [same, keeps]
    · rw [List.append_assoc, List.singleton_append] at outside ⊢
      have different : next ≠ step := by
        rintro rfl
        exact outside (List.suffix_append _ _)
      refine congrArg _ (part?_append ?_ inner last)
      simp [beside, different]
  induction outer generalizing step change with
  | nil => exact around change keeps [] step outside (List.nil_suffix)
  | cons next outer ih =>
    by_cases inside : next :: outer <:+ place
    · exact around change keeps (next :: outer) step outside inside
    · exact ih (RuleDecl.outline_modify step change) next inside

theorem scopeName_modifyPart (change : RuleDecl → RuleDecl) (grammar : GrammarDecl)
    (outer : List PlaceStep) (step : PlaceStep) :
    (grammar.modifyPart change outer step).scopeName = grammar.scopeName := by
  induction outer generalizing step change with
  | nil => cases step <;> rfl
  | cons last outer ih => exact ih _ last

theorem injections_modifyPart (change : RuleDecl → RuleDecl) (grammar : GrammarDecl)
    (outer : List PlaceStep) (step : PlaceStep) :
    (grammar.modifyPart change outer step).injections.map (·.1) = grammar.injections.map (·.1) := by
  induction outer generalizing step change with
  | nil =>
    cases step with
    | injection selector => exact RuleDecl.keys_changeKey selector change grammar.injections
    | _ => rfl
  | cons last outer ih => exact ih _ last

def withRepository (repository : Option (List (String × RuleDecl))) (grammar : GrammarDecl) :
    List PlaceStep → GrammarDecl
  | [] => grammar
  | last :: outer => grammar.modifyPart ({ · with repository }) outer last

def withList (rules : List RuleDecl) (grammar : GrammarDecl) : List PlaceStep → GrammarDecl
  | [] => { grammar with patterns := rules }
  | last :: outer => grammar.modifyPart ({ · with nested := some rules }) outer last

theorem outline_withRepository (repository : Option (List (String × RuleDecl)))
    (grammar : GrammarDecl) {rule place : List PlaceStep} (outside : ¬ rule <:+ place.tail) :
    ((grammar.withRepository repository rule).rule? place).map (·.outline) =
      (grammar.rule? place).map (·.outline) := by
  cases rule with
  | nil => exact absurd List.nil_suffix outside
  | cons step outer =>
    cases place with
    | nil => rfl
    | cons last place =>
      refine outline_modifyPart ?_ grammar outer step place last outside
      exact fun _ => rfl

theorem part?_withList {rules : List RuleDecl} {list : List PlaceStep} {order : Nat → Nat}
    (listed : ∀ index, rules[order index]? = grammar.part? list (.pattern index)) (step : PlaceStep) :
    (grammar.withList rules list).part? list (Place.reorderStep order step) =
      grammar.part? list step := by
  cases list with
  | nil =>
    cases step with
    | pattern index => exact listed index
    | _ => rfl
  | cons last outer =>
    rw [withList, part?, part?_modifyPart]
    cases here : grammar.part? outer last with
    | none => simp [part?, here]
    | some rule =>
      cases step with
      | pattern index =>
        rw [← listed index]
        simp [RuleDecl.part?, Place.reorderStep]
      | entry name => simp [part?, here, RuleDecl.part?, Place.reorderStep]
      | capture field key =>
        cases field <;> simp [part?, here, RuleDecl.part?, RuleDecl.captured, Place.reorderStep]
      | injection selector => simp [part?, here, RuleDecl.part?, Place.reorderStep]

theorem outline_withList {rules : List RuleDecl} {list : List PlaceStep} {order : Nat → Nat}
    (listed : ∀ index, rules[order index]? = grammar.part? list (.pattern index))
    (place : List PlaceStep) :
    ((grammar.withList rules list).rule? (Place.reorderSteps list order place)).map (·.outline) =
      (grammar.rule? place).map (·.outline) := by
  cases place with
  | nil => rfl
  | cons last outer =>
    by_cases inside : list <:+ outer
    · obtain ⟨before, rfl⟩ := inside
      obtain ⟨inner, step, split⟩ : ∃ inner step, last :: before = inner ++ [step] :=
        (List.eq_nil_or_concat' (last :: before)).resolve_left (List.cons_ne_nil _ _)
      have place : last :: (before ++ list) = inner ++ step :: list := by
        rw [← List.cons_append, split, List.append_assoc, List.singleton_append]
      have moved := part?_withList listed step
      rw [place, Place.reorderSteps_inside]
      refine congrArg _ ?_
      cases inner with
      | nil => exact moved
      | cons next inner => exact part?_append moved inner next
    · rw [Place.reorderSteps_outside order inside]
      cases list with
      | nil => exact absurd List.nil_suffix inside
      | cons step list =>
        refine outline_modifyPart ?_ grammar list step outer last inside
        exact fun _ => rfl

section

variable (rules : List RuleDecl) (grammar : GrammarDecl) (list : List PlaceStep)

theorem scopeName_withList : (grammar.withList rules list).scopeName = grammar.scopeName := by
  cases list with
  | nil => rfl
  | cons step outer => exact scopeName_modifyPart _ grammar outer step

theorem injections_withList :
    (grammar.withList rules list).injections.map (·.1) = grammar.injections.map (·.1) := by
  cases list with
  | nil => rfl
  | cons step outer => exact injections_modifyPart _ grammar outer step

end

end GrammarDecl

namespace Library

structure Changes (library other : Library) (scope : String) (change : GrammarDecl → GrammarDecl) :
    Prop where
  base : other.base.scopeName = library.base.scopeName
  grammars : ∀ name, other.grammar? name =
    (library.grammar? name).map fun grammar => if name = scope then change grammar else grammar

def changed (library : Library) (change : GrammarDecl → GrammarDecl) : Library :=
  { library with base := change library.base }

theorem changes_changed (library : Library) (change : GrammarDecl → GrammarDecl)
    (keeps : (change library.base).scopeName = library.base.scopeName) :
    library.Changes (library.changed change) library.base.scopeName change where
  base := keeps
  grammars := fun name => by
    unfold grammar?
    simp only [changed, keeps]
    by_cases own : name = library.base.scopeName
    · simp [own]
    · simp [own]

namespace Changes

variable {library other : Library}

theorem mirrors {scope : String} {change : GrammarDecl → GrammarDecl}
    (changes : library.Changes other scope change) {image : Place → Place} {kept : Place → Prop}
    (embeds : Place.Embeds image kept)
    (inside : ∀ grammar steps, library.grammar? scope = some grammar → kept ⟨scope, steps⟩ →
      ((change grammar).rule? (image ⟨scope, steps⟩).steps).map (·.outline) =
        (grammar.rule? steps).map (·.outline))
    (outside : ∀ place, place.grammar ≠ scope → image place = place) :
    library.Mirrors other image kept where
  base := changes.base
  grammars := fun name => by rw [changes.grammars, Option.isSome_map]
  rules := fun place keeps => by
    rw [rule?, rule?, grammar_image embeds, changes.grammars]
    cases stored : library.grammar? place.grammar with
    | none => rfl
    | some grammar =>
      by_cases same : place.grammar = scope
      · subst same
        simpa using inside grammar place.steps stored keeps
      · simp [same, outside place same]

theorem means_outside {rule : Place} (isRule : rule.steps ≠ [])
    {repository : Option (List (String × RuleDecl))}
    (changes : library.Changes other rule.grammar (·.withRepository repository rule.steps))
    {place : Place} (outside : ¬ place.Inside rule) (site : Site) :
    other.Means place site ↔ library.Means place site := by
  have embeds := Place.embeds_outside rule isRule
  have mirrors := changes.mirrors embeds
    (fun grammar steps _ keeps => grammar.outline_withRepository repository
      fun inside => keeps ⟨rfl, inside⟩) fun _ _ => rfl
  refine (means_image mirrors embeds outside site).trans ?_
  have same (origin : Site) : origin.map id = origin := by cases origin <;> rfl
  simp [same]

section

variable {scope : String} {change : GrammarDecl → GrammarDecl}
  (changes : library.Changes other scope change)

include changes

theorem keyed (keeps : ∀ grammar, (change grammar).scopeName = grammar.scopeName)
    (keyed : library.Keyed) : other.Keyed := by
  intro name twin there
  rw [changes.grammars] at there
  obtain ⟨grammar, stored, same⟩ := Option.map_eq_some_iff.mp there
  have key := keyed name grammar stored
  split at same <;> simp [← same, keeps, key]

theorem injections (keeps : ∀ grammar,
    (change grammar).injections.map (·.1) = grammar.injections.map (·.1)) :
    other.base.injections.map (·.1) = library.base.injections.map (·.1) := by
  have there : other.grammar? other.base.scopeName = some other.base := if_pos rfl
  have stored : library.grammar? library.base.scopeName = some library.base := if_pos rfl
  rw [changes.grammars, changes.base, stored] at there
  rw [← Option.some.inj there]
  split
  · exact keeps library.base
  · rfl

end

section

variable {list : Place} {rules : List RuleDecl} {order : Nat → Nat}
  (changes : library.Changes other list.grammar (·.withList rules list.steps))
  (listed : ∀ index, rules[order index]? = library.rule? (list.into (.pattern index)))

include changes listed

theorem mirrors_reorder : library.Mirrors other (Place.reorder list order) fun _ => True := by
  refine changes.mirrors (Place.embeds_reorder list order) (fun grammar steps stored _ => ?_)
    fun place apart => if_neg apart
  rw [Place.reorder, if_pos rfl]
  refine GrammarDecl.outline_withList (fun index => ?_) steps
  rw [listed, rule?, Place.into, stored]
  rfl

theorem means_reorder (place : Place) (site : Site) :
    other.Means (Place.reorder list order place) site ↔
      ∃ origin, library.Means place origin ∧ origin.map (Place.reorder list order) = site :=
  means_image (changes.mirrors_reorder listed) (Place.embeds_reorder list order) trivial site

variable {back : Nat → Nat} (undone : ∀ index, order (back index) = index)

include undone

theorem tidy_reorder (tidy : library.Tidy) : other.Tidy where
  keyed := changes.keyed (fun grammar => grammar.scopeName_withList rules list.steps) tidy.keyed
  groups := (changes.mirrors_reorder listed).groups (Place.reorder_back undone list) tidy.groups
  injections := by
    rw [changes.injections fun grammar => grammar.injections_withList rules list.steps]
    exact tidy.injections

theorem apart_reorder (apart : library.Apart) : other.Apart :=
  (changes.mirrors_reorder listed).apart (Place.reorder_back undone list)
    (Place.embeds_reorder list order) (Place.embeds_reorder list back) apart

end

end Changes

end Library

end Highlighter
