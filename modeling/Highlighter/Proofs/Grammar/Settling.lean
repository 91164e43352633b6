import Highlighter.Proofs.Grammar.Compilation
import Highlighter.Proofs.Grammar.Numbering

set_option autoImplicit false

namespace Highlighter

namespace Compile

variable {α β : Type} {library : Library} {draft : Draft}

def Does (library : Library) (action : Compile α) (draft : Draft)
    (after : α → Draft → Prop) : Prop :=
  draft.Sound → draft.Grows library (action.run draft).2 ∧ (action.run draft).2.Sound ∧
    after (action.run draft).1 (action.run draft).2

namespace Does

variable {after : α → Draft → Prop}

theorem pure (value : α) (holds : after value draft) : Does library (Pure.pure value) draft after :=
  fun sound => ⟨.refl library draft, sound, holds⟩

theorem bind {first : Compile β} {next : β → Compile α} {between : β → Draft → Prop}
    (before : Does library first draft between)
    (rest : ∀ value middle, draft.Grows library middle → between value middle →
      Does library (next value) middle after) :
    Does library (first >>= next) draft after := by
  intro sound
  obtain ⟨grows, middle, value⟩ := before sound
  obtain ⟨further, last, result⟩ := rest _ _ grows value middle
  exact ⟨grows.trans further, last, result⟩

theorem mono {action : Compile α} {weaker : α → Draft → Prop} (does : Does library action draft after)
    (implies : ∀ value next, draft.Grows library next → after value next → weaker value next) :
    Does library action draft weaker := by
  intro sound
  obtain ⟨grows, next, value⟩ := does sound
  exact ⟨grows, next, implies _ _ grows value⟩

theorem of_run {action other : Compile α} (same : action.run draft = other.run draft)
    (does : Does library other draft after) : Does library action draft after := by
  unfold Does
  rw [same]
  exact does

theorem each {items : List (Place × RuleDecl)} {compile : Place × RuleDecl → Compile (Option RuleId)}
    (one : ∀ item ∈ items, ∀ next, draft.Grows library next →
      Does library (compile item) next fun found last => library.Answers last.number item.1 found) :
    Does library (Compile.each compile items) draft fun nested next =>
      library.Lists next.number items nested := by
  induction items generalizing draft with
  | nil => exact pure [] ⟨[], .nil, rfl⟩
  | cons item rest ih =>
    refine (one item List.mem_cons_self draft (.refl library draft)).bind
      fun found middle grows answers => ?_
    refine (ih fun item member next further =>
      one item (List.mem_cons_of_mem _ member) next (grows.trans further)).bind
        fun nested last further lists => ?_
    obtain ⟨founds, all, rfl⟩ := lists
    exact pure _ ⟨found :: founds, .cons (answers.mono further.numbers) all, rfl⟩

theorem flag {change : Draft → Draft} (rules : (change draft).rules = draft.rules)
    (numbers : (change draft).number = draft.number) :
    Does library (modify change) draft fun _ _ => True := by
  have grows : draft.Grows library (change draft) := by
    refine ⟨by rw [rules], fun id _ => by rw [rules], fun site found same => ?_,
      fun site found new same => ?_⟩
    · rwa [numbers]
    · rw [numbers, new] at same
      exact nomatch same
  refine fun sound => ⟨grows, ⟨fun site id here => ?_, fun one other id => ?_, fun place => ?_⟩, trivial⟩
  · change (change draft).number site = _ at here
    change id < (change draft).rules.size
    rw [rules]
    exact sound.bounded site id (numbers ▸ here)
  · change (change draft).number one = _ → (change draft).number other = _ → _
    rw [numbers]
    exact sound.distinct one other id
  · change _ → (change draft).number (.rule place) ≠ _
    rw [numbers]
    exact sound.groups place

theorem lay (table : List (String × RuleDecl)) :
    Does library (Compile.lay table) draft fun _ _ => True :=
  flag rfl (funext fun site => by cases site <;> rfl)

theorem goRound : Does library Compile.goRound draft fun _ _ => True :=
  flag rfl (funext fun site => by cases site <;> rfl)

theorem mapM {γ : Type} {items : List γ} {action : γ → Compile β} (meets : Numbering → γ → β → Prop)
    (keeps : ∀ item value (draft next : Draft), draft.Grows library next →
      meets draft.number item value → meets next.number item value)
    (one : ∀ item ∈ items, ∀ next, draft.Grows library next →
      Does library (action item) next fun value last => meets last.number item value) :
    Does library (items.mapM action) draft fun values next =>
      List.Forall₂ (meets next.number) items values := by
  induction items generalizing draft with
  | nil => exact pure [] .nil
  | cons item rest ih =>
    rw [List.mapM_cons]
    refine (one item List.mem_cons_self draft (.refl library draft)).bind
      fun value middle grows met => ?_
    refine (ih fun item member next further =>
      one item (List.mem_cons_of_mem _ member) next (grows.trans further)).bind
        fun values last further all => ?_
    exact pure _ (.cons (keeps item value middle last further met) all)

end Does

-- A site has its number before its rule is worked out, so that the rules inside may refer to it.
def entering (site : Site) (body : Compile (RuleId → Rule)) : Compile RuleId := fun draft =>
  let (rule, next) := body.run (draft.enter site)
  (draft.rules.size, next.fill draft.rules.size (rule draft.rules.size))

theorem Does.entering {site : Site} (unmet : draft.number site = none) {body : Compile (RuleId → Rule)}
    (does : Does library body (draft.enter site) fun rule next =>
      ∀ id, library.Renders next.number next.filled site (rule id)) :
    Does library (Compile.entering site body) draft fun id next =>
      next.number site = some (some id) := by
  intro sound
  obtain ⟨grows, next, renders⟩ := does (sound.enter site)
  refine ⟨.enter unmet grows (renders _), next.fill _ _, grows.numbers site _ ?_⟩
  rw [Draft.number_enter, if_pos rfl]
  rfl

def holding (nested : Compile (List RuleId)) : Compile RuleId := do
  let holder ← reserve
  let nested ← nested
  Compile.fill holder (Rule.held · nested)
  return holder

theorem Does.holding {nested : Compile (List RuleId)} {items : List (Place × RuleDecl)}
    (does : ∀ next, draft.Grows library next →
      Does library nested next fun nested last => library.Lists last.number items nested) :
    Does library (Compile.holding nested) draft fun holder next =>
      ∃ nested, next.filled holder = some (Rule.held holder nested) ∧
        library.Lists next.number items nested := by
  intro sound
  obtain ⟨grows, next, listed⟩ := does draft.room (.room library draft) sound.room
  have slot : (nested.run draft.room).2.rules[draft.rules.size]? = some none :=
    (grows.rules _ (by simp [Draft.room])).trans Array.getElem?_push_size
  have inside : draft.rules.size < (nested.run draft.room).2.rules.size :=
    (Nat.lt_succ_self _).trans_le (by simpa [Draft.room] using grows.size)
  exact ⟨((Draft.Grows.room library draft).trans grows).fill le_rfl (by simp [Draft.filled, slot]) _,
    next.fill _ _, _, Draft.filled_fill_self inside _, listed⟩

theorem whole_run (scope : String) (draft : Draft) :
    (whole scope).run draft =
      match draft.wholes.lookup scope with
      | some id => ((id, true), draft)
      | none => ((draft.rules.size, false), draft.enter (.whole scope)) := by
  change StateT.run (match draft.wholes.lookup scope with
    | some id => _
    | none => _) draft = _
  cases draft.wholes.lookup scope <;> rfl

theorem grammar_run (library : Library) (fuel : Nat) (decl : GrammarDecl) (draft : Draft) :
    (grammar library (fuel + 1) decl).run draft =
      match draft.wholes.lookup decl.scopeName with
      | some id => (id, draft)
      | none => (entering (.whole decl.scopeName) do
          let around := Surroundings.ofGrammar decl
          let nested ← each (fun (place, decl) => entry library (grammar library fuel)
              (rule library fuel) around place decl)
            (numberedPlaces (Surroundings.root decl) decl.patterns)
          return (Rule.held · nested)).run draft := by
  rw [grammar, StateT.run_bind, whole_run]
  cases found : draft.wholes.lookup decl.scopeName with
  | none => rfl
  | some id => rfl

theorem rule_run (library : Library) (fuel : Nat) (place : Place) (decl : RuleDecl) (around : Surroundings)
    (draft : Draft) :
    (rule library (fuel + 1) place decl around).run draft =
      match draft.numbered.lookup place with
      | some known => (known, draft)
      | none =>
        match RulePatterns.ofDecl? decl with
        | none => (none, { draft with numbered := (place, none) :: draft.numbered })
        | some patterns =>
          let inside := around.within place decl
          (do
            let id ← entering (.rule place) do
              let nested ← each (fun (place, decl) => entry library (grammar library fuel)
                  (rule library fuel) inside place decl)
                (numberedPlaces place (decl.nested.getD []))
              let kind ← kindOf (fun place decl => capturing library fuel place decl inside) place
                decl nested patterns
              return templates decl kind
            return some id : Compile (Option RuleId)).run draft := by
  rw [rule]
  change StateT.run (match draft.numbered.lookup place with
    | some known => _
    | none => _) draft = _
  cases draft.numbered.lookup place with
  | some known => rfl
  | none => cases RulePatterns.ofDecl? decl <;> rfl

theorem capturing_run (library : Library) (fuel : Nat) (place : Place) (decl : RuleDecl)
    (around : Surroundings) (draft : Draft) :
    (capturing library (fuel + 1) place decl around).run draft =
      match draft.numbered.lookup place with
      | some (some known) => (known, draft)
      | _ => (entering (.rule place)
          (if (decl.nested.getD []).isEmpty then return templates decl (.capturing none)
          else do
            let inside := around.within place decl
            let holder ← holding (each (fun (place, decl) => entry library (grammar library fuel)
                (rule library fuel) inside place decl)
              (numberedPlaces place (decl.nested.getD [])))
            return templates decl (.capturing (some holder)))).run draft := by
  rw [capturing]
  change StateT.run (match draft.numbered.lookup place with
    | some (some known) => _
    | _ => _) draft = _
  rcases draft.numbered.lookup place with _ | _ | known
  · cases bare : (decl.nested.getD []).isEmpty <;> simp only [bare] <;> rfl
  · cases bare : (decl.nested.getD []).isEmpty <;> simp only [bare] <;> rfl
  · rfl

structure Settles (library : Library) (fuel : Nat) : Prop where
  grammars : ∀ (draft : Draft) decl, library.grammar? decl.scopeName = some decl →
    draft.unmet library < fuel →
      Does library (grammar library fuel decl) draft fun id next =>
        next.number (.whole decl.scopeName) = some (some id)
  rules : ∀ (draft : Draft) home place decl around,
    library.Reaches draft.knows home place decl around → place.isGroup = false →
      draft.unmet library < fuel →
        Does library (rule library fuel place decl around) draft fun found next =>
          next.number (.rule place) = some found
  groups : ∀ (draft : Draft) home place decl around,
    library.Reaches draft.knows home place decl around → place.isGroup = true →
      draft.unmet library < fuel →
        Does library (capturing library fuel place decl around) draft fun id next =>
          next.number (.rule place) = some (some id)

theorem mem_numberedPlaces {place : Place} {rules : List RuleDecl} {item : Place × RuleDecl} :
    item ∈ numberedPlaces place rules ↔
      ∃ index, rules[index]? = some item.2 ∧ item.1 = place.into (.pattern index) := by
  simp only [numberedPlaces, List.mem_map, Prod.exists, List.mem_zipIdx_iff_getElem?]
  constructor
  · rintro ⟨rule, index, here, rfl⟩
    exact ⟨index, here, rfl⟩
  · rintro ⟨index, here, same⟩
    exact ⟨item.2, index, here, Prod.ext same.symm rfl⟩

section

variable {fuel : Nat} (settles : Settles library fuel) (tidy : library.Tidy)
  (apart : library.Apart) (enough : draft.unmet library < fuel)

include settles tidy apart enough

theorem entry_does {home : GrammarDecl} {place : Place} {decl : RuleDecl} {around : Surroundings}
    (reaches : library.Reaches draft.knows home place decl around) (plain : place.isGroup = false) :
    Does library (entry library (grammar library fuel) (rule library fuel) around place decl) draft
      fun found next => library.Answers next.number place found := by
  unfold entry
  cases refers : decl.reference with
  | none =>
    have means : library.Means place (.rule place) := by
      have turn := Library.turn?_eq reaches.declared
      simp only [refers] at turn
      exact ⟨_, .arrive turn⟩
    refine (settles.rules draft home place decl around reaches plain enough).mono ?_
    exact fun found next _ here => .inl ⟨_, means, here⟩
  | some text =>
    have leads := Library.destination?_means tidy.keyed apart reaches refers
    rw [Library.destination?] at leads
    cases found : library.lead around text with
    | nowhere =>
      simp only [found, Lead.destination?] at leads ⊢
      exact Does.pure none (.inr ⟨rfl, leads⟩)
    | round =>
      simp only [found, Lead.destination?] at leads ⊢
      exact Does.goRound.bind fun _ _ _ _ => Does.pure none (.inr ⟨rfl, leads⟩)
    | towards destination =>
      simp only [found, Lead.destination?] at leads ⊢
      obtain ⟨site, means, arrives⟩ := leads
      cases destination with
      | grammar decl =>
        cases site with
        | rule place => exact arrives.elim
        | whole scope =>
          obtain ⟨rfl, stored⟩ := arrives
          refine (settles.grammars draft decl stored enough).bind fun id next _ here => ?_
          exact Does.pure _ (.inl ⟨_, means, here⟩)
      | rule place decl around =>
        cases site with
        | whole scope => exact arrives.elim
        | rule other =>
          obtain ⟨rfl, there, reaches⟩ := arrives
          refine (settles.rules draft there place decl around reaches ?_ enough).mono ?_
          · exact means.isGroup plain
          · exact fun found next _ here => .inl ⟨_, means, here⟩

theorem items_does {home : GrammarDecl} {place : Place} {around : Surroundings}
    (stands : library.Stands draft.knows home place around) {rules : List RuleDecl}
    (parts : ∀ index, home.part? place.steps (.pattern index) = rules[index]?) :
    Does library (each (fun (place, decl) => entry library (grammar library fuel) (rule library fuel)
      around place decl) (numberedPlaces place rules)) draft
        fun nested next => library.Lists next.number (numberedPlaces place rules) nested := by
  refine Does.each fun (item, decl) member next grows => ?_
  obtain ⟨index, here, rfl⟩ := mem_numberedPlaces.mp member
  exact entry_does settles tidy apart (grows.unmet.trans_lt enough)
    ((stands.mono grows.knows).part ((parts index).trans here)) rfl

end

theorem lookup_of_mem {table : List (String × RuleDecl)} (distinct : (table.map (·.1)).Nodup)
    {key : String} {rule : RuleDecl} (member : (key, rule) ∈ table) : table.lookup key = some rule := by
  obtain ⟨before, after, rfl⟩ := List.append_of_mem member
  refine List.lookup_eq_some_iff.mpr ⟨before, after, rfl, fun other earlier => ?_⟩
  rw [List.map_append, List.nodup_append] at distinct
  simpa using (distinct.2.2 other.1 (List.mem_map_of_mem earlier) key (by simp)).symm

section

variable {fuel : Nat} (settles : Settles library fuel) (tidy : library.Tidy)
  {home : GrammarDecl} {place : Place} {decl : RuleDecl} {inside : Surroundings}
  (declared : library.rule? place = some decl)

include settles tidy declared

theorem captures_does (enough : draft.unmet library < fuel)
    (stands : library.Stands draft.knows home place inside)
    (field : CaptureField) :
    Does library (captures (fun place decl => capturing library fuel place decl inside) place field
      (decl.captured field)) draft fun captures next =>
        next.number.Groups place field (decl.captured field) captures := by
  unfold captures
  refine (Does.lay _).bind fun _ draft grows _ => ?_
  replace enough := grows.unmet.trans_lt enough
  replace stands := stands.mono grows.knows
  refine Does.bind (Does.mapM (fun number group found => found.1 = group.1 ∧
    number (.rule (place.into (.capture field group.2.1))) = some (some found.2)) ?_ ?_) ?_
  · exact fun _ _ _ _ grows met => ⟨met.1, grows.numbers _ _ met.2⟩
  · intro (n, key, rule) member next grows
    have part : home.part? place.steps (.capture field key) = some rule := by
      obtain ⟨grammar, stored, here⟩ := Option.bind_eq_some_iff.mp declared
      obtain rfl : grammar = home := Option.some.inj (stored.symm.trans stands.home)
      rw [GrammarDecl.part?_of_rule? here]
      have listed := mem_of_mem_groups member
      cases table : decl.captured field with
      | none => simp [table] at listed
      | some entries =>
        simp only [RuleDecl.part?, table, Option.getD_some] at listed ⊢
        exact lookup_of_mem (tidy.groups place decl field entries declared table) listed
    refine Does.bind (settles.groups next home _ rule inside
      ((stands.mono grows.knows).part part) rfl (grows.unmet.trans_lt enough)) ?_
    exact fun id last _ here => Does.pure _ ⟨rfl, here⟩
  · exact fun ids next _ all => Does.pure _ ⟨ids, all, rfl⟩

theorem capturesOr_does (enough : draft.unmet library < fuel)
    (stands : library.Stands draft.knows home place inside) (field : CaptureField) :
    Does library (capturesOr (fun place decl => capturing library fuel place decl inside) place decl
      field (decl.captured field)) draft fun captures next =>
        next.number.GroupsOr place decl field captures := by
  unfold capturesOr Numbering.GroupsOr
  cases table : decl.captured field with
  | none => exact captures_does settles tidy declared enough stands .all
  | some entries =>
    simp only
    rw [← table]
    exact captures_does settles tidy declared enough stands field

theorem kindOf_does (enough : draft.unmet library < fuel)
    (stands : library.Stands draft.knows home place inside) (nested : List RuleId)
    (patterns : RulePatterns) :
    Does library (kindOf (fun place decl => capturing library fuel place decl inside) place decl nested
      patterns) draft fun kind next => next.number.HasKind place decl nested patterns kind := by
  have captured (field : CaptureField) (next : Draft) (grows : draft.Grows library next) :=
    capturesOr_does settles tidy declared (grows.unmet.trans_lt enough) (stands.mono grows.knows) field
  cases patterns with
  | matching pattern =>
    refine (captures_does settles tidy declared enough stands .all).bind fun captures next _ groups => ?_
    exact Does.pure _ (.matching groups)
  | spanning opening closing =>
    refine (captured .opening draft (.refl library draft)).bind fun before middle first begins => ?_
    refine (captured .closing middle first).bind fun after next second ends => ?_
    exact Does.pure _ (.spanning (begins.mono second.numbers) ends)
  | continuing opening condition =>
    refine (captured .opening draft (.refl library draft)).bind fun before middle first begins => ?_
    refine (captured .continuing middle first).bind fun during next second goes => ?_
    exact Does.pure _ (.continuing (begins.mono second.numbers) goes)
  | absent => exact Does.pure _ .absent

end

section

variable {fuel : Nat} (settles : Settles library fuel) (tidy : library.Tidy)
  (apart : library.Apart) (enough : draft.unmet library < fuel + 1)

include settles tidy apart enough

theorem grammar_does {decl : GrammarDecl}
    (stored : library.grammar? decl.scopeName = some decl) :
    Does library (grammar library (fuel + 1) decl) draft fun id next =>
      next.number (.whole decl.scopeName) = some (some id) := by
  have run := grammar_run library fuel decl draft
  cases found : draft.wholes.lookup decl.scopeName with
  | some id =>
    simp only [found] at run
    exact .of_run run (Does.pure id (by simp [Draft.number, found]))
  | none =>
    simp only [found] at run
    have new : draft.number (.whole decl.scopeName) = none := by simp [Draft.number, found]
    have less := Draft.unmet_enter (Library.mem_sites_whole stored) new
    refine .of_run run (Does.entering new ?_)
    refine (items_does settles tidy apart (by omega) (.ofGrammar stored _) fun _ => rfl).bind ?_
    exact fun nested next _ lists => Does.pure _ fun _ => .whole stored lists

variable {home : GrammarDecl} {place : Place} {decl : RuleDecl} {around : Surroundings}
  (reaches : library.Reaches draft.knows home place decl around)

include reaches

theorem inner_does (new : draft.number (.rule place) = none) :
    let inside := around.within place decl
    (draft.enter (.rule place)).unmet library < fuel ∧
      library.Stands (draft.enter (.rule place)).knows home place inside ∧
      ∀ next, (draft.enter (.rule place)).Grows library next →
        Does library (each (fun (place, decl) => entry library (grammar library fuel)
          (rule library fuel) inside place decl) (numberedPlaces place (decl.nested.getD []))) next
            fun nested last =>
              library.Lists last.number (numberedPlaces place (decl.nested.getD [])) nested := by
  have less := Draft.unmet_enter (Library.mem_sites_rule tidy.keyed reaches.declared) new
  have stands : library.Stands (draft.enter (.rule place)).knows home place
      (around.within place decl) :=
    reaches.within tidy.keyed (fun ⟨id, known⟩ => by simp [new] at known) (draft.knows_enter place)
      fun _ known => known.enter (.rule place)
  refine ⟨by omega, stands, fun next grows => ?_⟩
  refine items_does settles tidy apart (grows.unmet.trans_lt (by omega)) (stands.mono grows.knows)
    fun index => ?_
  exact GrammarDecl.part?_of_rule? reaches.here (.pattern index)

theorem rule_does (plain : place.isGroup = false) :
    Does library (rule library (fuel + 1) place decl around) draft fun found next =>
      next.number (.rule place) = some found := by
  have run := rule_run library fuel place decl around draft
  cases found : draft.numbered.lookup place with
  | some known =>
    simp only [found] at run
    exact .of_run run (Does.pure known found)
  | none =>
    have new : draft.number (.rule place) = none := found
    cases formed : RulePatterns.ofDecl? decl with
    | none =>
      simp only [found, formed] at run
      intro sound
      rw [run]
      refine ⟨.dismiss new reaches.declared plain formed, sound.dismiss plain, ?_⟩
      exact (draft.number_dismiss place (.rule place)).trans (if_pos rfl)
    | some patterns =>
      simp only [found, formed] at run
      obtain ⟨less, stands, nesting⟩ := inner_does settles tidy apart enough reaches new
      have entered := Does.entering new <|
        (nesting _ (.refl library _)).bind fun nested middle first lists =>
          (kindOf_does settles tidy reaches.declared (first.unmet.trans_lt less)
            (stands.mono first.knows) nested patterns).bind fun kind last second hasKind =>
              Does.pure (templates decl kind)
                fun _ => .rule reaches.declared plain formed (lists.mono second.numbers) hasKind
      exact .of_run run (entered.bind fun id next _ here => Does.pure (some id) here)

theorem capturing_does (group : place.isGroup = true) :
    Does library (capturing library (fuel + 1) place decl around) draft fun id next =>
      next.number (.rule place) = some (some id) := by
  have run := capturing_run library fuel place decl around draft
  cases found : draft.numbered.lookup place with
  | some known =>
    cases known with
    | some known =>
      simp only [found] at run
      exact .of_run run (Does.pure known found)
    | none =>
      intro sound
      exact absurd found (sound.groups place group)
  | none =>
    have new : draft.number (.rule place) = none := found
    simp only [found] at run
    obtain ⟨_, _, nesting⟩ := inner_does settles tidy apart enough reaches new
    refine .of_run run (Does.entering new ?_)
    cases bare : (decl.nested.getD []).isEmpty with
    | true => exact Does.pure _ fun _ => .bareGroup reaches.declared group bare
    | false =>
      refine (Does.holding nesting).bind fun holder next _ ⟨nested, held, lists⟩ => ?_
      exact Does.pure _ fun _ => .group reaches.declared group (by simp [bare]) held lists

end

theorem settles (tidy : library.Tidy) (apart : library.Apart) (fuel : Nat) :
    Settles library fuel := by
  induction fuel with
  | zero =>
    exact ⟨fun _ _ _ none => absurd none (Nat.not_lt_zero _),
      fun _ _ _ _ _ _ _ none => absurd none (Nat.not_lt_zero _),
      fun _ _ _ _ _ _ _ none => absurd none (Nat.not_lt_zero _)⟩
  | succ fuel ih =>
    exact ⟨fun _ _ stored enough => grammar_does ih tidy apart enough stored,
      fun _ _ _ _ _ reaches plain enough => rule_does ih tidy apart enough reaches plain,
      fun _ _ _ _ _ reaches group enough => capturing_does ih tidy apart enough reaches group⟩

section

variable (tidy : library.Tidy) (apart : library.Apart)

include tidy apart

theorem ownInjections_does (injections : List (String × RuleDecl))
    (declared : ∀ injection ∈ injections, injection ∈ library.base.injections) :
    Does library (ownInjections library injections) draft fun found next =>
      ∃ own, List.Forall₂ (library.InjectsOwn next.number) injections own ∧ found = own.flatten := by
  induction injections generalizing draft with
  | nil => exact Does.pure [] ⟨[], .nil, rfl⟩
  | cons injection rest ih =>
    obtain ⟨selector, decl⟩ := injection
    have part : library.base.part? [] (.injection selector) = some decl :=
      lookup_of_mem tidy.injections (declared _ List.mem_cons_self)
    refine (entry_does (settles tidy apart (fuel library)) tidy apart (draft.unmet_le library)
      ((Library.Stands.ofGrammar (if_pos rfl) draft.knows).part part) rfl).bind
        fun id middle first answers => ?_
    refine (ih fun injection member => declared _ (List.mem_cons_of_mem _ member)).bind
      fun others next second ⟨own, all, same⟩ => ?_
    refine Does.pure _ ⟨_ :: own, .cons ⟨id, answers.mono second.numbers, rfl⟩ all, ?_⟩
    cases id <;> simp [same]

theorem foreignInjections_does (scopes : List String) :
    Does library (foreignInjections library scopes) draft fun found next =>
      ∃ foreign, List.Forall₂ (library.InjectsForeign next.number) scopes foreign ∧
        found = foreign.flatten := by
  induction scopes generalizing draft with
  | nil => exact Does.pure [] ⟨[], .nil, rfl⟩
  | cons scope rest ih =>
    have finish {draft : Draft} (found : List Injection)
        (injects : library.InjectsForeign draft.number scope found) :
        Does library (do return found ++ (← foreignInjections library rest)) draft fun found next =>
          ∃ foreign, List.Forall₂ (library.InjectsForeign next.number) (scope :: rest) foreign ∧
            found = foreign.flatten := by
      refine ih.bind fun others next grows ⟨foreign, all, same⟩ => ?_
      exact Does.pure _ ⟨found :: foreign, .cons (injects.mono grows.numbers) all, by simp [same]⟩
    unfold foreignInjections
    split
    · rename_i stored
      exact finish [] (by simp [Library.InjectsForeign, stored])
    · rename_i decl stored
      split
      · rename_i chosen
        exact finish [] (by simp [Library.InjectsForeign, stored, chosen])
      · rename_i selector chosen
        have key := tidy.keyed scope decl stored
        refine Does.bind ((settles tidy apart (fuel library)).grammars draft decl (key ▸ stored)
          (draft.unmet_le library)) fun id middle _ here => ?_
        refine finish (injectionsOf selector id) ?_
        simp only [Library.InjectsForeign, stored, Option.bind_some, chosen]
        exact ⟨id, key ▸ here, rfl⟩

theorem graph_does :
    Does library (graph library) draft fun (root, injections) next =>
      next.number (.whole library.base.scopeName) = some (some root) ∧
        ∃ own foreign, List.Forall₂ (library.InjectsOwn next.number) library.base.injections own ∧
          List.Forall₂ (library.InjectsForeign next.number) library.injectors foreign ∧
            injections = byPriority (own.flatten ++ foreign.flatten) := by
  refine Does.bind ((settles tidy apart (fuel library)).grammars draft library.base (if_pos rfl)
    (draft.unmet_le library)) fun root first _ here => ?_
  refine (ownInjections_does tidy apart library.base.injections fun _ member => member).bind
    fun _ second grows ⟨own, owns, same⟩ => ?_
  refine (foreignInjections_does tidy apart library.injectors).bind
    fun _ next further ⟨foreign, others, also⟩ => ?_
  refine Does.pure _ ⟨further.numbers _ _ (grows.numbers _ _ here), own, foreign, ?_, others, ?_⟩
  · exact owns.imp fun _ _ injects => injects.mono further.numbers
  · rw [same, also]

end

end Compile

end Highlighter
