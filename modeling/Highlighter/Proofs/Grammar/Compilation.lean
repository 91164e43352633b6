import Highlighter.Grammar.Compilation
import Highlighter.Proofs.Grammar.Declared

set_option autoImplicit false

namespace Highlighter

namespace RuleDecl

def start? (decl : RuleDecl) : Option String := decl.pattern <|> decl.opening

end RuleDecl

namespace RulePatterns

def start? : RulePatterns → Option Pattern
  | .matching pattern => some pattern
  | .spanning opening _ | .continuing opening _ => some opening
  | .absent => none

theorem start?_of_ofDecl? {decl : RuleDecl} {patterns : RulePatterns} {pattern : Pattern}
    (sound : ofDecl? decl = some patterns) (starts : patterns.start? = some pattern) :
    ∃ source, decl.start? = some source ∧ Pattern.ofSource? source = some pattern := by
  unfold ofDecl? at sound
  split at sound
  · rename_i source here
    obtain ⟨_, compiled, rfl⟩ := Option.map_eq_some_iff.mp sound
    obtain rfl := Option.some.inj starts
    exact ⟨source, by simp [RuleDecl.start?, here], compiled⟩
  · obtain rfl := Option.some.inj sound
    exact nomatch starts
  · rename_i source absent here
    have first : decl.start? = some source := by simp [RuleDecl.start?, absent, here]
    split at sound
    · exact nomatch sound
    · rename_i opening compiled
      split at sound
      · obtain ⟨_, _, rfl⟩ := Option.map_eq_some_iff.mp sound
        exact ⟨source, first, compiled.trans starts⟩
      · obtain ⟨_, _, rfl⟩ := Option.map_eq_some_iff.mp sound
        exact ⟨source, first, compiled.trans starts⟩
      · obtain rfl := Option.some.inj sound
        exact nomatch starts

end RulePatterns

def Library.Yields (library : Library) (rule : Rule) : Prop :=
  ∀ pattern, rule.start? = some pattern → ∃ decl source, library.Declares decl ∧
    decl.start? = some source ∧ Pattern.ofSource? source = some pattern

theorem Library.yields_of_none (library : Library) {rule : Rule} (absent : rule.start? = none) :
    library.Yields rule :=
  fun _ starts => nomatch absent.symm.trans starts

namespace Compile

variable {α β : Type}

def Keeps (inv : Draft → Prop) (action : Compile α) (after : α → Prop) : Prop :=
  ∀ draft : Draft, inv draft → after (action.run draft).1 ∧ inv (action.run draft).2

abbrev OfRules (inv : Array (Option Rule) → Prop) (draft : Draft) : Prop := inv draft.rules

/-- What stays true when a number is handed out, which is then among `mine`, when one of `mine` is
filled in with a rule of the library, and when room for a table of the library is taken. -/
structure Lasting (library : Library) (inv : Draft → Prop) (mine : RuleId → Prop) : Prop where
  reserved : Keeps inv reserve mine
  filled : ∀ id (rule : RuleId → Rule), mine id → (rule id).id = id → library.Yields (rule id) →
    Keeps inv (fill id rule) fun _ => True
  recorded : ∀ place id, Keeps inv (record place id) fun _ => True
  named : ∀ scope id, Keeps inv
    (modify fun draft => { draft with wholes := (scope, id) :: draft.wholes }) fun _ => True
  laid : ∀ decl field, library.Declares decl →
    Keeps inv (lay ((decl.captured field).getD [])) fun _ => True
  rounded : Keeps inv goRound fun _ => True

theorem lasting_of_rules {library : Library} {inv : Array (Option Rule) → Prop}
    {mine : RuleId → Prop}
    (reserved : ∀ rules, inv rules → mine rules.size ∧ inv (rules.push none))
    (filled : ∀ rules id (rule : Rule), mine id → rule.id = id → library.Yields rule → inv rules →
      inv (rules.setIfInBounds id (some rule))) : Lasting library (OfRules inv) mine where
  reserved := fun draft first => reserved draft.rules first
  filled := fun id rule new same yields draft first =>
    ⟨trivial, filled draft.rules id (rule id) new same yields first⟩
  recorded := fun _ _ _ first => ⟨trivial, first⟩
  named := fun _ _ _ first => ⟨trivial, first⟩
  laid := fun _ _ _ _ first => ⟨trivial, first⟩
  rounded := fun _ first => ⟨trivial, first⟩

def Below (limit : Nat) (first rules : Array (Option Rule)) : Prop :=
  limit ≤ rules.size ∧ ∀ id, id < limit → rules[id]? = first[id]?

theorem below_lasting (library : Library) (limit : Nat) (first : Array (Option Rule)) :
    Lasting library (OfRules (Below limit first)) (limit ≤ ·) := by
  refine lasting_of_rules (fun rules ⟨large, same⟩ => ?_)
    fun rules id rule new _ _ ⟨large, same⟩ => ?_
  · refine ⟨large, ?_, fun id inside => ?_⟩
    · rw [Array.size_push]
      omega
    · rw [Array.getElem?_push, if_neg (by omega), same id inside]
  · refine ⟨?_, fun other inside => ?_⟩
    · rwa [Array.size_setIfInBounds]
    · rw [Array.getElem?_setIfInBounds_ne (by omega), same other inside]

def Sourced (library : Library) (rules : Array (Option Rule)) : Prop :=
  ∀ rule, some rule ∈ rules → library.Yields rule

theorem sourced_lasting (library : Library) :
    Lasting library (OfRules (Sourced library)) fun _ => True := by
  refine lasting_of_rules (fun rules sourced => ⟨trivial, fun rule member => ?_⟩)
    fun rules id rule _ _ yields sourced other member => ?_
  · rcases Array.mem_push.mp member with old | new
    · exact sourced rule old
    · exact nomatch new
  · rcases Array.mem_or_eq_of_mem_setIfInBounds member with old | new
    · exact sourced other old
    · obtain rfl := Option.some.inj new
      exact yields

def Numbered (rules : Array (Option Rule)) : Prop :=
  ∀ id (rule : Rule), rules[id]? = some (some rule) → rule.id = id

theorem numbered_lasting (library : Library) :
    Lasting library (OfRules Numbered) fun _ => True := by
  refine lasting_of_rules (fun rules numbered => ⟨trivial, fun id rule here => ?_⟩)
    fun rules id rule _ same _ numbered other found here => ?_
  · rw [Array.getElem?_push] at here
    split at here
    · exact nomatch Option.some.inj here
    · exact numbered id rule here
  · rw [Array.getElem?_setIfInBounds] at here
    split at here
    · rename_i here'
      split at here
      · obtain rfl := Option.some.inj (Option.some.inj here)
        rw [same, here']
      · exact nomatch here
    · exact numbered other found here

theorem mem_of_mem_indexed {table : List (String × RuleDecl)} {group : Nat × String × RuleDecl}
    (member : group ∈ indexed table) : group.2 ∈ table := by
  obtain ⟨entry, inside, found⟩ := List.mem_filterMap.mp (List.mem_mergeSort.mp member)
  obtain ⟨n, _, rfl⟩ := Option.map_eq_some_iff.mp found
  exact inside

theorem mem_of_mem_groups {table : List (String × RuleDecl)} {group : Nat × String × RuleDecl}
    (member : group ∈ groups table) : group.2 ∈ table := by
  unfold groups at member
  split at member
  · exact mem_of_mem_indexed member
  · exact nomatch member

section

variable (length : Nat) (ids : List (Nat × RuleId))

theorem spread_concat (n : Nat) (id : RuleId) :
    spread length (ids ++ [(n, id)]) = (spread length ids).set n (some id) := by
  rw [spread, List.foldl_concat]
  rfl

theorem length_spread : (spread length ids).length = length := by
  induction ids using List.reverseRecOn with
  | nil => exact List.length_replicate
  | append_singleton ids last ih => rw [spread_concat, List.length_set, ih]

theorem getElem?_spread (index : Nat) :
    (spread length ids)[index]?.join = if index < length then ids.reverse.lookup index else none := by
  induction ids using List.reverseRecOn with
  | nil =>
    change (List.replicate length none)[index]?.join = _
    rw [List.getElem?_replicate]
    split <;> rfl
  | append_singleton ids last ih =>
    obtain ⟨n, id⟩ := last
    rw [spread_concat, List.getElem?_set, List.reverse_concat, List.lookup_cons, length_spread]
    by_cases here : n = index
    · subst here
      rw [if_pos rfl, beq_self_eq_true]
      split <;> rfl
    · rw [if_neg here, ih, beq_false_of_ne (Ne.symm here)]

variable {length ids} in
theorem of_mem_spread {id : RuleId} (member : some id ∈ spread length ids) : id ∈ ids.map (·.2) := by
  induction ids using List.reverseRecOn with
  | nil => exact nomatch List.eq_of_mem_replicate member
  | append_singleton ids last ih =>
    rw [spread_concat] at member
    rw [List.map_append]
    rcases List.mem_or_eq_of_mem_set member with old | new
    · exact List.mem_append_left _ (ih old)
    · exact List.mem_append_right _ (List.mem_singleton.mpr (Option.some.inj new))

end

theorem mem_of_mem_numberedPlaces {place : Place} {rules : List RuleDecl} {part : Place × RuleDecl}
    (member : part ∈ numberedPlaces place rules) : part.2 ∈ rules := by
  obtain ⟨⟨rule, index⟩, listed, rfl⟩ := List.mem_map.mp member
  exact List.mem_of_getElem? (List.mk_mem_zipIdx_iff_getElem?.mp listed)

structure Keeping (library : Library) (inv : Draft → Prop) (fuel : Nat) : Prop where
  grammars : ∀ decl ∈ library.decls, Keeps inv (grammar library fuel decl) fun _ => True
  rules : ∀ place decl around, library.Declares decl → library.Surrounds around →
    Keeps inv (rule library fuel place decl around) fun _ => True
  groups : ∀ place decl around, library.Declares decl → library.Surrounds around →
    Keeps inv (capturing library fuel place decl around) fun _ => True

namespace Keeps

variable {library : Library} {inv : Draft → Prop} {mine : RuleId → Prop}

theorem pure {after : β → Prop} (value : β) (holds : after value) :
    Keeps inv (Pure.pure value) after :=
  fun _ first => ⟨holds, first⟩

theorem bind {after : β → Prop} {first : Compile α} {next : α → Compile β} {between : α → Prop}
    (before : Keeps inv first between)
    (rest : ∀ value, between value → Keeps inv (next value) after) :
    Keeps inv (first >>= next) after := by
  intro draft start
  obtain ⟨value, middle⟩ := before draft start
  exact rest _ value (first.run draft).2 middle

theorem get : Keeps inv (MonadState.get : Compile Draft) fun _ => True :=
  fun _ first => ⟨trivial, first⟩

theorem numbered (place : Place) : Keeps inv (Compile.numbered? place) fun _ => True :=
  fun _ first => ⟨trivial, first⟩

theorem each {compile : α → Compile (Option RuleId)} (items : List α)
    (one : ∀ item ∈ items, Keeps inv (compile item) fun _ => True) :
    Keeps inv (Compile.each compile items) fun _ => True := by
  induction items with
  | nil => exact pure _ trivial
  | cons item rest ih =>
    obtain ⟨first, others⟩ := List.forall_mem_cons.mp one
    exact first.bind fun _ _ => (ih others).bind fun _ _ => pure _ trivial

theorem mapM {action : α → Compile β} (items : List α)
    (one : ∀ item ∈ items, Keeps inv (action item) fun _ => True) :
    Keeps inv (items.mapM action) fun _ => True := by
  induction items with
  | nil => exact pure _ trivial
  | cons item rest ih =>
    obtain ⟨first, others⟩ := List.forall_mem_cons.mp one
    rw [List.mapM_cons]
    exact first.bind fun _ _ => (ih others).bind fun _ _ => pure _ trivial

theorem entry {grammar : GrammarDecl → Compile RuleId}
    {rule : Place → RuleDecl → Surroundings → Compile (Option RuleId)}
    (rounded : Keeps inv goRound fun _ => True)
    (grammars : ∀ decl ∈ library.decls, Keeps inv (grammar decl) fun _ => True)
    (rules : ∀ place decl around, library.Declares decl → library.Surrounds around →
      Keeps inv (rule place decl around) fun _ => True)
    {around : Surroundings} (surrounds : library.Surrounds around) (place : Place)
    {decl : RuleDecl} (declared : library.Declares decl) :
    Keeps inv (Compile.entry library grammar rule around place decl) fun _ => True := by
  unfold Compile.entry
  split
  · exact rules place decl around declared surrounds
  · rename_i reference _
    have holds := library.lead_holds surrounds reference
    split
    · exact pure _ trivial
    · exact rounded.bind fun _ _ => pure _ trivial
    · rename_i found here
      exact (grammars found (holds _ here)).bind fun _ _ => pure _ trivial
    · rename_i place decl around here
      obtain ⟨declared, surrounds⟩ := holds _ here
      exact rules place decl around declared surrounds

theorem parts {grammar : GrammarDecl → Compile RuleId}
    {rule : Place → RuleDecl → Surroundings → Compile (Option RuleId)}
    (rounded : Keeps inv goRound fun _ => True)
    (grammars : ∀ decl ∈ library.decls, Keeps inv (grammar decl) fun _ => True)
    (rules : ∀ place decl around, library.Declares decl → library.Surrounds around →
      Keeps inv (rule place decl around) fun _ => True)
    {around : Surroundings} (surrounds : library.Surrounds around) (place : Place)
    {decls : List RuleDecl} (declared : ∀ decl ∈ decls, library.Declares decl) :
    Keeps inv (Compile.each (fun (place, decl) =>
      Compile.entry library grammar rule around place decl) (numberedPlaces place decls))
        fun _ => True :=
  each _ fun part member => entry rounded grammars rules surrounds part.1
    (declared part.2 (mem_of_mem_numberedPlaces member))

section

variable {capture : Place → RuleDecl → Compile RuleId} {decl : RuleDecl}
  (one : ∀ place field key rule, (key, rule) ∈ (decl.captured field).getD [] →
    Keeps inv (capture place rule) fun _ => True)
  (room : ∀ field, Keeps inv (lay ((decl.captured field).getD [])) fun _ => True)

include one room

theorem captures (place : Place) (field : CaptureField) :
    Keeps inv (Compile.captures capture place field (decl.captured field)) fun _ => True := by
  refine (room field).bind fun _ _ =>
    (mapM _ fun (n, key, rule) member => ?_).bind fun _ _ => pure _ trivial
  exact (one _ field key rule (mem_of_mem_groups member)).bind fun _ _ => pure _ trivial

theorem capturesOr (place : Place) (field : CaptureField) :
    Keeps inv (Compile.capturesOr capture place decl field (decl.captured field))
      fun _ => True := by
  unfold Compile.capturesOr
  split
  · rename_i table here
    exact here ▸ captures one room place field
  · exact captures one room place .all

theorem kindOf (place : Place) (nested : List RuleId) (patterns : RulePatterns) :
    Keeps inv (Compile.kindOf capture place decl nested patterns)
      fun kind => ∀ id, (templates decl kind id).start? = patterns.start? := by
  cases patterns with
  | matching pattern => exact (captures one room place .all).bind fun _ _ => pure _ fun _ => rfl
  | spanning opening closing =>
    exact (capturesOr one room place .opening).bind fun _ _ =>
      (capturesOr one room place .closing).bind fun _ _ => pure _ fun _ => rfl
  | continuing opening condition =>
    exact (capturesOr one room place .opening).bind fun _ _ =>
      (capturesOr one room place .continuing).bind fun _ _ => pure _ fun _ => rfl
  | absent => exact pure _ fun _ => rfl

end

section

variable (lasting : Lasting library inv mine)

include lasting

theorem whole (scope : String) :
    Keeps inv (Compile.whole scope) fun (id, known) => known = false → mine id := by
  refine get.bind fun draft _ => ?_
  split
  · exact pure _ (by simp)
  · exact lasting.reserved.bind fun id new =>
      (lasting.named scope id).bind fun _ _ => pure _ fun _ => new

-- By the fuel, for all three at once, since each calls the others with less.
theorem compiling (fuel : Nat) : Keeping library inv fuel := by
  induction fuel with
  | zero =>
    refine ⟨fun decl _ => ?_, fun place decl around _ _ => ?_, fun place decl around _ _ => ?_⟩
    · exact fun draft first => ⟨trivial, (lasting.reserved draft first).2⟩
    · exact pure _ trivial
    · exact fun draft first => ⟨trivial, (lasting.reserved draft first).2⟩
  | succ fuel ih =>
    obtain ⟨grammars, rules, groups⟩ := ih
    refine ⟨fun decl stored => ?_, fun place decl around declared surrounds => ?_,
      fun place decl around declared surrounds => ?_⟩
    · refine (whole lasting decl.scopeName).bind fun (id, known) new => ?_
      dsimp only at new ⊢
      split
      · exact pure _ trivial
      · rename_i unknown
        have patterns := parts lasting.rounded grammars rules (.ofGrammar stored) (Surroundings.root decl)
          fun _ => .pattern stored
        refine patterns.bind fun nested _ => ?_
        exact (lasting.filled _ _ (new (by simpa using unknown)) rfl (library.yields_of_none rfl)).bind
          fun _ _ => pure _ trivial
    · refine (numbered place).bind fun known _ => ?_
      split
      · exact pure _ trivial
      · split
        · exact (lasting.recorded _ _).bind fun _ _ => pure _ trivial
        · rename_i patterns sound
          have inside := surrounds.within place declared
          refine lasting.reserved.bind fun id new => (lasting.recorded _ _).bind fun _ _ => ?_
          refine (parts lasting.rounded grammars rules inside place fun _ => .nested declared).bind
            fun nested _ => ?_
          refine (kindOf (fun place field _ part listed =>
            groups place part _ (.group declared field listed) inside)
              (fun field => lasting.laid _ field declared) _ _ _).bind
              fun kind same => ?_
          refine (lasting.filled _ _ new rfl fun pattern starts => ?_).bind fun _ _ => pure _ trivial
          obtain ⟨source, first, compiled⟩ :=
            RulePatterns.start?_of_ofDecl? sound ((same id).symm.trans starts)
          exact ⟨decl, source, declared, first, compiled⟩
    · refine (numbered place).bind fun known _ => ?_
      split
      · exact pure _ trivial
      · refine lasting.reserved.bind fun id new => (lasting.recorded _ _).bind fun _ _ => ?_
        have finish (inner : Option RuleId) : Keeps inv
            (do Compile.fill id (templates decl (.capturing inner)); return id) fun _ => True :=
          (lasting.filled _ _ new rfl (library.yields_of_none rfl)).bind fun _ _ => pure _ trivial
        dsimp only
        split
        · exact finish none
        · refine lasting.reserved.bind fun holder higher => ?_
          refine (parts lasting.rounded grammars rules (surrounds.within place declared) place
            fun _ => .nested declared).bind fun nested _ => ?_
          exact (lasting.filled _ _ higher rfl (library.yields_of_none rfl)).bind
            fun _ _ => finish (some holder)

end

section

variable (keeping : Keeping library inv (Compile.fuel library))

include keeping

theorem ownInjections (rounded : Keeps inv goRound fun _ => True)
    (injections : List (String × RuleDecl))
    (listed : injections ⊆ library.base.injections) :
    Keeps inv (Compile.ownInjections library injections) fun _ => True := by
  have stored : library.base ∈ library.decls := List.mem_cons_self
  induction injections with
  | nil => exact pure _ trivial
  | cons injection rest ih =>
    obtain ⟨selector, decl⟩ := injection
    obtain ⟨here, others⟩ := List.cons_subset.mp listed
    refine (entry rounded keeping.grammars keeping.rules (.ofGrammar stored) _
      (.injection stored here)).bind fun id _ => ?_
    exact (ih others).bind fun _ _ => pure _ trivial

theorem foreignInjections (scopes : List String) :
    Keeps inv (Compile.foreignInjections library scopes) fun _ => True := by
  induction scopes with
  | nil => exact pure _ trivial
  | cons scope rest ih =>
    have finish (found : List Injection) : Keeps inv
        (do return found ++ (← Compile.foreignInjections library rest)) fun _ => True :=
      ih.bind fun _ _ => pure _ trivial
    unfold Compile.foreignInjections
    split
    · exact finish []
    · rename_i decl known
      split
      · exact finish []
      · exact (keeping.grammars decl (Library.mem_decls_of_grammar? known)).bind fun _ _ => finish _

theorem graph (rounded : Keeps inv goRound fun _ => True) :
    Keeps inv (Compile.graph library) fun _ => True :=
  (keeping.grammars library.base List.mem_cons_self).bind fun _ _ =>
    (ownInjections keeping rounded _ (List.Subset.refl _)).bind fun _ _ =>
      (foreignInjections keeping _).bind fun _ _ => pure _ trivial

end

end Keeps

theorem grammar_first (library : Library) (fuel : Nat) :
    ((grammar library (fuel + 1) library.base).run Draft.empty).1 = 0 ∧
      0 < ((grammar library (fuel + 1) library.base).run Draft.empty).2.rules.size ∧
      ∃ nested, ((grammar library (fuel + 1) library.base).run Draft.empty).2.rules[0]? =
        some (some (Rule.held 0 nested)) := by
  let around := Surroundings.ofGrammar library.base
  let nesting := each (fun part =>
    entry library (grammar library fuel) (rule library fuel) around part.1 part.2)
    (numberedPlaces (Surroundings.root library.base) library.base.patterns)
  let first : Draft := ⟨#[none], [], [(library.base.scopeName, 0)], false, false⟩
  have run : (grammar library (fuel + 1) library.base).run Draft.empty =
      (do let nested ← nesting; fill 0 (Rule.held · nested); return 0 : Compile RuleId).run first := rfl
  have stored : library.base ∈ library.decls := List.mem_cons_self
  have lasting := below_lasting library 1 first.rules
  obtain ⟨grammars, rules, _⟩ := Keeps.compiling lasting fuel
  obtain ⟨_, size, _⟩ := Keeps.parts lasting.rounded grammars rules (.ofGrammar stored)
    (Surroundings.root library.base) (fun _ => .pattern stored) first ⟨le_rfl, fun _ _ => rfl⟩
  change 1 ≤ (nesting.run first).2.rules.size at size
  rw [run]
  refine ⟨rfl, ?_, (nesting.run first).1, ?_⟩
  · change 0 < ((nesting.run first).2.rules.setIfInBounds 0 _).size
    rwa [Array.size_setIfInBounds]
  · exact Array.getElem?_setIfInBounds_self_of_lt size

end Compile

/-- Compiling comes upon no reference that leads round in a circle. -/
def Library.Straight (library : Library) : Prop :=
  ((Compile.graph library).run Draft.empty).2.wentRound = false

namespace RuleGraph

def IsRooted (graph : RuleGraph) : Prop :=
  ∃ rule nested, graph.rule? graph.root = some rule ∧ rule.kind = .holding nested

theorem compile_isRooted (library : Library) : (compile library).IsRooted := by
  obtain ⟨fuel, enough⟩ : ∃ fuel, Compile.fuel library = fuel + 1 := ⟨_, rfl⟩
  obtain ⟨root, large, nested, filled⟩ := Compile.grammar_first library fuel
  let start : Draft := Draft.empty
  let whole := (Compile.grammar library (fuel + 1) library.base).run start
  let own := (Compile.ownInjections library library.base.injections).run whole.2
  let foreign := (Compile.foreignInjections library library.injectors).run own.2
  have lasting := Compile.below_lasting library 1 whole.2.rules
  have keeping := Compile.Keeps.compiling lasting (Compile.fuel library)
  obtain ⟨_, kept⟩ := Compile.Keeps.ownInjections keeping lasting.rounded library.base.injections
    (List.Subset.refl _) whole.2 ⟨large, fun _ _ => rfl⟩
  obtain ⟨_, _, last⟩ := Compile.Keeps.foreignInjections keeping library.injectors own.2 kept
  have compiled : (Compile.graph library).run start =
      ((whole.1, Compile.byPriority (own.1 ++ foreign.1)), foreign.2) := by
    rw [Compile.graph, enough]
    rfl
  refine ⟨Rule.held 0 nested, nested, ?_, rfl⟩
  have final : foreign.2.rules[0]? = some (some (Rule.held 0 nested)) := by
    rw [last 0 Nat.one_pos]
    exact filled
  unfold compile
  rw [show (Compile.graph library).run Draft.empty = _ from compiled]
  simp [rule?, whole, start, root, final]

variable {library : Library} {id : RuleId} {rule : Rule}

theorem compile?_eq_some_iff {graph : RuleGraph} : compile? library = some graph ↔
    ((Compile.graph library).run Draft.empty).2.gaveUp = false ∧ library.Straight ∧
      compile library = graph := by
  simp only [compile?, Library.Straight, Option.ite_none_left_eq_some, Option.some.injEq,
    Bool.or_eq_true, not_or, Bool.not_eq_true, and_assoc]

theorem rule?_compile (known : (compile library).rule? id = some rule) :
    ((Compile.graph library).run Draft.empty).2.rules[id]? = some (some rule) ∨
      rule = Rule.held id [] := by
  let draft := ((Compile.graph library).run Draft.empty).2
  have here : (draft.rules.mapIdx fun id rule => rule.getD (Rule.held id []))[id]? = some rule := known
  rw [Array.getElem?_mapIdx] at here
  obtain ⟨filled, stands, rfl⟩ := Option.map_eq_some_iff.mp here
  cases filled with
  | none => exact .inr rfl
  | some rule => exact .inl stands

theorem rule?_of_filled
    (filled : ((Compile.graph library).run Draft.empty).2.rules[id]? = some (some rule)) :
    (compile library).rule? id = some rule := by
  let draft := ((Compile.graph library).run Draft.empty).2
  change (draft.rules.mapIdx fun id rule => rule.getD (Rule.held id []))[id]? = some rule
  rw [Array.getElem?_mapIdx, filled]
  rfl

theorem of_lasting {inv : Draft → Prop} {mine : RuleId → Prop}
    (lasting : Compile.Lasting library inv mine) (start : inv Draft.empty) :
    inv ((Compile.graph library).run Draft.empty).2 :=
  (Compile.Keeps.graph (Compile.Keeps.compiling lasting _) lasting.rounded Draft.empty start).2

theorem compile_yields (known : (compile library).rule? id = some rule) : library.Yields rule := by
  have sourced := of_lasting (Compile.sourced_lasting library)
    fun _ member => absurd member (Array.not_mem_empty _)
  rcases rule?_compile known with filled | rfl
  · exact sourced rule (Array.mem_of_getElem? filled)
  · exact library.yields_of_none rfl

theorem compile_numbered (known : (compile library).rule? id = some rule) : rule.id = id := by
  have numbered := of_lasting (Compile.numbered_lasting library)
    (by simp [Compile.Numbered, Draft.empty])
  rcases rule?_compile known with filled | rfl
  · exact numbered id rule filled
  · rfl

end RuleGraph

end Highlighter
