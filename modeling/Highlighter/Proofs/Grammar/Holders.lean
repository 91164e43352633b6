import Highlighter.Proofs.Grammar.Settling

set_option autoImplicit false

namespace Highlighter

def Rule.Backed (rules : Array (Option Rule)) (rule : Rule) : Prop :=
  ∀ inner, rule.kind = .capturing (some inner) →
    ∃ nested, rules[inner]? = some (some (Rule.held inner nested))

namespace Compile

variable {α β : Type} {library : Library} {limit : Nat} {first rules : Array (Option Rule)}

def Held (rules : Array (Option Rule)) : Prop :=
  ∀ (id : RuleId) (rule : Rule), rules[id]? = some (some rule) → rule.Backed rules

namespace Held

theorem push (held : Held rules) : Held (rules.push none) := by
  have kept {id : RuleId} {rule : Rule} :
      (rules.push none)[id]? = some (some rule) ↔ rules[id]? = some (some rule) := by
    rw [Array.getElem?_push]
    split <;> simp_all
  intro id rule here inner kind
  obtain ⟨nested, known⟩ := held id rule (kept.mp here) inner kind
  exact ⟨nested, kept.mpr known⟩

theorem fill (held : Held rules) {id : RuleId} (empty : rules[id]? = some none) {rule : Rule}
    (backed : rule.Backed rules) : Held (rules.setIfInBounds id (some rule)) := by
  have kept {other : RuleId} {present : Rule} (known : rules[other]? = some (some present)) :
      (rules.setIfInBounds id (some rule))[other]? = some (some present) := by
    rw [Array.getElem?_setIfInBounds_ne, known]
    rintro rfl
    simp [empty] at known
  intro other present here inner kind
  by_cases same : id = other
  · subst same
    have inside := (Array.getElem?_eq_some_iff.mp empty).1
    rw [Array.getElem?_setIfInBounds_self_of_lt inside] at here
    cases here
    exact (backed inner kind).imp fun _ => kept
  · rw [Array.getElem?_setIfInBounds_ne same] at here
    exact (held other present here inner kind).imp fun _ => kept

end Held

namespace Below

theorem refl (rules : Array (Option Rule)) : Below rules.size rules rules :=
  ⟨le_rfl, fun _ _ => rfl⟩

theorem trans {last : Array (Option Rule)} (before : Below limit first rules)
    (after : Below rules.size rules last) : Below limit first last :=
  ⟨before.1.trans after.1, fun id inside =>
    (after.2 id (inside.trans_le before.1)).trans (before.2 id inside)⟩

end Below

def Steady (limit : Nat) (first rules : Array (Option Rule)) : Prop :=
  Below limit first rules ∧ Held rules

def Adds (action : Compile α) (after : α → Array (Option Rule) → Prop) : Prop :=
  ∀ draft : Draft, Held draft.rules →
    Steady draft.rules.size draft.rules (action.run draft).2.rules ∧
      after (action.run draft).1 (action.run draft).2.rules

namespace Adds

theorem pure (value : α) {after : α → Array (Option Rule) → Prop}
    (holds : ∀ rules, after value rules) : Adds (Pure.pure value) after :=
  fun _ held => ⟨⟨.refl _, held⟩, holds _⟩

theorem bind {action : Compile α} {next : α → Compile β} {between : α → Array (Option Rule) → Prop}
    {after : β → Array (Option Rule) → Prop} (adds : Adds action between)
    (rest : ∀ value, Adds (next value) after) : Adds (action >>= next) after := by
  intro draft held
  obtain ⟨⟨below, grown⟩, -⟩ := adds draft held
  obtain ⟨⟨more, last⟩, holds⟩ := rest (action.run draft).1 (action.run draft).2 grown
  exact ⟨⟨below.trans more, last⟩, holds⟩

theorem map {action : Compile α} {before : α → Array (Option Rule) → Prop} (adds : Adds action before)
    (result : α → β) {after : β → Array (Option Rule) → Prop}
    (holds : ∀ value rules, before value rules → after (result value) rules) :
    Adds (do return result (← action)) after :=
  fun draft held => (adds draft held).imp_right (holds _ _)

theorem keeps {action : Compile α} {after : α → Array (Option Rule) → Prop}
    (adds : Adds action after) (limit : Nat) (first : Array (Option Rule)) :
    Keeps (OfRules (Steady limit first)) action fun _ => True := by
  intro draft ⟨below, held⟩
  obtain ⟨⟨more, still⟩, -⟩ := adds draft held
  exact ⟨trivial, below.trans more, still⟩

end Adds

theorem Keeps.adds {action : Compile α}
    (keeps : ∀ limit first, Keeps (OfRules (Steady limit first)) action fun _ => True) :
    Adds action fun _ _ => True :=
  fun draft held => ⟨(keeps _ _ draft ⟨.refl _, held⟩).2, trivial⟩

theorem Steady.fill {next : Array (Option Rule)}
    (steady : Steady (rules.size + 1) (rules.push none) next) {rule : Rule}
    (backed : rule.Backed next) :
    Steady rules.size rules (next.setIfInBounds rules.size (some rule)) := by
  obtain ⟨⟨large, kept⟩, held⟩ := steady
  have slot : next[rules.size]? = some none :=
    (kept _ (Nat.lt_succ_self _)).trans Array.getElem?_push_size
  refine ⟨⟨?_, fun id inside => ?_⟩, held.fill slot backed⟩
  · rw [Array.size_setIfInBounds]
    exact (Nat.le_succ _).trans large
  · rw [Array.getElem?_setIfInBounds_ne (by omega), kept id (by omega), Array.getElem?_push,
      if_neg (by omega)]

theorem entering_adds (site : Site) {body : Compile (RuleId → Rule)}
    (adds : Adds body fun rule rules => ∀ id, (rule id).Backed rules) :
    Adds (entering site body) fun _ _ => True := by
  intro draft held
  have room : (draft.enter site).rules = draft.rules.push none := draft.rules_enter site
  obtain ⟨steady, backed⟩ := adds (draft.enter site) (room ▸ held.push)
  rw [room, Array.size_push] at steady
  exact ⟨steady.fill (backed _), trivial⟩

theorem holding_adds {nested : Compile (List RuleId)} (adds : Adds nested fun _ _ => True) :
    Adds (holding nested) fun holder rules =>
      ∃ nested, rules[holder]? = some (some (Rule.held holder nested)) := by
  intro draft held
  obtain ⟨steady, -⟩ := adds draft.room held.push
  have steady : Steady (draft.rules.size + 1) (draft.rules.push none)
      (nested.run draft.room).2.rules := by
    simpa [Draft.room] using steady
  have inside : draft.rules.size < (nested.run draft.room).2.rules.size :=
    (Nat.lt_succ_self _).trans_le steady.1.1
  refine ⟨steady.fill ?_, _, Array.getElem?_setIfInBounds_self_of_lt inside⟩
  intro inner kind
  cases kind

variable {fuel : Nat}

theorem parts_adds (keeping : ∀ limit first, Keeping library (OfRules (Steady limit first)) fuel)
    {around : Surroundings} (surrounds : library.Surrounds around) (place : Place)
    {decls : List RuleDecl} (declared : ∀ decl ∈ decls, library.Declares decl) :
    Adds (each (fun (place, decl) =>
      entry library (grammar library fuel) (rule library fuel) around place decl)
        (numberedPlaces place decls)) fun _ _ => True :=
  Keeps.adds fun limit first =>
    .parts (fun _ first => ⟨trivial, first⟩) (keeping limit first).grammars
      (keeping limit first).rules surrounds place declared

theorem reserve_adds : Adds reserve fun _ _ => True := by
  intro draft held
  have same : (reserve.run draft).2.rules = draft.rules.push none := rfl
  rw [same]
  refine ⟨⟨⟨by simp, fun id inside => ?_⟩, held.push⟩, trivial⟩
  rw [Array.getElem?_push, if_neg (by omega)]

theorem kindOf_adds {capture : Place → RuleDecl → Compile RuleId} {decl : RuleDecl}
    (one : ∀ place field key rule, (key, rule) ∈ (decl.captured field).getD [] →
      ∀ limit first, Keeps (OfRules (Steady limit first)) (capture place rule) fun _ => True)
    (place : Place) (nested : List RuleId) (patterns : RulePatterns) :
    Adds (do return templates decl (← kindOf capture place decl nested patterns))
      fun rule rules => ∀ id, (rule id).Backed rules := by
  intro draft held
  have keeps := Keeps.kindOf (fun place field key rule member => one place field key rule member _ _)
    (fun _ _ first => ⟨trivial, first⟩) place nested patterns draft ⟨.refl _, held⟩
  refine ⟨keeps.2, fun id inner kind => ?_⟩
  cases patterns <;> exact nomatch kind

theorem keeping_of_adds
    (grammars : ∀ decl ∈ library.decls, Adds (grammar library fuel decl) fun _ _ => True)
    (rules : ∀ place decl around, library.Declares decl → library.Surrounds around →
      Adds (rule library fuel place decl around) fun _ _ => True)
    (groups : ∀ place decl around, library.Declares decl → library.Surrounds around →
      Adds (capturing library fuel place decl around) fun _ _ => True)
    (limit : Nat) (first : Array (Option Rule)) :
    Keeping library (OfRules (Steady limit first)) fuel where
  grammars := fun decl stored => (grammars decl stored).keeps limit first
  rules := fun place decl around declared surrounds =>
    (rules place decl around declared surrounds).keeps limit first
  groups := fun place decl around declared surrounds =>
    (groups place decl around declared surrounds).keeps limit first

theorem keeping (library : Library) (fuel : Nat) (limit : Nat) (first : Array (Option Rule)) :
    Keeping library (OfRules (Steady limit first)) fuel := by
  induction fuel generalizing limit first with
  | zero =>
    refine keeping_of_adds ?_ ?_ ?_ limit first
    · exact fun _ _ => reserve_adds
    · exact fun _ _ _ _ _ => Adds.pure none fun _ => trivial
    · exact fun _ _ _ _ _ => reserve_adds
  | succ fuel ih =>
    refine keeping_of_adds (fun decl stored => ?_) (fun place decl around declared surrounds => ?_)
      (fun place decl around declared surrounds => ?_) limit first
    · intro draft held
      rw [grammar_run]
      cases draft.wholes.lookup decl.scopeName with
      | some id => exact ⟨⟨.refl _, held⟩, trivial⟩
      | none =>
        refine entering_adds _ ?_ draft held
        exact (parts_adds ih (.ofGrammar stored) _ fun _ => .pattern stored).map
          (fun nested id => Rule.held id nested)
          fun _ _ _ _ _ => nofun
    · intro draft held
      rw [rule_run]
      cases draft.numbered.lookup place with
      | some id => exact ⟨⟨.refl _, held⟩, trivial⟩
      | none =>
        cases RulePatterns.ofDecl? decl with
        | none => exact ⟨⟨.refl _, held⟩, trivial⟩
        | some patterns =>
          have inside := surrounds.within place declared
          have body := (parts_adds ih inside place fun _ => .nested declared).bind fun nested =>
            kindOf_adds (fun place field _ part listed limit first =>
              (ih limit first).groups place part _ (.group declared field listed) inside) place
              nested patterns
          exact entering_adds (.rule place) body draft held
    · intro draft held
      rw [capturing_run]
      have parts := parts_adds ih (surrounds.within place declared) place
        fun _ => .nested declared
      have enters : Adds (entering (.rule place)
          (if (decl.nested.getD []).isEmpty then return templates decl (.capturing none)
          else do
            let inside := around.within place decl
            let holder ← holding (each (fun (place, decl) => entry library (grammar library fuel)
                (rule library fuel) inside place decl)
              (numberedPlaces place (decl.nested.getD [])))
            return templates decl (.capturing (some holder)))) fun _ _ => True := by
        apply entering_adds
        split
        · exact Adds.pure _ fun _ _ _ => nofun
        · refine (holding_adds parts).map (fun holder => templates decl (.capturing (some holder))) ?_
          rintro holder rules held id inner ⟨⟩
          exact held
      rcases draft.numbered.lookup place with _ | _ | known
      · exact enters draft held
      · exact enters draft held
      · exact ⟨⟨.refl _, held⟩, trivial⟩

end Compile

namespace RuleGraph

theorem compile_held (library : Library) (id : RuleId) (rule : Rule)
    (known : (compile library).rule? id = some rule) (inner : RuleId)
    (kind : rule.kind = .capturing (some inner)) :
    ∃ nested, (compile library).rule? inner = some (Rule.held inner nested) := by
  let draft := ((Compile.graph library).run Draft.empty).2
  obtain ⟨-, -, held⟩ : _ ∧ Compile.Steady 0 #[] draft.rules :=
    Compile.Keeps.graph (Compile.keeping library _ 0 #[]) (fun _ first => ⟨trivial, first⟩) Draft.empty
      ⟨⟨Nat.zero_le _, fun _ => by simp⟩, fun _ _ => by simp [Draft.empty]⟩
  rcases rule?_compile known with filled | rfl
  · obtain ⟨nested, there⟩ := held id rule filled inner kind
    exact ⟨nested, rule?_of_filled there⟩
  · cases kind

end RuleGraph

end Highlighter
