import Highlighter.Proofs.Grammar.Rendering

set_option autoImplicit false

namespace Highlighter

namespace Draft

def number (draft : Draft) : Numbering
  | .whole scope => (draft.wholes.lookup scope).map some
  | .rule place => draft.numbered.lookup place

def filled (draft : Draft) (id : RuleId) : Option Rule := (draft.rules[id]?).join

def knows (draft : Draft) (place : Place) : Prop := ∃ id, draft.number (.rule place) = some (some id)

structure Sound (draft : Draft) : Prop where
  bounded : ∀ site id, draft.number site = some (some id) → id < draft.rules.size
  distinct : ∀ site other id, draft.number site = some (some id) →
    draft.number other = some (some id) → site = other
  groups : ∀ place, place.isGroup = true → draft.number (.rule place) ≠ some none

structure Grows (library : Library) (draft next : Draft) : Prop where
  size : draft.rules.size ≤ next.rules.size
  rules : ∀ id, id < draft.rules.size → next.rules[id]? = draft.rules[id]?
  numbers : ∀ site found, draft.number site = some found → next.number site = some found
  settled : ∀ site found, draft.number site = none → next.number site = some found →
    library.Settled next.number next.filled site found

variable {library : Library} {draft next last : Draft}

theorem lt_of_filled {id : RuleId} {rule : Rule} (here : draft.filled id = some rule) :
    id < draft.rules.size := by
  by_contra outside
  simp [filled, Array.getElem?_eq_none (not_lt.mp outside)] at here

namespace Grows

theorem refl (library : Library) (draft : Draft) : Grows library draft draft where
  size := le_rfl
  rules := fun _ _ => rfl
  numbers := fun _ _ same => same
  settled := fun _ _ new same => by simp [new] at same

theorem filled (grows : Grows library draft next) {id : RuleId} {rule : Rule}
    (here : draft.filled id = some rule) : next.filled id = some rule := by
  rw [Draft.filled, grows.rules id (lt_of_filled here)]
  exact here

theorem trans (first : Grows library draft next) (second : Grows library next last) :
    Grows library draft last where
  size := first.size.trans second.size
  rules := fun id inside =>
    (second.rules id (inside.trans_le first.size)).trans (first.rules id inside)
  numbers := fun site found same => second.numbers site found (first.numbers site found same)
  settled := fun site found new here => by
    cases between : next.number site with
    | none => exact second.settled site found between here
    | some other =>
      obtain rfl : other = found :=
        Option.some.inj ((second.numbers site other between).symm.trans here)
      exact (first.settled site other new between).mono second.numbers fun _ _ => second.filled

theorem knows (grows : Grows library draft next) (place : Place) (known : draft.knows place) :
    next.knows place :=
  known.imp fun _ => grows.numbers _ _

end Grows

def fill (draft : Draft) (id : RuleId) (rule : Rule) : Draft :=
  { draft with rules := draft.rules.setIfInBounds id (some rule) }

theorem filled_fill_self {id : RuleId} (inside : id < draft.rules.size) (rule : Rule) :
    (draft.fill id rule).filled id = some rule := by
  simp [filled, fill, inside]

theorem filled_fill {id : RuleId} (empty : draft.filled id = none) (rule : Rule) {other : RuleId}
    {present : Rule} (here : draft.filled other = some present) :
    (draft.fill id rule).filled other = some present := by
  have different : id ≠ other := by
    rintro rfl
    simp [empty] at here
  simpa [filled, fill, Array.getElem?_setIfInBounds_ne different] using here

theorem Sound.fill (sound : draft.Sound) (id : RuleId) (rule : Rule) : (draft.fill id rule).Sound where
  bounded := fun site other here => by
    simpa [Draft.fill] using sound.bounded site other here
  distinct := sound.distinct
  groups := sound.groups

theorem Grows.fill (grows : Grows library draft next) {id : RuleId} (new : draft.rules.size ≤ id)
    (empty : next.filled id = none) (rule : Rule) : Grows library draft (next.fill id rule) where
  size := by simpa [Draft.fill] using grows.size
  rules := fun other inside => by
    rw [← grows.rules other inside]
    exact Array.getElem?_setIfInBounds_ne (by omega)
  numbers := grows.numbers
  settled := fun site found unmet here =>
    (grows.settled site found unmet here).mono (fun _ _ same => same)
      fun _ _ => filled_fill empty rule

def room (draft : Draft) : Draft := { draft with rules := draft.rules.push none }

theorem Sound.room (sound : draft.Sound) : draft.room.Sound where
  bounded := fun site id here => (sound.bounded site id here).trans (by simp [Draft.room])
  distinct := sound.distinct
  groups := sound.groups

theorem Grows.room (library : Library) (draft : Draft) : Grows library draft draft.room where
  size := by simp [Draft.room]
  rules := fun id inside => by
    rw [Draft.room, Array.getElem?_push, if_neg (by omega)]
  numbers := fun _ _ same => same
  settled := fun site found new same => by
    have old : draft.number site = some found := same
    simp [new] at old

def enter (draft : Draft) (site : Site) : Draft :=
  let id := draft.rules.size
  match site with
  | .whole scope =>
    { draft with rules := draft.rules.push none, wholes := (scope, id) :: draft.wholes }
  | .rule place =>
    { draft with rules := draft.rules.push none, numbered := (place, some id) :: draft.numbered }

theorem rules_enter (draft : Draft) (site : Site) : (draft.enter site).rules = draft.rules.push none := by
  cases site <;> rfl

theorem number_enter (draft : Draft) (site other : Site) :
    (draft.enter site).number other =
      if other = site then some (some draft.rules.size) else draft.number other := by
  cases site with
  | whole scope =>
    cases other with
    | whole name =>
      by_cases same : name = scope
      · simp [enter, number, same]
      · simp [enter, number, same, List.lookup_cons, beq_false_of_ne same]
    | rule place => simp [enter, number]
  | rule place =>
    cases other with
    | whole name => simp [enter, number]
    | rule next =>
      by_cases same : next = place
      · simp [enter, number, same]
      · simp [enter, number, same, List.lookup_cons, beq_false_of_ne same]

theorem Sound.enter (sound : draft.Sound) (site : Site) : (draft.enter site).Sound where
  bounded := fun other id here => by
    rw [number_enter] at here
    rw [rules_enter, Array.size_push]
    split at here
    · cases here
      exact Nat.lt_succ_self _
    · exact (sound.bounded other id here).trans (Nat.lt_succ_self _)
  distinct := fun one other id first second => by
    rw [number_enter] at first second
    have old (place : Site) (here : draft.number place = some (some draft.rules.size)) : False :=
      (sound.bounded place _ here).false
    split at first <;> split at second
    · simp_all
    · cases first
      exact (old other second).elim
    · cases second
      exact (old one first).elim
    · exact sound.distinct one other id first second
  groups := fun place isGroup here => by
    rw [number_enter] at here
    split at here
    · simp at here
    · exact sound.groups place isGroup here

theorem knows_enter (draft : Draft) (place : Place) : (draft.enter (.rule place)).knows place :=
  ⟨draft.rules.size, by rw [number_enter, if_pos rfl]⟩

theorem knows.enter {place : Place} (known : draft.knows place) (site : Site) :
    (draft.enter site).knows place := by
  by_cases same : .rule place = site
  · exact ⟨draft.rules.size, by rw [number_enter, if_pos same]⟩
  · exact known.imp fun _ here => by rwa [number_enter, if_neg same]

theorem Grows.enter {site : Site} (unmet : draft.number site = none)
    (grows : Grows library (draft.enter site) next) {rule : Rule}
    (renders : library.Renders next.number next.filled site rule) :
    Grows library draft (next.fill draft.rules.size rule) := by
  have room : (draft.enter site).rules.size = draft.rules.size + 1 := by
    rw [rules_enter, Array.size_push]
  have slot : next.rules[draft.rules.size]? = some none := by
    rw [grows.rules _ (by omega), rules_enter, Array.getElem?_push_size]
  have empty : next.filled draft.rules.size = none := by simp [Draft.filled, slot]
  have own : next.number site = some (some draft.rules.size) :=
    grows.numbers site _ (by rw [number_enter, if_pos rfl])
  have inside : draft.rules.size < next.rules.size := by
    have := grows.size
    omega
  refine ⟨?_, fun id old => ?_, fun other found here => ?_, fun other found new here => ?_⟩
  · simpa [Draft.fill] using inside.le
  · refine (Array.getElem?_setIfInBounds_ne (by omega)).trans ?_
    rw [grows.rules id (by omega), rules_enter, Array.getElem?_push, if_neg (by omega)]
  · refine grows.numbers other found ?_
    rw [number_enter, if_neg (by rintro rfl; simp [unmet] at here)]
    exact here
  · have keeps : ∀ id present, next.filled id = some present →
        (next.fill draft.rules.size rule).filled id = some present :=
      fun _ _ => filled_fill empty rule
    by_cases same : other = site
    · subst same
      obtain rfl : found = some draft.rules.size := Option.some.inj (here.symm.trans own)
      exact ⟨rule, filled_fill_self inside rule, renders.mono (fun _ _ same => same) keeps⟩
    · refine Library.Settled.mono (fun _ _ same => same) keeps (grows.settled other found ?_ here)
      rw [number_enter, if_neg same]
      exact new

def dismiss (draft : Draft) (place : Place) : Draft :=
  { draft with numbered := (place, none) :: draft.numbered }

theorem number_dismiss (draft : Draft) (place : Place) (site : Site) :
    (draft.dismiss place).number site =
      if site = .rule place then some none else draft.number site := by
  cases site with
  | whole scope => simp [dismiss, number]
  | rule next =>
    by_cases same : next = place
    · simp [dismiss, number, same]
    · simp [dismiss, number, same, List.lookup_cons, beq_false_of_ne same]

theorem Sound.dismiss (sound : draft.Sound) {place : Place} (plain : place.isGroup = false) :
    (draft.dismiss place).Sound := by
  have old {site : Site} {id : RuleId} (here : (draft.dismiss place).number site = some (some id)) :
      draft.number site = some (some id) := by
    rw [number_dismiss] at here
    split at here
    · simp at here
    · exact here
  refine ⟨fun site id here => sound.bounded site id (old here),
    fun one other id first second => sound.distinct one other id (old first) (old second),
    fun other isGroup here => ?_⟩
  rw [number_dismiss] at here
  split at here
  · rename_i same
    cases same
    simp [plain] at isGroup
  · exact sound.groups other isGroup here

theorem Grows.dismiss {place : Place} {decl : RuleDecl} (unmet : draft.number (.rule place) = none)
    (declared : library.rule? place = some decl) (plain : place.isGroup = false)
    (malformed : RulePatterns.ofDecl? decl = none) : Grows library draft (draft.dismiss place) where
  size := le_rfl
  rules := fun _ _ => rfl
  numbers := fun site found here => by
    rw [number_dismiss, if_neg (by rintro rfl; simp [unmet] at here)]
    exact here
  settled := fun site found new here => by
    rw [number_dismiss] at here
    split at here
    · rename_i same
      cases here
      exact ⟨place, decl, same, declared, plain, malformed⟩
    · simp [new] at here

end Draft

def Library.sites (library : Library) : List Site :=
  library.decls.map (.whole ·.scopeName) ++ library.places.map .rule

theorem Library.length_sites (library : Library) :
    library.sites.length = library.repository.grammars.length + 1 + library.ruleCount := by
  simp only [sites, decls, List.length_append, List.length_map, List.length_cons, length_places]

theorem Library.mem_sites_whole {library : Library} {grammar : GrammarDecl}
    (stored : library.grammar? grammar.scopeName = some grammar) :
    .whole grammar.scopeName ∈ library.sites :=
  List.mem_append_left _ (List.mem_map.mpr ⟨grammar, mem_decls_of_grammar? stored, rfl⟩)

theorem Library.mem_sites_rule {library : Library} (keyed : library.Keyed) {place : Place}
    {rule : RuleDecl} (declared : library.rule? place = some rule) : .rule place ∈ library.sites :=
  List.mem_append_right _ (List.mem_map.mpr ⟨place, mem_places_of_rule? keyed declared, rfl⟩)

namespace Draft

variable {library : Library} {draft next : Draft}

def unmet (library : Library) (draft : Draft) : Nat :=
  library.sites.countP fun site => (draft.number site).isNone

theorem unmet_le (library : Library) (draft : Draft) :
    draft.unmet library < library.ruleCount + library.repository.grammars.length + 2 := by
  have all : draft.unmet library ≤ library.sites.length := List.countP_le_length
  rw [library.length_sites] at all
  omega

theorem Grows.unmet (grows : Grows library draft next) : next.unmet library ≤ draft.unmet library := by
  refine List.countP_mono_left fun site _ absent => ?_
  rw [Option.isNone_iff_eq_none] at absent ⊢
  by_contra present
  obtain ⟨found, here⟩ := Option.ne_none_iff_exists'.mp present
  simp [grows.numbers site found here] at absent

theorem unmet_enter {site : Site} (member : site ∈ library.sites)
    (absent : draft.number site = none) :
    (draft.enter site).unmet library < draft.unmet library := by
  have step (sites : List Site) :
      sites.countP (fun other => ((draft.enter site).number other).isNone) +
          sites.countP (fun other => decide (other = site)) =
        sites.countP (fun other => (draft.number other).isNone) := by
    induction sites with
    | nil => rfl
    | cons other rest ih =>
      simp only [List.countP_cons, number_enter]
      simp only [number_enter] at ih
      by_cases same : other = site
      · subst same
        simp [absent]
        omega
      · simp only [same, if_false, decide_false]
        simp only [Bool.false_eq_true, if_false]
        omega
  have present : 0 < library.sites.countP (fun other => decide (other = site)) :=
    List.countP_pos_iff.mpr ⟨site, member, by simp⟩
  have whole := step library.sites
  unfold unmet
  omega

end Draft

end Highlighter
