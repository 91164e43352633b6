import Highlighter.Proofs.Grammar.Derivation

set_option autoImplicit false

namespace Highlighter

namespace Lead

def ofEnd : Option Destination → Lead
  | none => .nowhere
  | some destination => .towards destination

theorem ofEnd_inj (one two : Option Destination) (same : ofEnd one = ofEnd two) : one = two := by
  cases one <;> cases two <;> simp_all [ofEnd]

theorem eq_of_ends {one two : Lead} (alike : ∀ ending, one = .ofEnd ending ↔ two = .ofEnd ending) :
    one = two := by
  cases one with
  | nowhere => exact ((alike none).mp rfl).symm
  | towards destination => exact ((alike (some destination)).mp rfl).symm
  | round =>
    cases two with
    | round => rfl
    | nowhere => exact (alike none).mpr rfl
    | towards destination => exact (alike (some destination)).mpr rfl

end Lead

namespace Library

variable {library : Library} {around : Surroundings} {text : String}

def Outermost (library : Library) (around : Surroundings) : Prop :=
  ∃ scope grammar, library.grammar? scope = some grammar ∧ around = .ofGrammar grammar

theorem Outermost.written (outermost : library.Outermost around) (keyed : library.Keyed) :
    library.Written around := by
  obtain ⟨scope, grammar, stored, rfl⟩ := outermost
  exact .ofGrammar (by rw [keyed scope grammar stored, stored])

theorem Outermost.lookup? (outermost : library.Outermost around) (keyed : library.Keyed)
    {name : String} {place : Place} {rule : RuleDecl}
    (found : around.lookup? name = some (place, rule)) :
    (library.grammar? place.grammar).map .ofGrammar = some around := by
  obtain ⟨scope, grammar, stored, rfl⟩ := outermost
  obtain ⟨repository, only, here⟩ := List.exists_of_findSome?_eq_some found
  obtain rfl := List.mem_singleton.mp only
  obtain ⟨_, _, same⟩ := Option.map_eq_some_iff.mp here
  obtain ⟨rfl, -⟩ := Prod.mk.inj same
  have home : (Surroundings.root grammar).grammar = scope := keyed scope grammar stored
  rw [Place.into, home, stored, Option.map_some]

theorem stride?_on {next : Surroundings} {place : Place} {further : String}
    (on : library.stride? around text = some (.on next place further)) :
    (next = around ∨ library.Outermost next) ∧
      ∃ name rule, next.lookup? name = some (place, rule) ∧ rule.reference = some further := by
  have arrived {around : Surroundings} {name : String}
      (on : arrival? around name = some (.on next place further)) :
      next = around ∧ ∃ rule, next.lookup? name = some (place, rule) ∧
        rule.reference = some further := by
    obtain ⟨⟨here, rule⟩, found, same⟩ := Option.map_eq_some_iff.mp on
    dsimp only at same
    split at same
    · rename_i refers
      obtain ⟨rfl, rfl, rfl⟩ := Stride.on.inj same
      exact ⟨rfl, rule, found, refers⟩
    · cases same
  unfold stride? at on
  split at on
  · cases on
  · cases on
  · rename_i name _
    obtain ⟨rfl, found⟩ := arrived on
    exact ⟨.inl rfl, name, found⟩
  · obtain ⟨_, _, same⟩ := Option.map_eq_some_iff.mp on
    cases same
  · rename_i scope name _
    obtain ⟨grammar, stored, on⟩ := Option.bind_eq_some_iff.mp on
    obtain ⟨rfl, found⟩ := arrived on
    exact ⟨.inr ⟨scope, grammar, stored, rfl⟩, name, found⟩

inductive Follows (library : Library) :
    Surroundings → String → List (Surroundings × Place × String) → Option Destination → Prop
  | lost {around : Surroundings} {text : String} (lost : library.stride? around text = none) :
      Follows library around text [] none
  | ended {around : Surroundings} {text : String} {destination : Destination}
      (ended : library.stride? around text = some (.ended destination)) :
      Follows library around text [] (some destination)
  | on {around next : Surroundings} {place : Place} {text further : String}
      {trail : List (Surroundings × Place × String)} {ending : Option Destination}
      (on : library.stride? around text = some (.on next place further))
      (rest : Follows library next further trail ending) :
      Follows library around text ((next, place, further) :: trail) ending

variable {trail : List (Surroundings × Place × String)} {ending : Option Destination}

theorem follow_eq_iff {fuel : Nat} : library.follow fuel around text = .ofEnd ending ↔
    ∃ trail, library.Follows around text trail ending ∧ trail.length < fuel := by
  induction fuel generalizing around text with
  | zero =>
    refine iff_of_false (fun same => ?_) (by simp)
    cases ending <;> exact nomatch same
  | succ fuel ih =>
    rw [follow_succ]
    constructor
    · intro found
      cases first : library.stride? around text with
      | none =>
        rw [first] at found
        obtain rfl := Lead.ofEnd_inj none _ found
        exact ⟨[], .lost first, Nat.succ_pos _⟩
      | some stride =>
        rw [first] at found
        cases stride with
        | ended destination =>
          obtain rfl := Lead.ofEnd_inj (some destination) _ found
          exact ⟨[], .ended first, Nat.succ_pos _⟩
        | on next place further =>
          obtain ⟨trail, follows, short⟩ := ih.mp found
          exact ⟨_, .on first follows, Nat.succ_lt_succ short⟩
    · rintro ⟨trail, follows, short⟩
      cases follows with
      | lost lost =>
        rw [lost]
        rfl
      | ended ended =>
        rw [ended]
        rfl
      | on on rest =>
        rw [on]
        exact ih.mpr ⟨_, rest, Nat.lt_of_succ_lt_succ short⟩

namespace Follows

theorem unique (follows : library.Follows around text trail ending)
    {other : List (Surroundings × Place × String)} {last : Option Destination}
    (also : library.Follows around text other last) : trail = other ∧ ending = last := by
  induction follows generalizing other with
  | lost lost =>
    cases also with
    | lost => exact ⟨rfl, rfl⟩
    | ended ended => simp [lost] at ended
    | on on _ => simp [lost] at on
  | ended ended =>
    cases also with
    | lost lost => simp [ended] at lost
    | ended same => simp_all
    | on on _ => simp [ended] at on
  | on on _ ih =>
    cases also with
    | lost lost => simp [on] at lost
    | ended ended => simp [on] at ended
    | on same rest =>
      obtain ⟨rfl, rfl, rfl⟩ := Stride.on.inj (Option.some.inj (on.symm.trans same))
      obtain ⟨rfl, rfl⟩ := ih rest
      exact ⟨rfl, rfl⟩

theorem of_mem (follows : library.Follows around text trail ending)
    {next : Surroundings} {place : Place} {further : String} (met : (next, place, further) ∈ trail) :
    ∃ rest, rest.length < trail.length ∧ library.Follows next further rest ending := by
  induction follows with
  | lost _ | ended _ => exact nomatch met
  | on on rest ih =>
    rcases List.mem_cons.mp met with same | later
    · obtain ⟨rfl, rfl, rfl⟩ := same
      exact ⟨_, Nat.lt_succ_self _, rest⟩
    · obtain ⟨other, shorter, follows⟩ := ih later
      exact ⟨other, shorter.trans (Nat.lt_succ_self _), follows⟩

theorem nodup (follows : library.Follows around text trail ending) : trail.Nodup := by
  induction follows with
  | lost _ | ended _ => exact List.nodup_nil
  | on _ rest ih =>
    refine List.nodup_cons.mpr ⟨fun again => ?_, ih⟩
    obtain ⟨other, shorter, follows⟩ := rest.of_mem again
    rw [(rest.unique follows).1] at shorter
    exact absurd shorter (Nat.lt_irrefl _)

theorem met (follows : library.Follows around text trail ending) (keyed : library.Keyed)
    (written : library.Written around) {start : Surroundings}
    (near : around = start ∨ library.Outermost around) :
    ∀ entry ∈ trail, (∃ rule, library.rule? entry.2.1 = some rule ∧
        rule.reference = some entry.2.2) ∧
      (entry.1 = start ∨ (library.grammar? entry.2.1.grammar).map .ofGrammar = some entry.1) := by
  induction follows with
  | lost _ | ended _ => exact fun _ none => nomatch none
  | @on around next place text further trail ending on rest ih =>
    obtain ⟨moved, name, rule, found, refers⟩ := stride?_on on
    have near : next = start ∨ library.Outermost next := by
      rcases moved with rfl | outermost
      · exact near
      · exact .inr outermost
    have written : library.Written next := by
      rcases moved with rfl | outermost
      · exact written
      · exact outermost.written keyed
    refine List.forall_mem_cons.mpr ⟨⟨⟨rule, (written.lookup? found).1, refers⟩, ?_⟩,
      ih written near⟩
    exact near.imp_right fun outermost => outermost.lookup? keyed found

theorem length_le (follows : library.Follows around text trail ending)
    (keyed : library.Keyed) (written : library.Written around) :
    trail.length ≤ 2 * library.ruleCount := by
  classical
  have met := follows.met keyed written (.inl rfl)
  let spot (entry : Surroundings × Place × String) : Bool × Place :=
    (decide (entry.1 = around), entry.2.1)
  have apart : (trail.map spot).Nodup := by
    refine follows.nodup.map_on fun (one, place, text) first (other, also, further) second same => ?_
    obtain ⟨near, rfl⟩ := Prod.mk.inj same
    obtain ⟨⟨rule, here, refers⟩, home⟩ := met _ first
    obtain ⟨⟨_, there, leads⟩, house⟩ := met _ second
    obtain rfl := Option.some.inj (here.symm.trans there)
    obtain rfl := Option.some.inj (refers.symm.trans leads)
    have same : one = other := by
      have alike : one = around ↔ other = around := decide_eq_decide.mp near
      by_cases own : one = around
      · rw [own, alike.mp own]
      · have away := mt alike.mpr own
        exact Option.some.inj ((home.resolve_left own).symm.trans (house.resolve_left away))
    rw [same]
  have inside : trail.map spot ⊆ [true, false] ×ˢ library.places := by
    intro (own, place) member
    obtain ⟨entry, listed, same⟩ := List.mem_map.mp member
    obtain ⟨⟨rule, here, _⟩, _⟩ := met entry listed
    obtain ⟨-, rfl⟩ := Prod.mk.inj same
    exact List.mem_product.mpr ⟨by cases own <;> simp, mem_places_of_rule? keyed here⟩
  calc trail.length
    _ = (trail.map spot).length := (List.length_map _).symm
    _ ≤ ([true, false] ×ˢ library.places).length := (apart.subperm inside).length_le
    _ = 2 * library.ruleCount := by simp [library.length_places, Nat.two_mul]

end Follows

theorem lead_eq_iff (keyed : library.Keyed) (written : library.Written around) :
    library.lead around text = .ofEnd ending ↔
      ∃ trail, library.Follows around text trail ending := by
  refine follow_eq_iff.trans (exists_congr fun trail => and_iff_left_of_imp fun follows => ?_)
  exact Nat.lt_succ_of_le (follows.length_le keyed written)

theorem lead_eq_round_iff (keyed : library.Keyed) (written : library.Written around) :
    library.lead around text = .round ↔ ∀ trail ending, ¬ library.Follows around text trail ending := by
  constructor
  · intro round trail ending follows
    have found := (lead_eq_iff keyed written).mpr ⟨trail, follows⟩
    rw [round] at found
    cases ending <;> exact nomatch found
  · intro endless
    have away (ending : Option Destination) : library.lead around text ≠ .ofEnd ending := by
      intro found
      obtain ⟨trail, follows⟩ := (lead_eq_iff keyed written).mp found
      exact endless trail ending follows
    cases found : library.lead around text with
    | round => rfl
    | nowhere => exact absurd found (away none)
    | towards destination => exact absurd found (away (some destination))

end Library

end Highlighter
