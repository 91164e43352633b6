import Highlighter.Proofs.Selector.Growth
import Highlighter.Text.Split
import Mathlib

set_option autoImplicit false

namespace Highlighter

namespace Text

theorem piecesFrom_head (separator : Char) (piece cs : List Char) :
    ∃ rest, piecesFrom separator piece cs =
      (piece.reverse ++ cs.takeWhile (· != separator)) :: rest := by
  induction cs generalizing piece with
  | nil => exact ⟨[], by simp [piecesFrom]⟩
  | cons c cs ih =>
    unfold piecesFrom
    by_cases parts : (c == separator) = true
    · rw [if_pos parts, List.takeWhile_cons_of_neg (by simp [bne, parts]), List.append_nil]
      exact ⟨_, rfl⟩
    · obtain ⟨rest, head⟩ := ih (c :: piece)
      rw [if_neg parts, List.takeWhile_cons_of_pos (by simp [bne, parts]), head]
      exact ⟨rest, by simp⟩

theorem piecesFrom_ne_nil (separator : Char) (piece cs : List Char) :
    piecesFrom separator piece cs ≠ [] := by
  obtain ⟨_, head⟩ := piecesFrom_head separator piece cs
  exact head ▸ List.cons_ne_nil _ _

end Text

namespace Atom

/-- An atom covers a scope whose segments go on from its own. One that ends in a dot covers only scopes
that properly extend it. -/
def Covers (atom scope : String) : Prop :=
  if atom.toList.getLast? = some '.' then atom.toList <+: scope.toList ∧ atom ≠ scope
  else Text.pieces '.' atom.toList <+: Text.pieces '.' scope.toList

theorem openMatches_iff (piece atom scope : List Char) :
    openMatches atom scope = true ↔
      Text.piecesFrom '.' piece atom <+: Text.piecesFrom '.' piece scope := by
  fun_induction openMatches atom scope generalizing piece with
  | case1 => exact iff_of_true rfl List.prefix_rfl
  | case2 c scope =>
    by_cases dot : c = '.'
    · simp [dot, Text.piecesFrom]
    · obtain ⟨rest, head⟩ := Text.piecesFrom_head '.' (c :: piece) scope
      simp [dot, Text.piecesFrom, head]
  | case3 a atom =>
    by_cases dot : a = '.'
    · simp [dot, Text.piecesFrom, Text.piecesFrom_ne_nil]
    · obtain ⟨rest, head⟩ := Text.piecesFrom_head '.' (a :: piece) atom
      simp [dot, Text.piecesFrom, head]
  | case4 a atom c scope ih =>
    by_cases same : a = c
    · subst same
      by_cases dot : a = '.'
      · simp [dot, Text.piecesFrom, ih []]
      · simp [dot, Text.piecesFrom, ih (a :: piece)]
    · obtain ⟨rest, head⟩ := Text.piecesFrom_head '.' piece (a :: atom)
      obtain ⟨rest', head'⟩ := Text.piecesFrom_head '.' piece (c :: scope)
      rw [head, head', List.cons_prefix_cons]
      refine iff_of_false (by simp [same]) fun ⟨heads, _⟩ => same ?_
      have segments := List.append_cancel_left heads
      simp only [List.takeWhile_cons] at segments
      split at segments <;> split at segments <;> simp_all

theorem closedMatches_iff (atom scope : List Char) (dot : atom.getLast? = some '.') :
    closedMatches atom scope = true ↔ atom <+: scope ∧ atom ≠ scope := by
  fun_induction closedMatches atom scope with
  | case1 => simp
  | case2 a atom c scope other ih =>
    rw [Bool.and_eq_true, beq_iff_eq, List.cons_prefix_cons]
    cases atom with
    | nil =>
      obtain rfl : a = '.' := by simpa using dot
      cases scope <;> simp_all [closedMatches, eq_comm]
    | cons b atom =>
      rw [ih (by simpa [List.getLast?_cons_cons] using dot)]
      constructor
      · rintro ⟨rfl, lead, further⟩
        exact ⟨⟨rfl, lead⟩, by simpa using further⟩
      · rintro ⟨⟨rfl, lead⟩, further⟩
        exact ⟨rfl, lead, by simpa using further⟩
  | case3 atom scope _ other =>
    have present : atom ≠ [] := by
      rintro rfl
      exact nomatch dot
    cases scope with
    | nil => simp [present]
    | cons c scope =>
      obtain ⟨a, rest, rfl⟩ := List.exists_cons_of_ne_nil present
      exact (other a rest c scope rfl rfl).elim

theorem meets_iff (atom scope : String) : meets atom scope = true ↔ Covers atom scope := by
  unfold meets Covers
  by_cases dot : atom.toList.getLast? = some '.'
  · rw [if_pos (beq_iff_eq.mpr dot), if_pos dot, closedMatches_iff _ _ dot, String.toList_inj.ne]
  · rw [if_neg (mt beq_iff_eq.mp dot), if_neg dot]
    exact openMatches_iff [] _ _

end Atom

namespace Path

def CoveredAt (scopes : List String) (atom : String) (place : Nat) : Prop :=
  ∃ scope, scopes[place]? = some scope ∧ Atom.Covers atom scope

/-- Places further and further in, one for each atom of a chain, that the atoms cover. -/
structure Embeds (atoms scopes : List String) (places : List Nat) : Prop where
  inward : places.Pairwise (· < ·)
  covered : List.Forall₂ (CoveredAt scopes) atoms places

variable {atoms scopes rest : List String} {atom : String} {places : List Nat} {depth next : Nat}

theorem embeds_cons_iff : Embeds (atom :: atoms) scopes places ↔
    ∃ place others, places = place :: others ∧ CoveredAt scopes atom place ∧
      (∀ other ∈ others, place < other) ∧ Embeds atoms scopes others := by
  constructor
  · rintro ⟨inward, covered⟩
    obtain ⟨place, others, here, later, rfl⟩ := List.forall₂_cons_left_iff.mp covered
    obtain ⟨first, inward⟩ := List.pairwise_cons.mp inward
    exact ⟨place, others, rfl, here, first, inward, later⟩
  · rintro ⟨place, others, rfl, here, first, inward, later⟩
    exact ⟨List.pairwise_cons.mpr ⟨first, inward⟩, .cons here later⟩

theorem forall₂_concat_left_iff {α β : Type} {R : α → β → Prop} {list : List α} {a : α}
    {others : List β} : List.Forall₂ R (list ++ [a]) others ↔
      ∃ outer b, others = outer ++ [b] ∧ List.Forall₂ R list outer ∧ R a b := by
  rw [← List.forall₂_reverse_iff, List.reverse_concat, List.forall₂_cons_left_iff]
  constructor
  · rintro ⟨b, outer, last, init, whole⟩
    refine ⟨outer.reverse, b, ?_, ?_, last⟩
    · rw [← List.reverse_cons, ← whole, List.reverse_reverse]
    · rwa [← List.forall₂_reverse_iff, List.reverse_reverse]
  · rintro ⟨outer, b, rfl, init, last⟩
    exact ⟨b, outer.reverse, last, List.forall₂_reverse_iff.mpr init, List.reverse_concat ..⟩

theorem embeds_concat_iff : Embeds (atoms ++ [atom]) scopes places ↔
    ∃ outer place, places = outer ++ [place] ∧ Embeds atoms scopes outer ∧
      (∀ other ∈ outer, other < place) ∧ CoveredAt scopes atom place := by
  constructor
  · rintro ⟨inward, covered⟩
    obtain ⟨outer, place, rfl, covered, here⟩ := forall₂_concat_left_iff.mp covered
    obtain ⟨inward, -, before⟩ := List.pairwise_append.mp inward
    exact ⟨outer, place, rfl, ⟨inward, covered⟩,
      fun other member => before other member place (List.mem_singleton.mpr rfl), here⟩
  · rintro ⟨outer, place, rfl, ⟨inward, covered⟩, before, here⟩
    refine ⟨List.pairwise_append.mpr ⟨inward, List.pairwise_singleton _ _, ?_⟩,
      forall₂_concat_left_iff.mpr ⟨outer, place, rfl, covered, here⟩⟩
    intro other member last inner
    exact List.mem_singleton.mp inner ▸ before other member

theorem Embeds.skip (embeds : Embeds (atom :: atoms) scopes places)
    (apart : ¬ CoveredAt scopes atom depth) (inside : ∀ place ∈ places, depth ≤ place) :
    ∀ place ∈ places, depth + 1 ≤ place := by
  obtain ⟨first, others, rfl, covered, further, -⟩ := embeds_cons_iff.mp embeds
  have here : depth ≠ first := fun same => apart (same ▸ covered)
  have start := inside first List.mem_cons_self
  intro place member
  obtain rfl | member := List.mem_cons.mp member
  · omega
  · have := further place member
    omega

theorem of_cons_eq_drop {scope : String} (here : scope :: rest = scopes.drop depth) :
    scopes[depth]? = some scope ∧ rest = scopes.drop (depth + 1) := by
  constructor
  · rw [← Nat.add_zero depth, ← List.getElem?_drop, ← here, List.getElem?_cons_zero]
  · rw [← List.tail_drop, ← here, List.tail_cons]

theorem not_coveredAt_of_nil (here : [] = scopes.drop depth) {place : Nat} (inside : depth ≤ place) :
    ¬ CoveredAt scopes atom place := by
  rintro ⟨scope, found, -⟩
  have length : scopes.length ≤ depth := List.drop_eq_nil_iff.mp here.symm
  obtain ⟨within, -⟩ := List.getElem?_eq_some_iff.mp found
  omega

theorem coveredAt_iff {scope : String} (found : scopes[depth]? = some scope) :
    CoveredAt scopes atom depth ↔ Atom.meets atom scope = true := by
  rw [CoveredAt, Atom.meets_iff]
  exact ⟨fun ⟨_, here, covers⟩ => Option.some.inj (found.symm.trans here) ▸ covers,
    fun covers => ⟨scope, found, covers⟩⟩

def Earliest (depth : Nat) (atoms scopes : List String) : Option (Nat × List String) → Prop
  | none => ∀ places, Embeds atoms scopes places → ¬ ∀ place ∈ places, depth ≤ place
  | some (next, left) => left = scopes.drop next ∧ depth ≤ next ∧
    (∃ places, Embeds atoms scopes places ∧ ∀ place ∈ places, depth ≤ place ∧ place < next) ∧
    ∀ places last, Embeds atoms scopes places → (∀ place ∈ places, depth ≤ place ∧ place < last) →
      depth ≤ last → next ≤ last

theorem afterAncestors_earliest (here : rest = scopes.drop depth) :
    Earliest depth atoms scopes (afterAncestors depth atoms rest) := by
  fun_induction afterAncestors depth atoms rest with
  | case1 depth rest =>
    exact ⟨here, le_rfl, ⟨[], ⟨.nil, .nil⟩, List.forall_mem_nil _⟩, fun _ _ _ _ inside => inside⟩
  | case2 depth atom atoms =>
    intro places embeds inside
    obtain ⟨place, others, rfl, covered, -⟩ := embeds_cons_iff.mp embeds
    exact not_coveredAt_of_nil here (inside place List.mem_cons_self) covered
  | case3 depth atom atoms scope rest meets ih =>
    obtain ⟨found, next⟩ := of_cons_eq_drop here
    have later := ih next
    cases taken : afterAncestors (depth + 1) atoms rest with
    | none =>
      rw [taken] at later
      intro places embeds inside
      obtain ⟨place, others, rfl, -, further, embeds⟩ := embeds_cons_iff.mp embeds
      refine later others embeds fun other member => ?_
      exact (inside place List.mem_cons_self).trans_lt (further other member)
    | some left =>
      rw [taken] at later
      obtain ⟨left, within, ⟨places, embeds, inside⟩, least⟩ := later
      refine ⟨left, by omega, ⟨depth :: places, embeds_cons_iff.mpr ⟨depth, places, rfl,
        (coveredAt_iff found).mpr meets, fun other member => (inside other member).1, embeds⟩, ?_⟩, ?_⟩
      · intro place member
        obtain rfl | member := List.mem_cons.mp member
        · omega
        · have := inside place member
          omega
      · intro places last embeds inside _
        obtain ⟨place, others, rfl, -, further, embeds⟩ := embeds_cons_iff.mp embeds
        have first := inside place List.mem_cons_self
        refine least others last embeds (fun other member => ?_) (by omega)
        have := further other member
        exact ⟨by omega, (inside other (List.mem_cons_of_mem _ member)).2⟩
  | case4 depth atom atoms scope rest misses ih =>
    obtain ⟨found, next⟩ := of_cons_eq_drop here
    have later := ih next
    have apart : ¬ CoveredAt scopes atom depth := (coveredAt_iff found).not.mpr misses
    cases taken : afterAncestors (depth + 1) (atom :: atoms) rest with
    | none =>
      rw [taken] at later
      exact fun places embeds inside => later places embeds (embeds.skip apart inside)
    | some left =>
      rw [taken] at later
      obtain ⟨left, within, ⟨places, embeds, inside⟩, least⟩ := later
      refine ⟨left, by omega, ⟨places, embeds, fun place member => ?_⟩, ?_⟩
      · have := inside place member
        omega
      · intro places last embeds inside _
        have skipped := embeds.skip apart fun place member => (inside place member).1
        refine least places last embeds
          (fun place member => ⟨skipped place member, (inside place member).2⟩) ?_
        obtain ⟨place, others, rfl, -⟩ := embeds_cons_iff.mp embeds
        have := skipped place List.mem_cons_self
        have := (inside place List.mem_cons_self).2
        omega

def Innermost (depth : Nat) (atom : String) (scopes : List String) : Option Nat → Prop
  | none => ∀ place, depth ≤ place → ¬ CoveredAt scopes atom place
  | some found => ∃ place, found = place + 1 ∧ depth ≤ place ∧ CoveredAt scopes atom place ∧
    ∀ other, CoveredAt scopes atom other → other ≤ place

theorem deepest?_innermost (here : rest = scopes.drop depth) :
    Innermost depth atom scopes (deepest? atom depth rest) := by
  fun_induction deepest? atom depth rest with
  | case1 depth => exact fun place inside => not_coveredAt_of_nil here inside
  | case2 depth scope rest found taken ih =>
    have later := ih (of_cons_eq_drop here).2
    rw [taken] at later
    obtain ⟨place, rfl, inside, covered, last⟩ := later
    exact ⟨place, rfl, by omega, covered, last⟩
  | case3 depth scope rest taken meets ih =>
    obtain ⟨found, next⟩ := of_cons_eq_drop here
    have later := ih next
    rw [taken] at later
    refine ⟨depth, rfl, le_rfl, (coveredAt_iff found).mpr meets, fun other covered => ?_⟩
    by_contra further
    exact later other (by omega) covered
  | case4 depth scope rest taken misses ih =>
    obtain ⟨found, next⟩ := of_cons_eq_drop here
    have later := ih next
    rw [taken] at later
    intro place inside covered
    obtain rfl | further := inside.eq_or_lt
    · exact misses ((coveredAt_iff found).mp covered)
    · exact later place further covered

/-- A chain of atoms is met just when there are places for it, further and further in, that its atoms
cover in turn; and it is met as deep as any such places reach. -/
theorem evaluate_deepest {atoms : List String} (present : atoms ≠ []) (scopes : List String) :
    ((evaluate atoms scopes).isSome = true ↔ ∃ places, Embeds atoms scopes places) ∧
      ∀ found, evaluate atoms scopes = some found →
        IsGreatest {depth | ∃ places last, Embeds atoms scopes places ∧
          places.getLast? = some last ∧ depth = last + 1} found.depth := by
  obtain ⟨outer, atom, rfl⟩ := (List.eq_nil_or_concat' atoms).resolve_left present
  have ancestors := @afterAncestors_earliest outer scopes scopes 0 rfl
  unfold evaluate
  simp only [List.getLast?_concat, List.dropLast_concat]
  cases taken : afterAncestors 0 outer scopes with
  | none =>
    rw [taken] at ancestors
    refine ⟨iff_of_false (by simp) ?_, nofun⟩
    rintro ⟨places, embeds⟩
    obtain ⟨places, last, rfl, embeds, -⟩ := embeds_concat_iff.mp embeds
    exact ancestors places embeds fun _ _ => Nat.zero_le _
  | some left =>
    obtain ⟨next, left⟩ := left
    rw [taken] at ancestors
    obtain ⟨rfl, -, ⟨places, embeds, before⟩, least⟩ := ancestors
    have innermost := @deepest?_innermost scopes _ atom next rfl
    dsimp only
    cases searched : deepest? atom next (scopes.drop next) with
    | none =>
      rw [searched] at innermost
      refine ⟨iff_of_false (by simp) ?_, nofun⟩
      rintro ⟨places, embeds⟩
      obtain ⟨places, last, rfl, embeds, inside, covered⟩ := embeds_concat_iff.mp embeds
      refine innermost last (least places last embeds (fun place member => ?_) ?_) covered
      · exact ⟨Nat.zero_le _, inside place member⟩
      · exact Nat.zero_le _
    | some found =>
      rw [searched] at innermost
      obtain ⟨last, rfl, inside, covered, furthest⟩ := innermost
      have whole : Embeds (outer ++ [atom]) scopes (places ++ [last]) := by
        refine embeds_concat_iff.mpr ⟨places, last, rfl, embeds, fun place member => ?_, covered⟩
        exact (before place member).2.trans_le inside
      refine ⟨iff_of_true rfl ⟨_, whole⟩, ?_⟩
      rintro _ ⟨⟩
      refine ⟨⟨_, last, whole, by simp, rfl⟩, ?_⟩
      rintro _ ⟨others, other, embeds, ends, rfl⟩
      obtain ⟨others, _, rfl, -, -, covered⟩ := embeds_concat_iff.mp embeds
      obtain rfl := Option.some.inj (List.getLast?_concat.symm.trans ends)
      exact Nat.succ_le_succ (furthest _ covered)

theorem evaluate_deepest_repeated :
    evaluate ["a", "b"] ["a", "b", "a", "b.c"] = some ⟨4, 1, 2⟩ ∧
      IsGreatest {depth | ∃ places last, Embeds ["a", "b"] ["a", "b", "a", "b.c"] places ∧
        places.getLast? = some last ∧ depth = last + 1} 4 := by
  have found : evaluate ["a", "b"] ["a", "b", "a", "b.c"] = some ⟨4, 1, 2⟩ := by cbv
  exact ⟨found, (evaluate_deepest (by simp) _).2 _ found⟩

end Path

end Highlighter
