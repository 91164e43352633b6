import Highlighter.Selector.Basic
import Mathlib.Tactic

set_option autoImplicit false

namespace Highlighter

namespace Path

theorem isSome_deepest? (atom : String) (depth : Nat) (scopes : List String) :
    (deepest? atom depth scopes).isSome = scopes.any (Atom.meets atom) := by
  induction scopes generalizing depth with
  | nil => rfl
  | cons scope rest ih =>
    rw [List.any_cons, ← ih (depth + 1), deepest?]
    cases deepest? atom (depth + 1) rest with
    | some found => simp
    | none => cases Atom.meets atom scope <;> rfl

theorem afterAncestors_append {depth found : Nat} {atoms scopes rest : List String}
    (more : List String) (taken : afterAncestors depth atoms scopes = some (found, rest)) :
    afterAncestors depth atoms (scopes ++ more) = some (found, rest ++ more) := by
  fun_induction afterAncestors depth atoms scopes with
  | case1 depth scopes =>
    obtain ⟨rfl, rfl⟩ := Prod.mk.inj (Option.some.inj taken)
    cases scopes ++ more <;> rfl
  | case2 => exact nomatch taken
  | case3 depth atom atoms scope scopes meets ih =>
    rw [List.cons_append, afterAncestors, if_pos meets]
    exact ih taken
  | case4 depth atom atoms scope scopes misses ih =>
    rw [List.cons_append, afterAncestors, if_neg misses]
    exact ih taken

theorem evaluate_append {atoms scopes : List String} (more : List String)
    (matched : (evaluate atoms scopes).isSome = true) :
    (evaluate atoms (scopes ++ more)).isSome = true := by
  unfold evaluate at matched ⊢
  cases last : atoms.getLast? with
  | none => simp [last] at matched
  | some innermost =>
    cases taken : afterAncestors 0 atoms.dropLast scopes with
    | none => simp [last, taken] at matched
    | some left =>
      obtain ⟨depth, rest⟩ := left
      simp only [last, taken, afterAncestors_append more taken, Option.isSome_map,
        isSome_deepest?, List.any_append] at matched ⊢
      rw [matched, Bool.true_or]

end Path

namespace Matcher

mutual

def isPlain : Matcher → Bool
  | .path _ => true
  | .not _ => false
  | .and all => arePlain all
  | .or any => arePlain any

def arePlain : List Matcher → Bool
  | [] => true
  | matcher :: rest => isPlain matcher && arePlain rest

end

theorem isSome_evaluateAll (scopes : List String) (best : Specificity) (matchers : List Matcher) :
    (evaluateAll scopes best matchers).isSome =
      matchers.all fun matcher => (evaluate scopes matcher).isSome := by
  induction matchers generalizing best with
  | nil => rfl
  | cons matcher rest ih =>
    rw [List.all_cons, evaluateAll]
    cases evaluate scopes matcher with
    | none => rfl
    | some found => exact ih _

theorem isSome_evaluateAny (scopes : List String) (matchers : List Matcher) :
    (evaluateAny scopes matchers).isSome =
      matchers.any fun matcher => (evaluate scopes matcher).isSome := by
  induction matchers with
  | nil => rfl
  | cons matcher rest ih =>
    rw [List.any_cons, ← ih, evaluateAny]
    cases evaluate scopes matcher <;> cases evaluateAny scopes rest <;> rfl

variable {scopes : List String} (more : List String)

mutual

theorem evaluate_append : (matcher : Matcher) → matcher.isPlain = true →
    (evaluate scopes matcher).isSome = true → (evaluate (scopes ++ more) matcher).isSome = true
  | .path _, _, matched => Path.evaluate_append more matched
  | .not _, plain, _ => nomatch plain
  | .and all, plain, matched => by
    rw [evaluate, isSome_evaluateAll] at matched ⊢
    exact List.all_eq_true.mpr fun matcher member =>
      member_append all plain matcher member (List.all_eq_true.mp matched matcher member)
  | .or any, plain, matched => by
    rw [evaluate, isSome_evaluateAny] at matched ⊢
    obtain ⟨matcher, member, here⟩ := List.any_eq_true.mp matched
    exact List.any_eq_true.mpr ⟨matcher, member, member_append any plain matcher member here⟩

theorem member_append : (matchers : List Matcher) → arePlain matchers = true →
    ∀ matcher ∈ matchers, (evaluate scopes matcher).isSome = true →
      (evaluate (scopes ++ more) matcher).isSome = true
  | [], _, _, member, _ => nomatch member
  | first :: rest, plain, matcher, member, matched => by
    obtain ⟨here, others⟩ := Bool.and_eq_true_iff.mp plain
    rcases List.mem_cons.mp member with same | inner
    · exact same ▸ evaluate_append first here (same ▸ matched)
    · exact member_append rest others matcher inner matched

end

end Matcher

theorem Rank.isSome_best? (ranks : List Rank) : (best? ranks).isSome = !ranks.isEmpty := by
  cases ranks with
  | nil => rfl
  | cons rank rest =>
    rw [best?]
    cases best? rest with
    | none => rfl
    | some other => dsimp only; split <;> rfl

namespace Selector

def isPlain (selector : Selector) : Bool := selector.alternatives.all (·.matcher.isPlain)

variable {selector : Selector} {scopes : List String}

theorem isSome_rank? (selector : Selector) (scopes : List String) :
    (selector.rank? scopes).isSome = selector.applies scopes := by
  rw [rank?, Rank.isSome_best?, applies]
  induction selector.alternatives with
  | nil => rfl
  | cons alternative rest ih =>
    rw [List.any_cons, ← ih]
    cases given : alternative.rank? scopes <;> simp [given]

theorem applies_append (more : List String) (plain : selector.isPlain = true)
    (applied : selector.applies scopes = true) : selector.applies (scopes ++ more) = true := by
  obtain ⟨alternative, member, here⟩ := List.any_eq_true.mp applied
  refine List.any_eq_true.mpr ⟨alternative, member, ?_⟩
  rw [Alternative.rank?, Option.isSome_map] at here ⊢
  exact Matcher.evaluate_append more _ (List.all_eq_true.mp plain alternative member) here

end Selector

end Highlighter
