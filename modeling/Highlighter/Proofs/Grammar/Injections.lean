import Highlighter.Grammar.Compilation
import Highlighter.Proofs.Selector.Derivation

set_option autoImplicit false

namespace Highlighter

def Library.foreignSelector? (library : Library) (scope : String) : Option String :=
  (library.grammar? scope).bind (·.injectionSelector)

def Library.injectionSelectors (library : Library) : List String :=
  library.base.injections.map (·.1) ++ library.injectors.filterMap library.foreignSelector?

namespace Selector

variable {tokens : List Token} {only : Alternative}

theorem DerivesAlternative.priority_eq_low_iff (derives : DerivesAlternative tokens only) :
    only.priority = .low ↔ tokens.head? = some .left ∨
      tokens.head? ≠ some .right ∧ only.matcher.leadsWithNegation = true := by
  cases derives with
  | plain conjunction =>
    obtain ⟨token, rest, rfl, starts⟩ := conjunction.head
    have bare : token ≠ .left ∧ token ≠ .right := by
      constructor <;> rintro rfl <;> exact nomatch starts
    simp [alternative, bare]
  | left conjunction => simp [alternative]
  | right conjunction => simp [alternative]

end Selector

namespace Compile

open Selector (tokens WrittenIn DerivesAlternative)

variable (library : Library) {injection : Injection}

theorem of_mem_injectionsOf {selector : String} {rule : RuleId}
    (member : injection ∈ injectionsOf selector rule) : ∃ parsed,
      Selector.parse selector = .ok parsed ∧ injection.alternative ∈ parsed.alternatives := by
  unfold injectionsOf at member
  split at member
  · rename_i parsed read
    obtain ⟨alternative, listed, rfl⟩ := List.mem_map.mp member
    exact ⟨parsed, read, listed⟩
  · exact absurd member List.not_mem_nil

theorem of_mem_ownInjections (injections : List (String × RuleDecl)) (draft : Draft)
    (member : injection ∈ ((ownInjections library injections).run draft).1) :
    ∃ selector ∈ injections.map (·.1), ∃ rule, injection ∈ injectionsOf selector rule := by
  induction injections generalizing draft with
  | nil => exact absurd member List.not_mem_nil
  | cons declared rest ih =>
    obtain ⟨selector, decl⟩ := declared
    rcases List.mem_append.mp member with here | later
    · split at here
      · exact ⟨selector, List.mem_cons_self, _, here⟩
      · exact absurd here List.not_mem_nil
    · obtain ⟨other, listed, found⟩ := ih _ later
      exact ⟨other, List.mem_cons_of_mem _ listed, found⟩

theorem of_mem_foreignInjections (scopes : List String) (draft : Draft)
    (member : injection ∈ ((foreignInjections library scopes).run draft).1) :
    ∃ selector ∈ scopes.filterMap library.foreignSelector?,
      ∃ rule, injection ∈ injectionsOf selector rule := by
  induction scopes generalizing draft with
  | nil => exact absurd member List.not_mem_nil
  | cons scope rest ih =>
    have onward (next : Draft) (later : injection ∈ ((foreignInjections library rest).run next).1) :
        ∃ selector ∈ (scope :: rest).filterMap library.foreignSelector?,
          ∃ rule, injection ∈ injectionsOf selector rule := by
      obtain ⟨selector, listed, found⟩ := ih next later
      exact ⟨selector, ((List.sublist_cons_self scope rest).filterMap _).subset listed, found⟩
    unfold foreignInjections at member
    cases known : library.grammar? scope with
    | none =>
      simp only [known] at member
      exact onward draft member
    | some decl =>
      cases chosen : decl.injectionSelector with
      | none =>
        simp only [known, chosen] at member
        exact onward draft member
      | some selector =>
        simp only [known, chosen] at member
        rcases List.mem_append.mp member with here | later
        · exact ⟨selector, by simp [Library.foreignSelector?, known, chosen], _, here⟩
        · exact onward _ later

theorem mem_byPriority {injections : List Injection} (member : injection ∈ byPriority injections) :
    injection ∈ injections := by
  simp only [byPriority, List.mem_append, List.mem_filter] at member
  tauto

end Compile

theorem RuleGraph.compile_written (library : Library) {injection : Injection}
    (member : injection ∈ (compile library).injections) :
    ∃ selector ∈ library.injectionSelectors, ∃ whole, Selector.tokens selector = .ok whole ∧
      ∃ used, Selector.WrittenIn used whole ∧
        Selector.DerivesAlternative used injection.alternative := by
  obtain ⟨selector, listed, rule, found⟩ : ∃ selector ∈ library.injectionSelectors, ∃ rule,
      injection ∈ Compile.injectionsOf selector rule := by
    rcases List.mem_append.mp (Compile.mem_byPriority member) with own | foreign
    · obtain ⟨selector, listed, found⟩ := Compile.of_mem_ownInjections library _ _ own
      exact ⟨selector, List.mem_append_left _ listed, found⟩
    · obtain ⟨selector, listed, found⟩ := Compile.of_mem_foreignInjections library _ _ foreign
      exact ⟨selector, List.mem_append_right _ listed, found⟩
  obtain ⟨parsed, read, inside⟩ := Compile.of_mem_injectionsOf found
  obtain ⟨-, whole, spelled, derives⟩ := Selector.parse_eq_ok_iff.mp read
  exact ⟨selector, listed, whole, spelled, derives.written inside⟩

end Highlighter
