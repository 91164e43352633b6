import Highlighter.Line.Session
import Highlighter.Proofs.Line.Unison

set_option autoImplicit false

namespace Highlighter

namespace Session

variable {grammar : Grammar} {shelf : List Theme}

theorem perform_inForce (depth : Nat) (session : Session grammar shelf) (call : Call shelf) :
    (session.perform depth call).2.inForce =
      match call with
      | .use theme => theme
      | _ => session.inForce := by
  cases call <;> rfl

theorem perform_alike (depth : Nat) (one other : Session grammar shelf)
    (same : one.inForce = other.inForce) (call : Call shelf) :
    (one.perform depth call).1 = (other.perform depth call).1 ∧
      (one.perform depth call).2.inForce = (other.perform depth call).2.inForce := by
  refine ⟨?_, by rw [perform_inForce, perform_inForce, same]⟩
  cases call with
  | read line prior checks isPacked =>
    obtain ⟨patterns, traits, styles, theme⟩ := one
    obtain ⟨otherPatterns, otherTraits, otherStyles, _⟩ := other
    obtain rfl : theme = _ := same
    exact congrArg Answer.line (Grammar.tokenize_unison depth line prior checks isPacked _ _)
  | style theme path =>
    change Answer.style ((one.styles theme).get path).1 = .style ((other.styles theme).get path).1
    rw [Memo.get_value, Memo.get_value]
  | use theme => rfl

theorem play_alike (depth : Nat) (one other : Session grammar shelf)
    (same : one.inForce = other.inForce) (calls : List (Call shelf)) :
    (one.play depth calls).1 = (other.play depth calls).1 := by
  induction calls generalizing one other with
  | nil => rfl
  | cons call rest ih =>
    obtain ⟨answer, after⟩ := perform_alike depth one other same call
    exact congrArg₂ List.cons answer (ih _ _ after)

/-- Whatever has been asked before, a line gives what it gives with nothing cached. Of the resolved
patterns no more than 256 are kept, and whichever they are, none at all or one alone, all later
answers are the same. -/
theorem caches_transparent (grammar : Grammar) (shelf : List Theme) (depth : Nat)
    (history : List (Call shelf)) :
    let session := ((fresh grammar shelf).play depth history).2
    (∀ line prior isPacked,
      (session.read depth line prior none isPacked).1 =
        (session.forget.read depth line prior none isPacked).1) ∧
    session.patterns.entries.length ≤ 256 ∧
    ∀ (kept : PatternCache) (later : List (Call shelf)),
      (Session.play depth { session with patterns := kept } later).1 =
        (session.play depth later).1 := by
  intro session
  refine ⟨fun line prior isPacked => ?_, session.patterns.bounded, fun kept later => ?_⟩
  · have alike := perform_alike depth session session.forget rfl (.read line prior none isPacked)
    exact Answer.line.inj alike.1
  · exact play_alike depth { session with patterns := kept } session rfl later

end Session

end Highlighter
