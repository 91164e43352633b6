import Highlighter.Line.Tokenization
import Highlighter.Proofs.Grammar.Scopes

set_option autoImplicit false

namespace Highlighter.Job

variable {grammar : Grammar} {α β γ δ : Type}

theorem run_bind (job : Job grammar α) (next : α → Job grammar β) (work : Work grammar) :
    (job >>= next).run work = (next (job.run work).1).run (job.run work).2 := rfl

theorem run_emit (scopes : ScopePath) (stop : Nat) (work : Work grammar) :
    ((emit scopes stop).run work).2 =
      if stop ≤ work.lastStop then work
      else
        { work with
          emitted := work.emitted.add work.lastStop stop scopes (grammar.tokenMetadata scopes)
          lastStop := stop } := rfl

theorem tooDeep_emit (scopes : ScopePath) (stop : Nat) (work : Work grammar) :
    ((emit scopes stop).run work).2.tooDeep = work.tooDeep := by
  rw [run_emit]
  split <;> rfl

theorem run_cached (action : StateM (Caches grammar) α) (work : Work grammar) :
    (cached action).run work =
      ((action.run work.caches).1, { work with caches := (action.run work.caches).2 }) := rfl

theorem read_succ (retokenize : Retokenize grammar) (text : List Char) (size : Nat)
    (checks : Option Nat) (fuel : Nat) (progress : Progress) (time : checks ≠ some 0) :
    read retokenize text size checks (fuel + 1) progress = (do
      match ← advance retokenize text size progress with
      | .done stack => return (stack, false)
      | .more next => read retokenize text size (checks.map (· - 1)) fuel next) := by
  cases checks with
  | none => rfl
  | some left =>
    cases left with
    | zero => exact absurd rfl time
    | succ left => rfl

def Ensures (before : Work grammar → Prop) (job : Job grammar α)
    (after : α → Work grammar → Prop) : Prop :=
  ∀ work, before work → after (job.run work).1 (job.run work).2

namespace Ensures

variable {before : Work grammar → Prop} {after : β → Work grammar → Prop}

theorem pure (value : β) (holds : ∀ work, before work → after value work) :
    Ensures before (Pure.pure value : Job grammar β) after := holds

theorem bind {job : Job grammar α} {next : α → Job grammar β}
    {between : α → Work grammar → Prop} (first : Ensures before job between)
    (rest : ∀ value, Ensures (between value) (next value) after) :
    Ensures before (job >>= next) after :=
  fun work holds => rest _ _ (first work holds)

theorem given {fact : Prop} {job : Job grammar β}
    (ensures : fact → Ensures (fun _ => True) job after) : Ensures (fun _ => fact) job after :=
  fun work holds => ensures holds work trivial

theorem skip {job : Job grammar α} {next : α → Job grammar β}
    (rest : ∀ value, Ensures (fun _ => True) (next value) after) :
    Ensures (fun _ => True) (job >>= next) after :=
  fun _ _ => rest _ _ trivial

end Ensures

def Yields (job : Job grammar α) (after : α → Prop) : Prop :=
  ∀ work, after (job.run work).1

namespace Yields

variable {after : β → Prop}

theorem pure (value : β) (holds : after value) : Yields (Pure.pure value : Job grammar β) after :=
  fun _ => holds

theorem bind {job : Job grammar α} {next : α → Job grammar β} {between : α → Prop}
    (first : Yields job between) (rest : ∀ value, between value → Yields (next value) after) :
    Yields (job >>= next) after :=
  fun work => rest _ (first work) _

theorem skip {job : Job grammar α} {next : α → Job grammar β}
    (rest : ∀ value, Yields (next value) after) : Yields (job >>= next) after :=
  fun _ => rest _ _

end Yields

theorem pushName_yields (path : ScopePath) (name : Option String) :
    Yields (cached (Grammar.pushName path name) : Job grammar ScopePath)
      (· = grammar.pathAfter path name) :=
  fun work => Grammar.pushName_value path name work.caches

theorem resolved_yields (source : String) :
    Yields (cached (Grammar.resolved source) : Job grammar (Option Pattern))
      (· = Pattern.ofSource? source) :=
  fun work => Grammar.resolved_value source work.caches

def Relates (alike : Work grammar → Work grammar → Prop) (a : Job grammar α) (b : Job grammar β)
    (after : α → β → Prop) : Prop :=
  ∀ first second, alike first second →
    after (a.run first).1 (b.run second).1 ∧ alike (a.run first).2 (b.run second).2

namespace Relates

variable {alike : Work grammar → Work grammar → Prop}

theorem pure (a : α) (b : β) (after : α → β → Prop) (holds : after a b) :
    Relates alike (Pure.pure a : Job grammar α) (Pure.pure b) after :=
  fun _ _ same => ⟨holds, same⟩

theorem bind {a : Job grammar α} {b : Job grammar β} {nextA : α → Job grammar γ}
    {nextB : β → Job grammar δ} {between : α → β → Prop} {after : γ → δ → Prop}
    (first : Relates alike a b between)
    (rest : ∀ x y, between x y → Relates alike (nextA x) (nextB y) after) :
    Relates alike (a >>= nextA) (b >>= nextB) after := by
  intro one other same
  obtain ⟨values, works⟩ := first one other same
  exact rest _ _ values _ _ works

theorem mono {a : Job grammar α} {b : Job grammar β} {after weaker : α → β → Prop}
    (relates : Relates alike a b after) (implies : ∀ x y, after x y → weaker x y) :
    Relates alike a b weaker :=
  fun one other same => ⟨implies _ _ (relates one other same).1, (relates one other same).2⟩

end Relates

end Highlighter.Job
