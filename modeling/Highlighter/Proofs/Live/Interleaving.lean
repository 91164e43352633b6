import Highlighter.Proofs.Live.Convergence

set_option autoImplicit false

namespace Highlighter

open Live

def Live.Request.regrammar : Request → Grammar → Grammar
  | .edited _, current | .line _, current => current
  | .theme next, current => current.withTheme next
  | .grammar next, _ => next

def Live.Phase.pass? : Phase → Option (Nat × Nat)
  | .waiting | .choosing => none
  | .checking start line | .asking start line _ | .storing start line _ _ => some (start, line)

namespace LiveDocument

/-- What callers do. A document is changed and the worker told of it at once. -/
inductive Operation where
  | edit (document : Document) (edit : Edit)
  | line (line : Nat)
  | theme (theme : Option Theme)
  | grammar (grammar : Grammar)

namespace Operation

def request : Operation → Request
  | .edit _ change => .edited change
  | .line place => .line place
  | .theme next => .theme next
  | .grammar next => .grammar next

def document : Operation → Document → Document
  | .edit next _, _ => next
  | _, current => current

end Operation

def operate (live : LiveDocument) : Operation → LiveDocument
  | .edit document edit => { live with document }.tellEdit edit
  | .line line => live.invalidate line
  | .theme theme => live.withTheme theme
  | .grammar grammar => live.withGrammar grammar

/-- A step of the worker, which does nothing while it waits, or an operation of a caller. -/
inductive Move where
  | work
  | operate (operation : Operation)

def Move.request? : Move → Option Request
  | .work => none
  | .operate operation => some operation.request

def move (live : LiveDocument) : Move → LiveDocument
  | .work => live.step?.getD live
  | .operate operation => live.operate operation

def play (live : LiveDocument) (moves : List Move) : LiveDocument := moves.foldl move live

theorem play_append (live : LiveDocument) (moves others : List Move) :
    live.play (moves ++ others) = (live.play moves).play others :=
  List.foldl_append

theorem play_concat (live : LiveDocument) (moves : List Move) (move : Move) :
    live.play (moves ++ [move]) = (live.play moves).move move :=
  live.play_append moves [move]

theorem operate_eq (live : LiveDocument) (operation : Operation) :
    live.operate operation =
      { live with
        document := operation.document live.document
        grammar := operation.request.regrammar live.grammar
        slots := live.slots.pendFrom operation.request.first
        activity := .working
        mail := live.mail.send operation.request } := by
  cases operation <;> rfl

theorem queue_operate (live : LiveDocument) (operation : Operation) :
    (live.operate operation).queue = live.queue ++ [operation.request] := by
  rw [operate_eq]
  exact live.mail.requests_send operation.request

def pass? (live : LiveDocument) : Option (Nat × Nat) := live.phase.pass?

def taken? (live : LiveDocument) : Option Request :=
  match live.phase with
  | .waiting => live.queue.head?
  | .choosing => if (live.slots.firstStale? 0).isSome then live.queue.head? else none
  | _ => none

-- The line that the worker stores next. Nothing is stored while there are requests.
def stores? (live : LiveDocument) : Option Nat :=
  match live.phase, live.queue with
  | .storing _ line _ _, [] => some line
  | _, _ => none

inductive Works (live : LiveDocument) : LiveDocument → Prop
  | idle (phase : live.phase = .waiting) (empty : live.queue = []) : Works live live
  | take {request : Request} {rest : Mailbox} (turn : live.taken? = some request)
    (taken : live.mail.take? = some (request, rest)) (between : live.pass? = none) :
    Works live (live.take request rest)
  | defer (phase : live.phase = .choosing) (fresh : live.slots.firstStale? 0 = none) :
    Works live { live with phase := .waiting }
  | finish (phase : live.phase = .choosing) (empty : live.queue = []) : Works live live.finish
  | begin {start : Nat} (phase : live.phase = .choosing) (empty : live.queue = [])
    (inside : start < live.slots.length) :
    Works live { live.report .working with phase := .checking start start }
  | check {start line : Nat} (phase : live.phase = .checking start line) (empty : live.queue = []) :
    Works live { live with phase := .asking start line (live.slots.prior? line) }
  | ask {start line : Nat} {prior : Option Stack} {text : String}
    (phase : live.phase = .asking start line prior)
    (written : live.document.line? line = some text) :
    Works live
      { live with
        reader := (readLine live.reader live.limits text prior).2.2.1
        readings := live.readings + 1
        phase := .storing start line (readLine live.reader live.limits text prior).1
          (readLine live.reader live.limits text prior).2.1
        lost := live.lost || (readLine live.reader live.limits text prior).2.2.2 }
  | cut {start line : Nat} {prior : Option Stack} (phase : live.phase = .asking start line prior)
    (empty : live.queue = []) (missing : live.document.line? line = none) :
    Works live ({ live with slots := live.slots.truncate line }.leave start line)
  | leave {start line : Nat} (within : live.pass? = some (start, line))
    (reason : live.queue ≠ [] ∨ live.slots.length ≤ line) : Works live (live.leave start line)
  | last {start line : Nat} {tokens : List Token} {stack : Stack} (pending : Nat)
    (phase : live.phase = .storing start line tokens stack) (empty : live.queue = []) :
    Works live
      ({ live with
        slots := ⟨(live.slots.store line tokens stack).entries, pending⟩ }.leave start (line + 1))
  | next {start line : Nat} {tokens : List Token} {stack : Stack} (pending : Nat)
    (phase : live.phase = .storing start line tokens stack) (empty : live.queue = [])
    (inside : line + 1 < live.slots.length) :
    Works live
      { live with
        slots := ⟨(live.slots.store line tokens stack).entries, pending⟩
        phase := .checking start (line + 1) }

variable (live : LiveDocument)

theorem choose_works (phase : live.phase = .choosing) : live.Works live.choose := by
  unfold choose
  split
  · rename_i fresh
    by_cases empty : live.queue = []
    · exact .finish phase empty
    · have busy : live.finish = { live with phase := .waiting } := by
        simp [finish, unsettled_of_busy empty]
      exact busy ▸ .defer phase fresh
  · rename_i start request rest found taken
    refine .take ?_ taken (congrArg Phase.pass? phase)
    simp [taken?, phase, found, queue, Mailbox.requests_of_take? taken]
  · rename_i start found none
    exact .begin phase (Mailbox.take?_eq_none_iff.mp none)
      (Slots.currentTo_firstStale? (fun line before => absurd before (Nat.not_lt_zero line))
        found).2

theorem ask_works (start line : Nat) (prior : Option Stack)
    (phase : live.phase = .asking start line prior) : live.Works (live.ask start line prior) := by
  unfold ask
  split
  · rename_i missing
    split
    · rename_i idle
      exact .cut phase (settled_iff.mp idle) missing
    · rename_i busy
      exact .leave (congrArg Phase.pass? phase) (.inl (mt settled_iff.mpr busy))
  · rename_i text written
    exact .ask phase written

theorem store_works (start line : Nat) (tokens : List Token) (stack : Stack)
    (phase : live.phase = .storing start line tokens stack) :
    live.Works (live.store start line tokens stack) := by
  unfold store
  split
  · rename_i superseded
    refine .leave (congrArg Phase.pass? phase) ?_
    rw [Bool.or_eq_true, Bool.not_eq_true', decide_eq_true_eq] at superseded
    exact superseded.imp_left fun busy empty =>
      Bool.false_ne_true (busy.symm.trans (settled_of_empty empty))
  · rename_i undisturbed
    simp only [Bool.or_eq_true, Bool.not_eq_true', decide_eq_true_eq, not_or] at undisturbed
    have empty : live.queue = [] := settled_iff.mp (by simpa using undisturbed.1)
    dsimp only
    split
    · exact .last _ phase empty
    · rename_i goesOn
      refine .next (line + 1) phase empty ?_
      simp only [Bool.or_eq_true, decide_eq_true_eq, not_or, Nat.not_le] at goesOn
      simpa [Slots.store, Slots.length] using goesOn.2

theorem work_works : live.Works (live.move .work) := by
  unfold move step?
  cases phase : live.phase with
  | waiting =>
    cases taken : live.mail.take? with
    | none => exact .idle phase (Mailbox.take?_eq_none_iff.mp taken)
    | some first =>
      refine .take ?_ taken (congrArg Phase.pass? phase)
      simp [taken?, phase, queue, Mailbox.requests_of_take? taken]
  | choosing => exact live.choose_works phase
  | checking start line =>
    dsimp only [Option.getD_some]
    unfold check
    split
    · rename_i idle
      exact .check phase (Mailbox.isEmpty_messages_iff.mp idle)
    · rename_i busy
      exact .leave (congrArg Phase.pass? phase) (.inl (mt Mailbox.isEmpty_messages_iff.mpr busy))
  | asking start line prior => exact live.ask_works start line prior phase
  | storing start line tokens stack => exact live.store_works start line tokens stack phase

def requests (moves : List Move) : List Request := moves.filterMap Move.request?

def applied (live : LiveDocument) : List Move → List Request
  | [] => []
  | .work :: rest => live.taken?.toList ++ applied (live.move .work) rest
  | .operate operation :: rest => applied (live.operate operation) rest

theorem taken?_of_pass {place : Nat × Nat} (within : live.pass? = some place) :
    live.taken? = none := by
  unfold pass? at within
  unfold taken?
  split <;> simp_all [Phase.pass?]

theorem taken?_of_empty (empty : live.queue = []) : live.taken? = none := by
  unfold taken?
  split <;> simp [empty]

theorem stores?_eq_some {line : Nat} :
    live.stores? = some line ↔
      live.queue = [] ∧ ∃ start tokens stack, live.phase = .storing start line tokens stack := by
  unfold stores?
  split
  · rename_i storing empty
    simp [storing, empty]
  · rename_i elsewhere
    refine ⟨nofun, ?_⟩
    rintro ⟨empty, start, tokens, stack, storing⟩
    exact (elsewhere _ _ _ _ storing empty).elim

theorem stores?_of_phase
    (elsewhere : ∀ start line tokens stack, live.phase ≠ .storing start line tokens stack) :
    live.stores? = none := by
  refine Option.eq_none_iff_forall_ne_some.mpr fun line stores => ?_
  obtain ⟨-, start, tokens, stack, storing⟩ := live.stores?_eq_some.mp stores
  exact elsewhere start line tokens stack storing

theorem stores?_of_busy (busy : live.queue ≠ []) : live.stores? = none :=
  Option.eq_none_iff_forall_ne_some.mpr fun _ stores => busy (live.stores?_eq_some.mp stores).1

theorem unheard_finish (empty : live.queue = []) :
    live.finish.unheard =
      { live.unheard with
        phase := .waiting
        slots := { live.slots with firstPending := live.slots.length }
        activity := .done } := by
  unfold finish
  rw [if_pos (settled_of_empty empty)]
  exact unheard_conclude _

theorem queue_work : live.queue = live.taken?.toList ++ (live.move .work).queue := by
  have works := live.work_works
  generalize live.move .work = next at works ⊢
  cases works with
  | idle phase empty => rw [live.taken?_of_empty empty]; rfl
  | take turn taken between =>
    rw [turn]
    exact Mailbox.requests_of_take? taken
  | defer phase fresh =>
    have none : live.taken? = none := by simp [taken?, phase, fresh]
    rw [none]; rfl
  | finish phase empty =>
    rw [live.taken?_of_empty empty]
    exact congrArg (·.queue) (live.unheard_finish empty).symm
  | begin phase empty inside =>
    rw [live.taken?_of_empty empty]
    exact congrArg (·.queue) (live.unheard_report .working).symm
  | check phase empty => rw [live.taken?_of_empty empty]; rfl
  | ask phase written => rw [live.taken?_of_pass (congrArg Phase.pass? phase)]; rfl
  | cut phase empty missing => rw [live.taken?_of_empty empty]; rfl
  | leave within reason => rw [live.taken?_of_pass within]; rfl
  | last pending phase empty => rw [live.taken?_of_empty empty]; rfl
  | next pending phase empty inside => rw [live.taken?_of_empty empty]; rfl

theorem queue_play (moves : List Move) :
    live.queue ++ requests moves = live.applied moves ++ (live.play moves).queue := by
  induction moves generalizing live with
  | nil => exact List.append_nil _
  | cons move rest ih =>
    cases move with
    | work =>
      rw [live.queue_work, List.append_assoc]
      exact (congrArg (live.taken?.toList ++ ·) (ih (live.move .work))).trans
        (List.append_assoc _ _ _).symm
    | operate operation =>
      have later := ih (live.operate operation)
      rw [queue_operate, List.append_assoc] at later
      exact later

theorem seq_work : (live.move .work).mail.seq = live.mail.seq := by
  have works := live.work_works
  generalize live.move .work = next at works ⊢
  cases works with
  | take turn taken between => exact Mailbox.seq_of_take? taken
  | finish phase empty => exact congrArg (·.mail.seq) (live.unheard_finish empty)
  | begin phase empty inside => exact congrArg (·.mail.seq) (live.unheard_report .working)
  | _ => rfl

theorem seq_play (moves : List Move) :
    (live.play moves).mail.seq = live.mail.seq + (requests moves).length ∧
      (live.play moves).mail.appliedSeq = live.mail.appliedSeq + (live.applied moves).length := by
  have sent : (live.play moves).mail.seq = live.mail.seq + (requests moves).length := by
    induction moves generalizing live with
    | nil => rfl
    | cons move rest ih =>
      cases move with
      | work => exact (ih (live.move .work)).trans (congrArg (· + _) live.seq_work)
      | operate operation =>
        have told : (live.operate operation).mail.seq = live.mail.seq + 1 :=
          congrArg (·.mail.seq) (live.operate_eq operation)
        refine (ih (live.operate operation)).trans ?_
        rw [told, Nat.add_assoc, Nat.add_comm 1]
        rfl
  have kept := congrArg List.length (live.queue_play moves)
  rw [List.length_append, List.length_append] at kept
  have before : live.mail.seq = live.mail.appliedSeq + live.queue.length := live.mail.seq_eq
  have after := (live.play moves).mail.seq_eq
  refine ⟨sent, ?_⟩
  change _ = (live.play moves).mail.appliedSeq + (live.play moves).queue.length at after
  omega

end LiveDocument

end Highlighter
