import Highlighter.Proofs.Line.Unison
import Highlighter.Proofs.Live.Interleaving

set_option autoImplicit false

namespace Highlighter

open Live

namespace Live.Slots

variable {slots : Slots} {slot : Slot}

theorem mem_markStale {entries : List Slot} {place : Nat}
    (member : slot ∈ entries.modify place markStale) :
    slot ∈ entries ∨ ∃ old ∈ entries, slot = markStale old := by
  obtain ⟨line, here⟩ := List.mem_iff_getElem?.mp member
  rw [List.getElem?_modify] at here
  obtain ⟨old, known, same⟩ := Option.map_eq_some_iff.mp here
  by_cases marked : place = line
  · rw [if_pos marked] at same
    exact .inr ⟨old, List.mem_of_getElem? known, same.symm⟩
  · rw [if_neg marked] at same
    exact .inl (same ▸ List.mem_of_getElem? known)

theorem mem_splice (edit : Edit) (member : slot ∈ (slots.splice edit).entries) :
    slot ∈ slots.entries ∨ (∃ old ∈ slots.entries, slot = markStale old) ∨
      slot = Slot.unread none ∨ slot = Slot.unread (slots.carried? edit) := by
  have inserts (member : slot ∈ inserted edit.added (slots.carried? edit)) :
      slot = Slot.unread none ∨ slot = Slot.unread (slots.carried? edit) := by
    obtain ⟨line, here⟩ := List.mem_iff_getElem?.mp member
    have inside := (List.getElem?_eq_some_iff.mp here).1
    rw [length_inserted] at inside
    rw [getElem?_inserted _ _ _ inside] at here
    split at here
    · exact .inr (Option.some.inj here).symm
    · exact .inl (Option.some.inj here).symm
  by_cases nothing : edit.added = 0
  · have kept : ∀ old ∈ edit.splice (inserted edit.added (slots.carried? edit)) slots.entries,
        old ∈ slots.entries := by
      intro old here
      rw [nothing, inserted, Edit.splice, List.append_nil] at here
      exact (List.mem_append.mp here).elim List.mem_of_mem_take List.mem_of_mem_drop
    simp only [splice, if_pos nothing] at member
    rcases mem_markStale member with same | ⟨old, here, marked⟩
    · exact .inl (kept slot same)
    · exact .inr (.inl ⟨old, kept old here, marked⟩)
  · simp only [splice, if_neg nothing] at member
    rcases List.mem_append.mp member with front | behind
    · rcases List.mem_append.mp front with before | new
      · exact .inl (List.mem_of_mem_take before)
      · exact .inr (.inr (inserts new))
    · exact .inl (List.mem_of_mem_drop behind)

theorem mem_of_splice (edit : Edit) (member : slot ∈ (slots.splice edit).entries)
    (fresh : slot.isStale = false) : slot ∈ slots.entries := by
  rcases mem_splice edit member with old | ⟨old, -, rfl⟩ | rfl | rfl
  · exact old
  · exact nomatch fresh
  · exact nomatch fresh
  · exact nomatch fresh

end Live.Slots

namespace LiveDocument

theorem readLine_unison (reader : LineReader) (limits : Limits) (text : String)
    (prior : Option Stack) :
    let fresh := LineReader.ofGrammar reader.grammar
    (readLine reader limits text prior).1 = (readLine fresh limits text prior).1 ∧
      (readLine reader limits text prior).2.1 = (readLine fresh limits text prior).2.1 := by
  obtain ⟨grammar, caches⟩ := reader
  unfold readLine
  split
  · cases prior with
    | some stack => exact ⟨rfl, rfl⟩
    | none =>
      have first := LineReader.initialStack_seen grammar caches (Caches.empty grammar)
      exact ⟨by simp only [LineReader.skip, LineReader.ofGrammar, first], first⟩
  · have same := Grammar.tokenize_unison limits.depth text prior limits.checks false caches
      (Caches.empty grammar)
    exact ⟨congrArg (·.emitted.tokens) same, congrArg (·.stack) same⟩

variable {live : LiveDocument}

theorem apply_grammar (live : LiveDocument) (request : Request) :
    (live.apply request).reader.grammar = request.regrammar live.reader.grammar := by
  cases request <;> rfl

/-- What holds whenever anyone does something. The worker will come to read with the grammar that
callers have set, and lines are pending that a request has to do with. -/
structure Orderly (live : LiveDocument) : Prop where
  ahead : ∀ request ∈ live.queue, live.slots.firstPending ≤ request.first
  grammar : live.queue.foldl (fun current request => request.regrammar current)
    live.reader.grammar = live.grammar
  inside : ∀ start line, live.pass? = some (start, line) → start ≤ line ∧ line < live.slots.length

namespace Orderly

theorem of_unheard {next : LiveDocument} (orderly : live.Orderly)
    (same : next.unheard = live.unheard) : next.Orderly := by
  have unheard : live.unheard.Orderly := ⟨orderly.ahead, orderly.grammar, orderly.inside⟩
  rw [← same] at unheard
  exact ⟨unheard.ahead, unheard.grammar, unheard.inside⟩

theorem ofDocument (machine : Machine) (document : Document) (grammar : Grammar)
    (config : Config) : (LiveDocument.ofDocument machine document grammar config).Orderly :=
  ⟨fun _ => nofun, rfl, fun _ _ => nofun⟩

theorem operate (orderly : live.Orderly) (operation : Operation) :
    (live.operate operation).Orderly := by
  have queue := live.queue_operate operation
  have same := live.operate_eq operation
  refine ⟨fun request member => ?_, ?_, fun start line within => ?_⟩
  · rw [queue] at member
    rw [same]
    rcases List.mem_append.mp member with old | new
    · exact (Nat.min_le_left _ _).trans (orderly.ahead request old)
    · obtain rfl := List.mem_singleton.mp new
      exact Nat.min_le_right _ _
  · rw [queue, List.foldl_append, same]
    exact congrArg operation.request.regrammar orderly.grammar
  · rw [same] at within ⊢
    exact orderly.inside start line within

theorem take (orderly : live.Orderly) (request : Request) (rest : Mailbox)
    (taken : live.mail.take? = some (request, rest)) : (live.take request rest).Orderly := by
  have queued : live.queue = request :: rest.requests := Mailbox.requests_of_take? taken
  obtain ⟨ahead, grammar, _⟩ := orderly
  rw [queued] at ahead grammar
  refine ⟨fun other member => ?_, ?_, fun _ _ => nofun⟩
  · exact (live.apply_firstPending_le request).trans (ahead other (List.mem_cons_of_mem _ member))
  · have same : (live.take request rest).grammar = live.grammar := (live.apply_same request).2.1
    rw [same, ← grammar, List.foldl_cons, ← apply_grammar]
    rfl

theorem finish (orderly : live.Orderly) (empty : live.queue = []) : live.finish.Orderly := by
  have settled : Orderly { live with
      phase := .waiting
      slots := { live.slots with firstPending := live.slots.length }
      activity := .done } :=
    ⟨fun _ member => absurd (empty ▸ member) List.not_mem_nil, orderly.grammar, fun _ _ => nofun⟩
  exact settled.of_unheard (live.unheard_finish empty)

theorem work (orderly : live.Orderly) : (live.move .work).Orderly := by
  have onward (place : Nat × Nat) (within : live.pass? = some place) (start line : Nat)
      (same : some place = some (start, line)) : start ≤ line ∧ line < live.slots.length :=
    orderly.inside start line (within.trans same)
  have works := live.work_works
  generalize live.move .work = next at works ⊢
  cases works with
  | idle phase empty => exact orderly
  | take turn taken between => exact orderly.take _ _ taken
  | defer phase fresh => exact ⟨orderly.ahead, orderly.grammar, fun _ _ => nofun⟩
  | finish phase empty => exact orderly.finish empty
  | @begin start phase empty inside =>
    have checking : Orderly { live with phase := .checking start start } := by
      refine ⟨orderly.ahead, orderly.grammar, fun _ _ place => ?_⟩
      obtain ⟨rfl, rfl⟩ := Prod.mk.inj (Option.some.inj place)
      exact ⟨le_rfl, inside⟩
    exact checking.of_unheard (congrArg (fun live => { live with phase := .checking start start })
      (live.unheard_report .working))
  | check phase empty =>
    exact ⟨orderly.ahead, orderly.grammar, onward _ (congrArg Phase.pass? phase)⟩
  | ask phase written =>
    refine ⟨orderly.ahead, ?_, onward _ (congrArg Phase.pass? phase)⟩
    simp only [readLine_grammar]
    exact orderly.grammar
  | cut phase empty missing => exact ⟨orderly.ahead, orderly.grammar, fun _ _ => nofun⟩
  | leave within reason => exact ⟨orderly.ahead, orderly.grammar, fun _ _ => nofun⟩
  | last pending phase empty =>
    exact ⟨fun _ member => absurd (empty ▸ member) List.not_mem_nil, orderly.grammar,
      fun _ _ => nofun⟩
  | next pending phase empty inside =>
    refine ⟨fun _ member => absurd (empty ▸ member) List.not_mem_nil, orderly.grammar,
      fun _ _ place => ?_⟩
    obtain ⟨rfl, rfl⟩ := Prod.mk.inj (Option.some.inj place)
    have before := (onward _ (congrArg Phase.pass? phase) _ _ rfl).1
    exact ⟨before.trans (Nat.le_succ _), inside.trans_eq List.length_set.symm⟩

theorem play (orderly : live.Orderly) (moves : List Move) : (live.play moves).Orderly := by
  induction moves generalizing live with
  | nil => exact orderly
  | cons move rest ih =>
    cases move with
    | work => exact ih orderly.work
    | operate operation => exact ih (orderly.operate operation)

theorem pending (orderly : live.Orderly) (request : Request) (queued : request ∈ live.queue)
    (line : Nat) (behind : request.first ≤ line) :
    live.tokens? line = none ∧ live.stack? line = none := by
  have late : ¬ line < live.slots.firstPending :=
    Nat.not_lt.mpr ((orderly.ahead request queued).trans behind)
  simp [tokens?, stack?, Slots.tokens?, Slots.stack?, Slots.current?, late]

end Orderly

theorem play_operations (live : LiveDocument) (operations : List Operation) :
    (live.play (operations.map .operate)).phase = live.phase ∧
      (live.play (operations.map .operate)).queue =
        live.queue ++ operations.map Operation.request := by
  induction operations generalizing live with
  | nil => exact ⟨rfl, (List.append_nil _).symm⟩
  | cons operation rest ih =>
    obtain ⟨phase, queue⟩ := ih (live.operate operation)
    have same := live.operate_eq operation
    refine ⟨phase.trans (congrArg (·.phase) same), queue.trans ?_⟩
    rw [queue_operate, List.append_assoc]
    rfl

theorem last_work (moves : List Move) :
    (∃ operations : List Operation, moves = operations.map .operate) ∨
      ∃ (earlier : List Move) (operations : List Operation),
        moves = earlier ++ .work :: operations.map .operate := by
  induction moves using List.reverseRecOn with
  | nil => exact .inl ⟨[], rfl⟩
  | append_singleton moves move ih =>
    cases move with
    | work => exact .inr ⟨moves, [], rfl⟩
    | operate operation =>
      rcases ih with ⟨operations, rfl⟩ | ⟨earlier, operations, rfl⟩
      · exact .inl ⟨operations ++ [operation], by simp⟩
      · exact .inr ⟨earlier, operations ++ [operation], by simp⟩

theorem checked_of_asking {start line : Nat} {prior : Option Stack}
    (asking : (live.move .work).phase = .asking start line prior) :
    live.phase = .checking start line ∧ live.queue = [] ∧ prior = live.slots.prior? line ∧
      live.move .work = { live with phase := .asking start line prior } := by
  have works := live.work_works
  generalize live.move .work = next at works asking ⊢
  cases works with
  | idle phase _ => exact nomatch phase.symm.trans asking
  | finish _ empty =>
    exact nomatch (congrArg (·.phase) (live.unheard_finish empty)).symm.trans asking
  | check phase empty =>
    obtain ⟨rfl, rfl, rfl⟩ := Phase.asking.inj asking
    exact ⟨phase, empty, rfl, rfl⟩
  | _ => exact nomatch asking

theorem asked_of_storing {start line : Nat} {tokens : List Token} {stack : Stack}
    (storing : (live.move .work).phase = .storing start line tokens stack) :
    ∃ prior text, live.phase = .asking start line prior ∧ live.document.line? line = some text ∧
      tokens = (readLine live.reader live.limits text prior).1 ∧
      stack = (readLine live.reader live.limits text prior).2.1 ∧
      live.move .work =
        { live with
          reader := (readLine live.reader live.limits text prior).2.2.1
          readings := live.readings + 1
          phase := .storing start line tokens stack
          lost := live.lost || (readLine live.reader live.limits text prior).2.2.2 } := by
  have works := live.work_works
  generalize live.move .work = next at works storing ⊢
  cases works with
  | idle phase _ => exact nomatch phase.symm.trans storing
  | finish _ empty =>
    exact nomatch (congrArg (·.phase) (live.unheard_finish empty)).symm.trans storing
  | ask phase written =>
    obtain ⟨rfl, rfl, rfl, rfl⟩ := Phase.storing.inj storing
    exact ⟨_, _, phase, written, rfl, rfl, rfl⟩
  | _ => exact nomatch storing

theorem stored_of_storing {start line : Nat} {tokens : List Token} {stack : Stack}
    (storing : live.phase = .storing start line tokens stack) (inside : line < live.slots.length) :
    (live.move .work).slots.entries =
      if live.queue = [] then live.slots.entries.set line ⟨some stack, some tokens, false⟩
      else live.slots.entries := by
  have works := live.work_works
  generalize live.move .work = next at works ⊢
  have within : live.pass? = some (start, line) := congrArg Phase.pass? storing
  cases works with
  | take _ _ between => exact nomatch within.symm.trans between
  | leave place reason =>
    obtain ⟨rfl, rfl⟩ := Prod.mk.inj (Option.some.inj (place.symm.trans within))
    rw [if_neg (reason.resolve_right (Nat.not_le.mpr inside))]
    rfl
  | last _ phase empty =>
    obtain ⟨rfl, rfl, rfl, rfl⟩ := Phase.storing.inj (phase.symm.trans storing)
    exact (if_pos empty).symm
  | next _ phase empty _ =>
    obtain ⟨rfl, rfl, rfl, rfl⟩ := Phase.storing.inj (phase.symm.trans storing)
    exact (if_pos empty).symm
  | idle phase _ | defer phase _ | finish phase _ | begin phase _ _ | check phase _ | ask phase _
  | cut phase _ _ =>
    exact nomatch phase.symm.trans storing

theorem filled_of_stores? (orderly : live.Orderly) (line : Nat)
    (stores : live.stores? = some line) :
    ∃ stack tokens, (live.move .work).slots.entries =
      live.slots.entries.set line ⟨some stack, some tokens, false⟩ := by
  obtain ⟨empty, start, tokens, stack, storing⟩ := live.stores?_eq_some.mp stores
  have inside := (orderly.inside start line (congrArg Phase.pass? storing)).2
  exact ⟨stack, tokens, (stored_of_storing storing inside).trans (if_pos empty)⟩

theorem storing_of_new (line : Nat) (slot : Slot)
    (here : (live.move .work).slots.entries[line]? = some slot) (fresh : slot.isStale = false) :
    slot ∈ live.slots.entries ∨
      ∃ start tokens stack, live.phase = .storing start line tokens stack ∧
        slot = ⟨some stack, some tokens, false⟩ := by
  have works := live.work_works
  generalize live.move .work = next at works here
  have stored {place start : Nat} {tokens : List Token} {stack : Stack}
      (storing : live.phase = .storing start place tokens stack)
      (set : (live.slots.store place tokens stack).entries[line]? = some slot) :
      slot ∈ live.slots.entries ∨
        ∃ start tokens stack, live.phase = .storing start line tokens stack ∧
          slot = ⟨some stack, some tokens, false⟩ := by
    simp only [Slots.store, List.getElem?_set] at set
    split at set
    · rename_i same
      subst same
      split at set
      · exact .inr ⟨start, tokens, stack, storing, (Option.some.inj set).symm⟩
      · exact absurd set.symm (Option.some_ne_none slot)
    · exact .inl (List.mem_of_getElem? set)
  cases works with
  | @take request rest _ _ _ =>
    refine .inl ?_
    have member : slot ∈ (live.apply request).slots.entries := List.mem_of_getElem? here
    cases request with
    | edited edit => exact Slots.mem_of_splice edit member fresh
    | line place => exact List.mem_of_getElem? (Slots.current_of_markStale _ _ _ _ here fresh).2
    | theme _ | grammar _ =>
      rw [List.eq_of_mem_replicate member] at fresh
      exact absurd fresh (by decide)
  | finish _ empty =>
    have same : live.finish.slots.entries = live.slots.entries :=
      congrArg (·.slots.entries) (live.unheard_finish empty)
    exact .inl (same ▸ List.mem_of_getElem? here)
  | begin _ _ _ =>
    have same : (live.report .working).slots = live.slots :=
      congrArg (·.slots) (live.unheard_report .working)
    exact .inl (same ▸ List.mem_of_getElem? here)
  | cut _ _ _ => exact .inl (List.mem_of_mem_take (List.mem_of_getElem? here))
  | last _ phase _ => exact stored phase here
  | next _ phase _ _ => exact stored phase here
  | _ => exact .inl (List.mem_of_getElem? here)

theorem stores?_of_new (orderly : live.Orderly) (line : Nat) (slot : Slot)
    (here : (live.move .work).slots.entries[line]? = some slot) (fresh : slot.isStale = false) :
    slot ∈ live.slots.entries ∨ live.stores? = some line := by
  rcases storing_of_new line slot here fresh with old | ⟨start, tokens, stack, storing, -⟩
  · exact .inl old
  · by_cases empty : live.queue = []
    · exact .inr (live.stores?_eq_some.mpr ⟨empty, start, tokens, stack, storing⟩)
    · have inside := (orderly.inside start line (congrArg Phase.pass? storing)).2
      rw [stored_of_storing storing inside, if_neg empty] at here
      exact .inl (List.mem_of_getElem? here)

-- How the worker has come to store a line: it has looked at the stack before the line and then read
-- the text, and otherwise only callers have done something since.
theorem came_to_storing {origin : LiveDocument} (started : origin.phase = .choosing)
    {moves : List Move} {start line : Nat} {tokens : List Token} {stack : Stack}
    (storing : (origin.play moves).phase = .storing start line tokens stack) :
    ∃ (earlier : List Move) (between later : List Operation) (text : String),
      let looked := origin.play earlier
      let asked := origin.play (earlier ++ .work :: between.map .operate)
      let prior := looked.slots.prior? line
      let read := readLine asked.reader asked.limits text prior
      moves = earlier ++ .work :: between.map .operate ++ .work :: later.map .operate ∧
        (origin.play moves).queue = (between ++ later).map Operation.request ∧
        looked.phase = .checking start line ∧
        looked.move .work = { looked with phase := .asking start line prior } ∧
        asked.phase = .asking start line prior ∧ asked.document.line? line = some text ∧
        tokens = read.1 ∧ stack = read.2.1 ∧
        asked.move .work =
          { asked with
            reader := read.2.2.1
            readings := asked.readings + 1
            phase := .storing start line tokens stack
            lost := asked.lost || read.2.2.2 } := by
  have split (moves : List Move) (operations : List Operation) :
      origin.play (moves ++ .work :: operations.map .operate) =
        ((origin.play moves).move .work).play (operations.map .operate) :=
    origin.play_append moves _
  have idle (operations : List Operation) :
      (origin.play (operations.map .operate)).phase = .choosing :=
    (origin.play_operations operations).1.trans started
  obtain ⟨operations, rfl⟩ | ⟨before, later, rfl⟩ := last_work moves
  · exact nomatch (idle operations).symm.trans storing
  obtain ⟨phase, queue⟩ := ((origin.play before).move .work).play_operations later
  rw [← split] at phase queue
  obtain ⟨prior, text, asking, written, tokens, stack, read⟩ :=
    asked_of_storing (phase.symm.trans storing)
  obtain ⟨operations, rfl⟩ | ⟨earlier, between, rfl⟩ := last_work before
  · exact nomatch (idle operations).symm.trans asking
  obtain ⟨phase', queue'⟩ := ((origin.play earlier).move .work).play_operations between
  rw [← split] at phase' queue'
  obtain ⟨checking, empty, rfl, looked⟩ := checked_of_asking (phase'.symm.trans asking)
  refine ⟨earlier, between, later, text, rfl, ?_, checking, looked, asking, written, tokens, stack,
    read⟩
  have left : ((origin.play earlier).move .work).queue = [] :=
    (congrArg LiveDocument.queue looked).trans empty
  rw [left] at queue'
  rw [List.map_append]
  exact queue.trans (congrArg (· ++ _) ((congrArg LiveDocument.queue read).trans queue'))

/-- Whenever the worker is about to store a line, it stores it just if nobody has done anything
since it looked at the stack before the line, be it before or after it read the text. What it stores
is then what the text that the line has now gives, with the grammar that is set now, after the
stack that the slots have now and within the limits of that reading. It fills no slot otherwise.
Whether anybody has done anything is told by the numbers of the requests: they are equal just when
the worker has taken all that it was told of. From when the worker is told of something until it
takes that, no line is told of from the first line on that it has to do with. -/
theorem stores_current (machine : Machine) (document : Document) (grammar : Grammar)
    (config : Config) (moves : List Move) :
    let origin := ofDocument machine document grammar config
    let live := origin.play moves
    let next := live.move .work
    (∀ start line tokens stack, live.phase = .storing start line tokens stack →
      ∃ (earlier : List Move) (between later : List Operation) (text : String),
        let looked := origin.play earlier
        let asked := origin.play (earlier ++ .work :: between.map .operate)
        moves = earlier ++ .work :: between.map .operate ++ .work :: later.map .operate ∧
        looked.phase = .checking start line ∧
        asked.phase = .asking start line (looked.slots.prior? line) ∧
        asked.document.line? line = some text ∧
        (between ++ later ≠ [] → next.slots.entries = live.slots.entries) ∧
        (between ++ later = [] →
          next.slots.entries = live.slots.entries.set line ⟨some stack, some tokens, false⟩ ∧
          line < live.slots.length ∧ live.document.line? line = some text ∧
          tokens = (readLine (LineReader.ofGrammar live.grammar) asked.limits text
            (live.slots.prior? line)).1 ∧
          stack = (readLine (LineReader.ofGrammar live.grammar) asked.limits text
            (live.slots.prior? line)).2.1)) ∧
    (∀ (line : Nat) (slot : Slot), next.slots.entries[line]? = some slot → slot.isStale = false →
      slot ∈ live.slots.entries ∨
        ∃ start tokens stack, live.phase = .storing start line tokens stack ∧
          slot = ⟨some stack, some tokens, false⟩) ∧
    requests moves = origin.applied moves ++ live.queue ∧
    live.mail.seq = (requests moves).length ∧
    live.mail.appliedSeq = (origin.applied moves).length ∧
    (live.mail.seq = live.mail.appliedSeq ↔ live.queue = []) ∧
    ∀ request ∈ live.queue, ∀ line, request.first ≤ line →
      live.tokens? line = none ∧ live.stack? line = none := by
  intro origin live next
  have orderly : live.Orderly := (Orderly.ofDocument machine document grammar config).play moves
  obtain ⟨sent, applied⟩ := origin.seq_play moves
  refine ⟨?_, fun line slot => storing_of_new line slot, origin.queue_play moves,
    sent.trans (Nat.zero_add _), applied.trans (Nat.zero_add _), ?_, orderly.pending⟩
  · intro start line tokens stack storing
    have inside := (orderly.inside start line (congrArg Phase.pass? storing)).2
    have comes := stored_of_storing storing inside
    obtain ⟨earlier, between, later, text, rfl, queued, checking, looked, asking, written, rfl, rfl,
      read⟩ := came_to_storing rfl storing
    change live.queue = _ at queued
    refine ⟨earlier, between, later, text, rfl, checking, asking, written, fun busy => ?_,
      fun idle => ?_⟩
    · exact comes.trans (if_neg (by simpa [queued] using busy))
    · -- Nobody has acted since, so slots and document are still as they were.
      rw [idle] at queued
      refine ⟨comes.trans (if_pos queued), inside, ?_⟩
      obtain ⟨rfl, rfl⟩ := List.append_eq_nil_iff.mp idle
      have last := (origin.play_concat _ .work).trans read
      have first := (origin.play_concat earlier .work).trans looked
      have slots : live.slots = (origin.play earlier).slots :=
        (congrArg (·.slots) last).trans (congrArg (·.slots) first)
      have used : (origin.play (earlier ++ [.work])).reader.grammar = live.grammar := by
        have grammar := orderly.grammar
        rw [queued] at grammar
        have same : live.reader.grammar = (origin.play (earlier ++ [.work])).reader.grammar :=
          (congrArg (·.reader.grammar) last).trans (readLine_grammar _ _ _ _)
        exact same.symm.trans grammar
      rw [slots, ← used]
      exact ⟨(congrArg (·.document.line? line) last).trans written, readLine_unison _ _ _ _⟩
  · rw [← settled_iff, Mailbox.isSettled, beq_iff_eq]

-- The first line comes to open the rule while the second one is being read.
def superseded : List Move :=
  List.replicate 5 .work ++ [.operate (.edit ⟨["x", "a"]⟩ ⟨0, 1, 1⟩), .work]

def reread : List Move := superseded ++ List.replicate 6 .work ++ [.work, .work]

theorem superseded_storing :
    (quotingDocument.play superseded).phase =
      .storing 0 1 [⟨0, 1, ["t"], 0⟩] (quotingStack false) := by
  rw [quotingDocument, quotingStack, quoting_eq]
  cbv

theorem reread_storing :
    (quotingDocument.play reread).phase =
      .storing 0 1 [⟨0, 1, ["t", "s"], 0⟩] (quotingStack true) := by
  rw [quotingDocument, quotingStack, quoting_eq]
  cbv

theorem superseded_queue : (quotingDocument.play superseded).queue = [.edited ⟨0, 1, 1⟩] := by
  rw [quotingDocument, quoting_eq]
  cbv

theorem idle_of_works {before earlier : List Move} {between later : List Operation}
    (same : before ++ [.work, .work] =
      earlier ++ .work :: between.map .operate ++ .work :: later.map .operate) :
    between ++ later = [] := by
  have turned := congrArg List.reverse same
  simp only [List.reverse_append, List.reverse_cons, List.reverse_nil, List.nil_append,
    List.cons_append, ← List.map_reverse, List.append_assoc] at turned
  cases behind : later.reverse with
  | cons operation rest =>
    rw [behind] at turned
    exact nomatch (List.cons.inj turned).1
  | nil =>
    rw [behind] at turned
    cases amid : between.reverse with
    | cons operation rest =>
      rw [amid] at turned
      exact nomatch (List.cons.inj (List.cons.inj turned).2).1
    | nil => rw [List.reverse_eq_nil_iff.mp amid, List.reverse_eq_nil_iff.mp behind]; rfl

theorem stores_current_opened :
    ((quotingDocument.play superseded).move .work).slots.entries =
        (quotingDocument.play superseded).slots.entries ∧
      (∀ line, (quotingDocument.play superseded).tokens? line = none) ∧
      ((quotingDocument.play reread).move .work).slots.entries =
        (quotingDocument.play reread).slots.entries.set 1
          ⟨some (quotingStack true), some [⟨0, 1, ["t", "s"], 0⟩], false⟩ := by
  have current (moves : List Move) :=
    stores_current ⟨9, fun _ => none⟩ ⟨["", "a"]⟩ quoting Config.default moves
  have origin : ofDocument ⟨9, fun _ => none⟩ ⟨["", "a"]⟩ quoting Config.default =
    quotingDocument := rfl
  simp only [origin] at current
  obtain ⟨stores, -, -, -, -, -, pending⟩ := current superseded
  obtain ⟨restores, -⟩ := current reread
  obtain ⟨earlier, between, later, text, moves, -, -, -, disturbed, -⟩ :=
    stores 0 1 _ _ superseded_storing
  obtain ⟨earlier', between', later', text', moves', -, -, -, -, undisturbed⟩ :=
    restores 0 1 _ _ reread_storing
  refine ⟨disturbed fun idle => ?_, fun line => ?_, (undisturbed ?_).1⟩
  · obtain ⟨rfl, rfl⟩ := List.append_eq_nil_iff.mp idle
    have last := congrArg List.reverse moves
    simp [superseded] at last
  · have told : .edited ⟨0, 1, 1⟩ ∈ (quotingDocument.play superseded).queue :=
      superseded_queue ▸ List.mem_singleton_self _
    exact (pending _ told line (Nat.zero_le line)).1
  · exact idle_of_works moves'

end LiveDocument

end Highlighter
