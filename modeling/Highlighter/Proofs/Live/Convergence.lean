import Highlighter.Proofs.Live.Knowledge
import Highlighter.Proofs.Live.Mailbox

set_option autoImplicit false

namespace Highlighter

open Live

namespace Live

namespace Slots

def CurrentTo (slots : Slots) (limit : Nat) : Prop :=
  ∀ line < limit, ∃ slot, slots.entries[line]? = some slot ∧ slot.isStale = false

variable {slots : Slots}

theorem CurrentTo.mono {limit less : Nat} (current : slots.CurrentTo limit) (le : less ≤ limit) :
    slots.CurrentTo less :=
  fun line before => current line (before.trans_le le)

theorem currentTo_firstStale? {start stale : Nat} (current : slots.CurrentTo start)
    (found : slots.firstStale? start = some stale) :
    slots.CurrentTo stale ∧ stale < slots.length := by
  obtain ⟨count, here, rfl⟩ := Option.map_eq_some_iff.mp found
  obtain ⟨inside, _, before⟩ := List.findIdx?_eq_some_iff_getElem.mp here
  rw [List.length_drop] at inside
  refine ⟨fun line earlier => ?_, by unfold length; omega⟩
  by_cases known : line < start
  · exact current line known
  · have fresh := before (line - start) (by omega)
    rw [List.getElem_drop] at fresh
    have bound : line < slots.entries.length := by omega
    refine ⟨slots.entries[line], List.getElem?_eq_getElem bound, ?_⟩
    simpa [Nat.add_sub_cancel' (Nat.le_of_not_lt known)] using fresh

theorem currentTo_length {start : Nat} (current : slots.CurrentTo start)
    (missing : slots.firstStale? start = none) : slots.CurrentTo slots.length := by
  have fresh := List.findIdx?_eq_none_iff.mp (Option.map_eq_none_iff.mp missing)
  intro line inside
  by_cases known : line < start
  · exact current line known
  · have here := List.getElem?_eq_getElem (l := slots.entries) inside
    refine ⟨slots.entries[line], here, fresh _ (List.mem_of_getElem? (i := line - start) ?_)⟩
    rw [List.getElem?_drop, Nat.add_sub_cancel' (Nat.le_of_not_lt known)]
    exact here

theorem CurrentTo.store {line : Nat} (current : slots.CurrentTo line) (inside : line < slots.length)
    (tokens : List Token) (stack : Stack) : (slots.store line tokens stack).CurrentTo (line + 1) := by
  intro other before
  by_cases same : other = line
  · subst same
    exact ⟨_, List.getElem?_set_self inside, rfl⟩
  · obtain ⟨slot, here, fresh⟩ := current other (by omega)
    exact ⟨slot, (List.getElem?_set_ne (Ne.symm same)).trans here, fresh⟩

end Slots

namespace Knowledge

variable {knowledge : Knowledge} {line : Nat} {slot : Slot}

theorem take_before (request : Request) (before : line < request.first)
    (here : knowledge.slots.entries[line]? = some slot) :
    (knowledge.take request).slots.entries[line]? = some slot ∧
      (line ∈ (knowledge.take request).overtaken ↔ line ∈ knowledge.overtaken) := by
  cases request with
  | edited edit =>
    have earlier : line < edit.start := before
    have unmarked : (edit.splice (Slots.inserted edit.added (knowledge.slots.carried? edit))
        knowledge.slots.entries)[line]? = some slot := by
      have inside := (List.getElem?_eq_some_iff.mp here).1
      rw [Edit.splice, List.append_assoc, List.getElem?_append_left (by simp; omega),
        List.getElem?_take_of_lt earlier, here]
    refine ⟨?_, ?_⟩
    · simp only [take, Slots.splice]
      split
      · rw [List.getElem?_modify, unmarked]
        exact congrArg some (if_neg earlier.ne')
      · exact unmarked
    · have later : ¬ edit.newStop ≤ line := by
        unfold Edit.newStop
        omega
      simp [take, Request.move, Edit.move, earlier, later]
  | line place =>
    refine ⟨?_, Iff.rfl⟩
    change (knowledge.slots.entries.modify place Slots.markStale)[line]? = some slot
    rw [List.getElem?_modify, here]
    exact congrArg some (if_neg (Nat.ne_of_gt before))
  | theme theme => exact absurd before (Nat.not_lt_zero line)
  | grammar grammar => exact absurd before (Nat.not_lt_zero line)

theorem takeAll_before (requests : List Request)
    (before : ∀ request ∈ requests, line < request.first)
    (here : knowledge.slots.entries[line]? = some slot) :
    (requests.foldl take knowledge).slots.entries[line]? = some slot ∧
      (line ∈ (requests.foldl take knowledge).overtaken ↔ line ∈ knowledge.overtaken) := by
  induction requests generalizing knowledge with
  | nil => exact ⟨here, Iff.rfl⟩
  | cons request rest ih =>
    obtain ⟨there, same⟩ := take_before request (before request (by simp)) here
    obtain ⟨last, others⟩ := ih (fun other member => before other (List.mem_cons_of_mem _ member)) there
    exact ⟨last, others.trans same⟩

end Knowledge

end Live

namespace LiveDocument

/-- The lines that are overtaken after the next step of the worker. -/
def overtakenAfter (live : LiveDocument) (overtaken : Set Nat) : Set Nat :=
  match live.phase, live.queue with
  | .waiting, request :: _ => request.move overtaken
  | .choosing, request :: _ =>
    if (live.slots.firstStale? 0).isSome then request.move overtaken else overtaken
  | .storing _ line _ stack, [] => live.slots.overtakenAfter line stack overtaken
  | _, _ => overtaken

def Untimed (machine : Machine) (config : Config) : Prop :=
  config.lineLimit = none ∨ ∀ reading, machine.clock reading = none

theorem clock_ofDocument {machine : Machine} {config : Config} (untimed : Untimed machine config)
    (document : Document) (grammar : Grammar) :
    (ofDocument machine document grammar config).machine.clock = fun _ => none := by
  funext reading
  rcases untimed with unlimited | never <;> simp [ofDocument, *]

/-- The states that a live document comes to, each with the lines that are overtaken in it. Callers
act where they may. Every grammar in use reads equal stacks alike, and the time runs out for
no reading. -/
inductive Runs (mayAct : LiveDocument → Prop) : LiveDocument → Set Nat → Prop
  | start (machine : Machine) (document : Document) (grammar : Grammar) (config : Config)
    (untimed : Untimed machine config) (alike : grammar.ReadsAlike) :
    Runs mayAct (ofDocument machine document grammar config) ∅
  | work {live next : LiveDocument} {overtaken : Set Nat} (runs : Runs mayAct live overtaken)
    (step : live.step? = some next) : Runs mayAct next (live.overtakenAfter overtaken)
  | replace {live : LiveDocument} {overtaken : Set Nat} (runs : Runs mayAct live overtaken)
    (turn : mayAct live) (start count : Nat) (lines : List String) :
    Runs mayAct (live.replace start count lines).1 overtaken
  | invalidate {live : LiveDocument} {overtaken : Set Nat} (runs : Runs mayAct live overtaken)
    (turn : mayAct live) (line : Nat) : Runs mayAct (live.invalidate line) overtaken
  | grammar {live : LiveDocument} {overtaken : Set Nat} (runs : Runs mayAct live overtaken)
    (turn : mayAct live) (grammar : Grammar) (alike : grammar.ReadsAlike) :
    Runs mayAct (live.withGrammar grammar) overtaken
  | theme {live : LiveDocument} {overtaken : Set Nat} (runs : Runs mayAct live overtaken)
    (turn : mayAct live) (theme : Option Theme)
    (alike : (live.grammar.withTheme theme).ReadsAlike) : Runs mayAct (live.withTheme theme) overtaken

-- The limits of a reading that may take whatever time it takes.
def untimedLimits (live : LiveDocument) : Limits := ⟨live.longestLine, live.machine.depth, none⟩

-- What the slots will tell once the worker has taken all requests. Which lines are pending does not
-- matter to it.
def knowledge (live : LiveDocument) (overtaken : Set Nat) : Knowledge :=
  live.queue.foldl Knowledge.take ⟨⟨live.slots.entries, 0⟩, overtaken, live.reader.grammar⟩

-- Where a pass stands when no request has come in the middle of it.
def OnCourse (live : LiveDocument) : Prop :=
  match live.phase with
  | .waiting | .choosing => True
  | .checking _ line => line < live.slots.length ∧ live.slots.CurrentTo line
  | .asking _ line prior =>
    line < live.slots.length ∧ live.slots.CurrentTo line ∧ prior = live.slots.prior? line
  | .storing _ line tokens stack =>
    line < live.slots.length ∧ live.slots.CurrentTo line ∧
      ∃ (reader : LineReader) (text : String), reader.grammar = live.reader.grammar ∧
        live.document.line? line = some text ∧
        tokens = (readLine reader live.untimedLimits text (live.slots.prior? line)).1 ∧
        stack = (readLine reader live.untimedLimits text (live.slots.prior? line)).2.1

theorem limits_of_clock (live : LiveDocument) (clock : live.machine.clock = fun _ => none) :
    live.limits = live.untimedLimits := by
  rw [limits, clock, untimedLimits]

theorem ask_written (live : LiveDocument) (start line : Nat) (prior : Option Stack) {text : String}
    (written : live.document.line? line = some text) :
    let read := readLine live.reader live.limits text prior
    live.ask start line prior =
      { live with
        reader := read.2.2.1
        readings := live.readings + 1
        phase := .storing start line read.1 read.2.1
        lost := live.lost || read.2.2.2 } := by
  unfold ask
  rw [written]

structure Consistent (live : LiveDocument) (overtaken : Set Nat) : Prop where
  alike : live.grammar.ReadsAlike
  clock : live.machine.clock = fun _ => none
  grammar : (live.knowledge overtaken).grammar = live.grammar
  sound : (live.knowledge overtaken).Sound live.untimedLimits live.document
  ahead : ∀ request ∈ live.queue, live.slots.firstPending ≤ request.first
  current : live.slots.CurrentTo live.slots.firstPending
  onCourse : live.queue = [] → live.OnCourse
  done : live.activity = .done →
    live.queue = [] ∧ live.phase = .waiting ∧ live.slots.firstPending = live.slots.length

-- All but what callers are told of.
def unheard (live : LiveDocument) : LiveDocument :=
  { live with changed := [], reported := .done, events := [], lost := false }

theorem unheard_report (live : LiveDocument) (activity : Activity) :
    (live.report activity).unheard = live.unheard := by
  unfold report
  split <;> rfl

theorem unheard_conclude (live : LiveDocument) : live.conclude.unheard = live.unheard := by
  unfold conclude
  split
  · rfl
  · exact unheard_report _ _
  · exact unheard_report _ _

theorem take_apply (live : LiveDocument) (overtaken : Set Nat) (request : Request) :
    Knowledge.take ⟨⟨live.slots.entries, 0⟩, overtaken, live.reader.grammar⟩ request =
      ⟨⟨(live.apply request).slots.entries, 0⟩, request.move overtaken,
        (live.apply request).reader.grammar⟩ := by
  cases request with
  | edited edit =>
    have carried : Slots.carried? ⟨live.slots.entries, 0⟩ edit = live.slots.carried? edit := rfl
    simp [Knowledge.take, apply, Slots.splice, carried]
  | line line => simp [Knowledge.take, apply, Slots.invalidate]
  | theme theme => rfl
  | grammar grammar => rfl

theorem apply_firstPending_le (live : LiveDocument) (request : Request) :
    (live.apply request).slots.firstPending ≤ live.slots.firstPending := by
  cases request with
  | edited edit => exact Nat.min_le_left _ _
  | line line => exact Nat.min_le_left _ _
  | theme theme => exact Nat.zero_le _
  | grammar grammar => exact Nat.zero_le _

theorem apply_same (live : LiveDocument) (request : Request) :
    (live.apply request).document = live.document ∧ (live.apply request).grammar = live.grammar ∧
      (live.apply request).longestLine = live.longestLine ∧
      (live.apply request).machine = live.machine ∧
      (live.apply request).activity = live.activity := by
  cases request <;> exact ⟨rfl, rfl, rfl, rfl, rfl⟩

namespace Consistent

variable {live : LiveDocument} {overtaken : Set Nat}

theorem of_unheard {next : LiveDocument} (consistent : live.Consistent overtaken)
    (same : next.unheard = live.unheard) : next.Consistent overtaken := by
  have unheard : live.unheard.Consistent overtaken :=
    ⟨consistent.alike, consistent.clock, consistent.grammar, consistent.sound, consistent.ahead,
      consistent.current, consistent.onCourse, consistent.done⟩
  rw [← same] at unheard
  exact ⟨unheard.alike, unheard.clock, unheard.grammar, unheard.sound, unheard.ahead,
    unheard.current, unheard.onCourse, unheard.done⟩

theorem notDone (consistent : live.Consistent overtaken) (busy : live.phase ≠ .waiting) :
    live.activity ≠ .done :=
  fun done => busy (consistent.done done).2.1

theorem take (consistent : live.Consistent overtaken) (request : Request) (rest : Mailbox)
    (taken : live.mail.take? = some (request, rest)) :
    (live.take request rest).Consistent (request.move overtaken) := by
  have queued : live.queue = request :: rest.requests := Mailbox.requests_of_take? taken
  obtain ⟨document, grammar, longestLine, machine, activity⟩ := live.apply_same request
  have same : (live.take request rest).knowledge (request.move overtaken) =
      live.knowledge overtaken := by
    unfold knowledge
    rw [queued, List.foldl_cons, take_apply]
    rfl
  have first : live.slots.firstPending ≤ request.first :=
    consistent.ahead request (queued ▸ List.mem_cons_self)
  have pending := live.apply_firstPending_le request
  have limits : (live.take request rest).untimedLimits = live.untimedLimits :=
    congrArg₂ (Limits.mk · · none) longestLine (congrArg Machine.depth machine)
  refine ⟨?_, ?_, ?_, ?_, ?_, ?_, fun _ => trivial, ?_⟩
  · exact grammar.symm ▸ consistent.alike
  · exact (congrArg Machine.clock machine).trans consistent.clock
  · exact (congrArg Knowledge.grammar same).trans (consistent.grammar.trans grammar.symm)
  · rw [same, limits]
    exact document.symm ▸ consistent.sound
  · intro other member
    have later := consistent.ahead other (queued ▸ List.mem_cons_of_mem _ member)
    exact pending.trans later
  · intro line before
    have before := lt_of_lt_of_le before pending
    obtain ⟨slot, here, current⟩ := consistent.current line before
    have there : (Knowledge.mk ⟨live.slots.entries, 0⟩ overtaken
      live.reader.grammar).slots.entries[line]? = some slot := here
    have kept := (Knowledge.take_before request (before.trans_le first) there).1
    rw [take_apply] at kept
    exact ⟨slot, kept, current⟩
  · intro done
    have idle := (consistent.done (activity.symm.trans done)).1
    exact nomatch queued.symm.trans idle

theorem leave (consistent : live.Consistent overtaken) (busy : live.phase ≠ .waiting)
    (start line : Nat) : (live.leave start line).Consistent overtaken where
  alike := consistent.alike
  clock := consistent.clock
  grammar := consistent.grammar
  sound := consistent.sound
  ahead := consistent.ahead
  current := consistent.current
  onCourse := fun _ => trivial
  done := fun done => absurd done (consistent.notDone busy)

theorem finish (consistent : live.Consistent overtaken) (busy : live.phase ≠ .waiting)
    (fresh : live.slots.firstStale? 0 = none) : live.finish.Consistent overtaken := by
  unfold LiveDocument.finish
  split
  · rename_i idle
    have empty := settled_iff.mp idle
    have current := Slots.currentTo_length (fun line before => absurd before (Nat.not_lt_zero line))
      fresh
    have settled : Consistent { live with
        phase := .waiting
        slots := { live.slots with firstPending := live.slots.length }
        activity := .done } overtaken :=
      ⟨consistent.alike, consistent.clock, consistent.grammar, consistent.sound,
        fun request member => absurd (empty ▸ member) List.not_mem_nil, current, fun _ => trivial,
        fun _ => ⟨empty, rfl, rfl⟩⟩
    exact settled.of_unheard (unheard_conclude _)
  · exact ⟨consistent.alike, consistent.clock, consistent.grammar, consistent.sound, consistent.ahead,
      consistent.current, fun _ => trivial, fun done => absurd done (consistent.notDone busy)⟩

theorem choose (consistent : live.Consistent overtaken) (phase : live.phase = .choosing) :
    live.choose.Consistent (live.overtakenAfter overtaken) := by
  have busy : live.phase ≠ .waiting := by simp [phase]
  unfold LiveDocument.choose overtakenAfter
  rw [phase]
  cases found : live.slots.firstStale? 0 with
  | none =>
    have done := consistent.finish busy found
    cases live.queue <;> exact done
  | some start =>
    cases queue : live.queue with
    | cons request others =>
      obtain ⟨rest, taken, -⟩ := exists_take? queue
      rw [taken]
      exact consistent.take request rest taken
    | nil =>
      rw [take?_of_empty queue]
      obtain ⟨current, inside⟩ := Slots.currentTo_firstStale?
        (fun line before => absurd before (Nat.not_lt_zero line)) found
      have checking : Consistent { live with phase := .checking start start } overtaken :=
        ⟨consistent.alike, consistent.clock, consistent.grammar, consistent.sound, consistent.ahead,
          consistent.current, fun _ => ⟨inside, current⟩,
          fun done => absurd done (consistent.notDone busy)⟩
      exact checking.of_unheard (congrArg (fun live => { live with phase := .checking start start })
        (live.unheard_report .working))

theorem check (consistent : live.Consistent overtaken) (start line : Nat)
    (phase : live.phase = .checking start line) : (live.check start line).Consistent overtaken := by
  unfold LiveDocument.check
  split
  · rename_i idle
    refine ⟨consistent.alike, consistent.clock, consistent.grammar, consistent.sound,
      consistent.ahead, consistent.current, ?_, ?_⟩
    · intro empty
      have course := consistent.onCourse empty
      simp only [OnCourse, phase] at course
      exact ⟨course.1, course.2, rfl⟩
    · exact fun done => absurd done (consistent.notDone (by simp [phase]))
  · exact consistent.leave (by simp [phase]) start line

theorem length_eq (consistent : live.Consistent overtaken) (empty : live.queue = []) :
    live.slots.length = live.document.length := by
  have sound := consistent.sound.length
  rwa [knowledge, empty] at sound

theorem ask (consistent : live.Consistent overtaken) (start line : Nat) (prior : Option Stack)
    (phase : live.phase = .asking start line prior) :
    (live.ask start line prior).Consistent overtaken := by
  have busy : live.phase ≠ .waiting := by simp [phase]
  have course := consistent.onCourse
  simp only [OnCourse, phase] at course
  unfold LiveDocument.ask
  split
  · rename_i missing
    split
    · rename_i idle
      have empty := settled_iff.mp idle
      have inside := (course empty).1
      rw [consistent.length_eq empty] at inside
      have past := List.getElem?_eq_none_iff.mp missing
      exact absurd inside (Nat.not_lt.mpr past)
    · exact consistent.leave busy start line
  · rename_i text written
    have same := readLine_grammar live.reader live.limits text prior
    refine ⟨consistent.alike, consistent.clock, ?_, ?_, consistent.ahead, consistent.current, ?_, ?_⟩
    · simp only [knowledge, same]
      exact consistent.grammar
    · simp only [knowledge, same]
      exact consistent.sound
    · intro empty
      obtain ⟨inside, current, rfl⟩ := course empty
      have limits := live.limits_of_clock consistent.clock
      exact ⟨inside, current, live.reader, text, same.symm, written,
        congrArg (fun limits => (readLine live.reader limits text _).1) limits,
        congrArg (fun limits => (readLine live.reader limits text _).2.1) limits⟩
    · exact fun done => absurd done (consistent.notDone busy)

theorem store (consistent : live.Consistent overtaken) (start line : Nat) (tokens : List Token)
    (stack : Stack) (phase : live.phase = .storing start line tokens stack) :
    (live.store start line tokens stack).Consistent (live.overtakenAfter overtaken) := by
  have busy : live.phase ≠ .waiting := by simp [phase]
  have notDone := consistent.notDone busy
  unfold LiveDocument.store overtakenAfter
  rw [phase]
  cases queue : live.queue with
  | cons request rest =>
    -- What has been read is not stored, and nothing is overtaken.
    have busy' : live.queue ≠ [] := queue ▸ List.cons_ne_nil request rest
    rw [if_pos (by simp [unsettled_of_busy busy'])]
    exact consistent.leave busy start line
  | nil =>
    have course := consistent.onCourse queue
    simp only [OnCourse, phase] at course
    obtain ⟨inside, current, reader, text, used, written, readTokens, readStack⟩ := course
    have prior : Slots.prior? ⟨live.slots.entries, 0⟩ line = live.slots.prior? line := by
      cases line <;> rfl
    have grammar := consistent.grammar
    have sound := consistent.sound
    rw [← prior] at readTokens readStack
    simp only [knowledge, queue, List.foldl_nil] at grammar sound
    have fresh := current.store inside tokens stack
    have stored (pending : Nat) (next : Phase)
        (ready : (live.slots.store line tokens stack).CurrentTo pending)
        (onCourse : OnCourse { live with
          slots := { live.slots.store line tokens stack with firstPending := pending }
          phase := next }) :
        Consistent { live with
          slots := { live.slots.store line tokens stack with firstPending := pending }
          phase := next } (live.slots.overtakenAfter line stack overtaken) := by
      have same : knowledge { live with
          slots := { live.slots.store line tokens stack with firstPending := pending }
          phase := next } (live.slots.overtakenAfter line stack overtaken) =
          ⟨⟨(live.slots.store line tokens stack).entries, 0⟩,
            live.slots.overtakenAfter line stack overtaken, live.reader.grammar⟩ :=
        congrArg (List.foldl Knowledge.take _) queue
      refine ⟨consistent.alike, consistent.clock, ?_, ?_, fun request member => ?_, ready,
        fun _ => onCourse, fun done => absurd done notDone⟩
      · rw [same]
        exact grammar
      · rw [same]
        exact sound.store reader used line 0 text written tokens stack readTokens readStack
      · exact absurd (queue ▸ member) List.not_mem_nil
    rw [if_neg (by simp [settled_of_empty queue, inside])]
    dsimp only
    split
    · have rest : (live.slots.store line tokens stack).CurrentTo
          (((live.slots.store line tokens stack).firstStale? (line + 1)).getD
            (live.slots.store line tokens stack).length) := by
        cases found : (live.slots.store line tokens stack).firstStale? (line + 1) with
        | none => exact Slots.currentTo_length fresh found
        | some stale => exact (Slots.currentTo_firstStale? fresh found).1
      exact (stored _ .choosing rest trivial).of_unheard rfl
    · rename_i goesOn
      have inner : line + 1 < (live.slots.store line tokens stack).length := by
        simp only [Bool.or_eq_true, decide_eq_true_eq, not_or, Nat.not_le] at goesOn
        exact goesOn.2
      exact stored (line + 1) (.checking start (line + 1)) fresh ⟨inner, fresh⟩

theorem step (consistent : live.Consistent overtaken) (next : LiveDocument)
    (step : live.step? = some next) : next.Consistent (live.overtakenAfter overtaken) := by
  unfold step? at step
  unfold overtakenAfter
  cases phase : live.phase with
  | waiting =>
    cases queue : live.queue with
    | nil => simp [phase, take?_of_empty queue] at step
    | cons request others =>
      obtain ⟨rest, taken, -⟩ := exists_take? queue
      simp only [phase, taken] at step
      obtain rfl := Option.some.inj step
      exact consistent.take request rest taken
  | choosing =>
    simp only [phase] at step
    obtain rfl := Option.some.inj step
    have chosen := consistent.choose phase
    simpa only [overtakenAfter, phase] using chosen
  | checking start line =>
    simp only [phase] at step
    obtain rfl := Option.some.inj step
    exact consistent.check start line phase
  | asking start line prior =>
    simp only [phase] at step
    obtain rfl := Option.some.inj step
    exact consistent.ask start line prior phase
  | storing start line tokens stack =>
    simp only [phase] at step
    obtain rfl := Option.some.inj step
    have stored := consistent.store start line tokens stack phase
    simpa only [overtakenAfter, phase] using stored

theorem notify (consistent : live.Consistent overtaken) (request : Request) (document : Document)
    (grammar : Grammar) (alike : grammar.ReadsAlike)
    (given : ((live.knowledge overtaken).take request).grammar = grammar)
    (sound : ((live.knowledge overtaken).take request).Sound live.untimedLimits document) :
    (LiveDocument.notify { live with document, grammar } request.first request).Consistent
      overtaken := by
  have same : (LiveDocument.notify { live with document, grammar } request.first request).knowledge
      overtaken = (live.knowledge overtaken).take request := by
    rw [knowledge, queue, LiveDocument.notify, Mailbox.requests_send, List.foldl_append]
    rfl
  refine ⟨alike, consistent.clock, ?_, ?_, ?_, ?_, ?_, nofun⟩
  · rw [same]
    exact given
  · rw [same]
    exact sound
  · intro other member
    rw [queue, LiveDocument.notify, Mailbox.requests_send] at member
    rcases List.mem_append.mp member with old | new
    · exact (Nat.min_le_left _ _).trans (consistent.ahead other old)
    · obtain rfl := List.mem_singleton.mp new
      exact Nat.min_le_right _ _
  · exact consistent.current.mono (Nat.min_le_left _ _)
  · intro empty
    rw [queue, LiveDocument.notify, Mailbox.requests_send] at empty
    exact absurd empty (List.append_ne_nil_of_right_ne_nil _ (List.cons_ne_nil _ _))

end Consistent

variable {mayAct : LiveDocument → Prop} {live : LiveDocument} {overtaken : Set Nat}

theorem Runs.consistent (runs : Runs mayAct live overtaken) : live.Consistent overtaken := by
  induction runs with
  | start machine document grammar config untimed alike =>
    refine ⟨alike, clock_ofDocument untimed document grammar, rfl, ?_, fun _ => nofun, ?_,
      fun _ => trivial, nofun⟩
    · exact Knowledge.Sound.unread document.length rfl ∅ grammar
    · exact fun line before => absurd before (Nat.not_lt_zero line)
  | work _ step ih => exact ih.step _ step
  | @replace live _ _ _ start count lines ih =>
    exact ih.notify (.edited (live.document.editFor start count lines))
      (live.document.replace start count lines).1 live.grammar ih.alike ih.grammar
      (ih.sound.edited start count lines)
  | @invalidate live _ _ _ line ih =>
    exact ih.notify (.line line) live.document live.grammar ih.alike ih.grammar (ih.sound.line line)
  | @grammar live _ _ _ grammar alike ih =>
    exact ih.notify (.grammar grammar) live.document grammar alike rfl
      (.unread _ ih.sound.length _ _)
  | @theme live overtaken _ _ theme alike ih =>
    have given : ((live.knowledge overtaken).take (.theme theme)).grammar =
        live.grammar.withTheme theme := congrArg (·.withTheme theme) ih.grammar
    exact ih.notify (.theme theme) live.document (live.grammar.withTheme theme) alike given
      (.unread _ ih.sound.length _ _)

-- Whether the worker's next step leaves a line behind that it has overtaken.
def overtakes (live : LiveDocument) : Bool :=
  match live.phase with
  | .storing _ line _ stack =>
    !(live.slots.lastStack? line).any (·.same stack) &&
      live.slots.entries[line + 1]?.any (!·.isStale)
  | _ => false

theorem move_nothing (request : Request) : request.move ∅ = ∅ := by
  cases request <;> simp [Request.move, Edit.move]

theorem overtakenAfter_empty (live : LiveDocument) (none : live.overtakes = false) :
    live.overtakenAfter ∅ = ∅ := by
  unfold overtakenAfter
  split
  · exact move_nothing _
  · split
    · exact move_nothing _
    · rfl
  · rename_i start line tokens stack phase empty
    ext other
    simp only [overtakes, phase, Bool.and_eq_false_iff, Bool.not_eq_false'] at none
    simp only [Slots.overtakenAfter, Set.mem_empty_iff_false, false_and, false_or,
      Set.mem_ofPred_eq, iff_false]
    rintro ⟨rfl, differs, fresh⟩
    rcases none with same | stale
    · exact Bool.false_ne_true (differs.symm.trans same)
    · exact Bool.false_ne_true (stale.symm.trans fresh)
  · rfl

def overtakesUntil (stop : LiveDocument → Bool) : Nat → LiveDocument → Bool
  | 0, _ => false
  | fuel + 1, live =>
    if stop live then false
    else
      match live.step? with
      | none => false
      | some next => live.overtakes || overtakesUntil stop fuel next

theorem Runs.runUntil (runs : Runs mayAct live ∅) (stop : LiveDocument → Bool) (fuel : Nat)
    (none : live.overtakesUntil stop fuel = false) : Runs mayAct (live.runUntil stop fuel) ∅ := by
  fun_induction LiveDocument.runUntil stop fuel live with
  | case1 => exact runs
  | case2 => exact runs
  | case3 => exact runs
  | case4 fuel live stops next step ih =>
    rw [overtakesUntil, if_neg stops, step, Bool.or_eq_false_iff] at none
    exact ih (live.overtakenAfter_empty none.1 ▸ runs.work step) none.2

def priorIn (prior : Option Stack) (entries : List Slot) : Nat → Option Stack
  | 0 => prior
  | line + 1 => entries[line]?.bind (·.stack)

theorem eq_cons_of_getElem? {α : Type} {items : List α} {first : α}
    (here : items[0]? = some first) : ∃ rest, items = first :: rest := by
  cases items with
  | nil => exact nomatch here
  | cons head rest => exact ⟨rest, congrArg (· :: rest) (Option.some.inj here)⟩

theorem readAfresh_of_upToDate (grammar : Grammar) (alike : grammar.ReadsAlike) (limits : Limits)
    (untimed : limits.checks = none) (lines : List String) (entries : List Slot)
    (start prior : Option Stack)
    (knows : grammar.Knows start) (seen : start.map Stack.seen = prior.map Stack.seen) (line : Nat)
    (upToDate : ∀ earlier ≤ line, ∃ slot text, entries[earlier]? = some slot ∧
      lines[earlier]? = some text ∧
        UpToDate grammar limits text (priorIn prior entries earlier) slot) :
    (readAfresh grammar limits start lines)[line]? =
      entries[line]?.bind (·.tokens) := by
  induction line generalizing lines entries start prior with
  | zero =>
    obtain ⟨slot, text, here, written, reader, from', used, knowsFrom, seenFrom, tokens, _⟩ :=
      upToDate 0 le_rfl
    obtain ⟨rest, rfl⟩ := eq_cons_of_getElem? written
    have same := readLine_alike grammar alike (LineReader.ofGrammar grammar) reader rfl used
      limits untimed text start from' knows knowsFrom (seen.trans seenFrom.symm)
    rw [here]
    exact (congrArg some same.1).trans tokens.symm
  | succ line ih =>
    obtain ⟨slot, text, here, written, reader, from', used, knowsFrom, seenFrom, _, stack⟩ :=
      upToDate 0 (Nat.zero_le _)
    obtain ⟨lines, rfl⟩ := eq_cons_of_getElem? written
    obtain ⟨entries, rfl⟩ := eq_cons_of_getElem? here
    have same := readLine_alike grammar alike (LineReader.ofGrammar grammar) reader rfl used
      limits untimed text start from' knows knowsFrom (seen.trans seenFrom.symm)
    have returned := readLine_returned (LineReader.ofGrammar grammar) limits text start knows
    refine ih lines entries _ slot.stack (fun _ here => Option.some.inj here ▸ returned) ?_ ?_
    · exact (congrArg some same.2.1).trans (congrArg (·.map Stack.seen) stack).symm
    · intro earlier le
      obtain ⟨slot, text, here, written, now⟩ := upToDate (earlier + 1) (Nat.succ_le_succ le)
      refine ⟨slot, text, here, written, ?_⟩
      cases earlier with
      | zero => exact now
      | succ earlier => exact now

theorem tokens?_of_current (live : LiveDocument) (line : Nat) (slot : Slot)
    (before : line < live.slots.firstPending) (here : live.slots.entries[line]? = some slot)
    (fresh : slot.isStale = false) : live.tokens? line = slot.tokens := by
  simp [tokens?, Slots.tokens?, Slots.current?, before, here, Option.filter, fresh]

theorem before_of_tokens? (live : LiveDocument) (line : Nat) (tokens : List Token)
    (ready : live.tokens? line = some tokens) : line < live.slots.firstPending := by
  by_contra late
  simp [tokens?, Slots.tokens?, Slots.current?, late] at ready

namespace Consistent

theorem kept (consistent : live.Consistent overtaken) (line : Nat)
    (before : line < live.slots.firstPending) :
    ∃ slot, live.slots.entries[line]? = some slot ∧ slot.isStale = false ∧
      (live.knowledge overtaken).slots.entries[line]? = some slot ∧
      (line ∈ (live.knowledge overtaken).overtaken ↔ line ∈ overtaken) := by
  obtain ⟨slot, here, fresh⟩ := consistent.current line before
  have there : (Knowledge.mk ⟨live.slots.entries, 0⟩ overtaken
    live.reader.grammar).slots.entries[line]? = some slot := here
  exact ⟨slot, here, fresh, Knowledge.takeAll_before live.queue
    (fun request member => before.trans_le (consistent.ahead request member)) there⟩

theorem tokens_correct (consistent : live.Consistent overtaken) (line : Nat) (tokens : List Token)
    (ready : live.tokens? line = some tokens) (paid : ∀ other ∈ overtaken, line < other) :
    (readAfresh live.grammar live.untimedLimits none live.document.lines)[line]? = some tokens := by
  have before := live.before_of_tokens? line tokens ready
  obtain ⟨slot, here, fresh, told, _⟩ := consistent.kept line before
  rw [live.tokens?_of_current line slot before here fresh] at ready
  rw [readAfresh_of_upToDate live.grammar consistent.alike live.untimedLimits rfl live.document.lines
    (live.knowledge overtaken).slots.entries none none (Grammar.knows_none _) rfl line, told]
  · exact ready
  · intro earlier le
    obtain ⟨slot, _, fresh, told, same⟩ := consistent.kept earlier (le.trans_lt before)
    have inside := (List.getElem?_eq_some_iff.mp told).1.trans_eq consistent.sound.length
    have written := List.getElem?_eq_getElem inside
    have now := consistent.sound.current earlier slot _ told fresh
      (fun late => absurd (paid earlier (same.mp late)) (Nat.not_lt.mpr le)) written
    refine ⟨slot, _, told, written, ?_⟩
    rw [consistent.grammar] at now
    cases earlier <;> exact now

theorem tokens_of_done (consistent : live.Consistent overtaken) (done : live.activity = .done)
    (line : Nat) (inside : line < live.document.length) : (live.tokens? line).isSome = true := by
  obtain ⟨empty, _, pending⟩ := consistent.done done
  have sound := consistent.sound
  simp only [knowledge, empty, List.foldl_nil] at sound
  have before : line < live.slots.firstPending := by
    rwa [pending, consistent.length_eq empty]
  obtain ⟨slot, here, fresh⟩ := consistent.current line before
  rw [live.tokens?_of_current line slot before here fresh]
  exact (sound.filled line slot here fresh).1

end Consistent

/-- Once the worker is done, all lines have tokens. A line that has tokens has those that reading the
document afresh gives, unless it or a line before it has been overtaken. Reading afresh is tokenizing
one line after the other where no line is too long for it. -/
theorem tokens_afresh (mayAct : LiveDocument → Prop) (live : LiveDocument) (overtaken : Set Nat)
    (runs : Runs mayAct live overtaken) :
    (∀ line tokens, live.tokens? line = some tokens → (∀ other ∈ overtaken, line < other) →
      (readAfresh live.grammar live.untimedLimits none live.document.lines)[line]? = some tokens) ∧
    (live.activity = .done →
      ∀ line < live.document.length, (live.tokens? line).isSome = true) ∧
    ((∀ text ∈ live.document.lines, Text.byteLength text.toList ≤ live.longestLine) →
      ∀ caches : Caches live.grammar,
        readAfresh live.grammar live.untimedLimits none live.document.lines =
          ((Grammar.tokenizeLines live.machine.depth none live.document.lines).run caches).1.map
            (·.emitted.tokens)) := by
  have consistent := runs.consistent
  refine ⟨consistent.tokens_correct, consistent.tokens_of_done, fun short caches => ?_⟩
  exact readAfresh_eq live.grammar consistent.alike live.untimedLimits rfl live.document.lines short
    none none (Grammar.knows_none _) (Grammar.knows_none _) rfl caches

end LiveDocument

-- The rule goes from `x` to `z`.
def Library.quoting : Library :=
  ⟨⟨some "t", none, [⟨none, some "s", none, none, none, some "x", none, some "z", none, none, none,
    none, none, false⟩], [], [], none, [], [], none⟩, Repository.empty⟩

def RuleGraph.quoting : RuleGraph :=
  ⟨#[.held 0 [1],
    ⟨1, some [.plain 's'], none, .spanning (.unanchored "x" (.set (.char 'x'))) []
      (.unanchored "z" (.set (.char 'z'))) [] false []⟩], 0, []⟩

namespace LiveDocument

def quoting : Grammar :=
  Grammar.ofGraph Library.quoting Configuration.default (RuleGraph.compile Library.quoting)

theorem quoting_eq :
    quoting = ⟨Library.quoting.base, RuleGraph.quoting, ⟨0, []⟩, [], none, none⟩ := by
  cbv

theorem quoting_readsAlike : quoting.ReadsAlike := by
  rw [quoting_eq]
  exact Grammar.readsAlike_of_ignoresAnchor _
    (Grammar.ignoresAnchor_of_variants _ (by cbv) (by cbv) (by cbv))

def quotingStack (isInside : Bool) : Stack :=
  let path := quoting.pathAfter ScopePath.empty (some "t")
  let bottom : Frame := ⟨1, 0, none, none, false, none, path, path⟩
  let inner := quoting.pathAfter path (some "s")
  if isInside then ⟨⟨2, 1, some 0, none, false, none, inner, inner⟩, [bottom]⟩ else ⟨bottom, []⟩

def quotingDocument : LiveDocument :=
  ofDocument ⟨9, fun _ => none⟩ ⟨["", "a"]⟩ quoting Config.default

-- The first line comes to open the rule while the second one is being read.
def openedDocument : LiveDocument :=
  ((quotingDocument.settleUntil (isAsking 1)).replace 0 1 ["x"]).1

theorem openedDocument_runs : Runs (fun _ => True) openedDocument ∅ := by
  have start : Runs (fun _ => True) quotingDocument ∅ :=
    .start _ _ quoting Config.default (.inr fun _ => rfl) quoting_readsAlike
  refine (start.runUntil (isAsking 1) quotingDocument.rounds ?_).replace trivial 0 1 ["x"]
  rw [quotingDocument, quoting_eq]
  cbv

theorem openedDocument_asks : openedDocument.isAsking 1 = true := by
  rw [openedDocument, quotingDocument, quoting_eq]
  cbv

theorem openedDocument_done : openedDocument.settle.activity = .done := by
  rw [openedDocument, quotingDocument, quoting_eq]
  cbv

theorem openedDocument_tokens :
    openedDocument.settle.tokens? 1 = some [⟨0, 1, ["t", "s"], 0⟩] := by
  rw [openedDocument, quotingDocument, quoting_eq]
  cbv

theorem openedDocument_clear :
    openedDocument.overtakesUntil (fun _ => false) openedDocument.rounds = false := by
  rw [openedDocument, quotingDocument, quoting_eq]
  cbv

theorem tokens_afresh_opened :
    let live := openedDocument.settle
    openedDocument.isAsking 1 = true ∧ Runs (fun _ => True) live ∅ ∧ live.activity = .done ∧
      live.tokens? 1 = some [⟨0, 1, ["t", "s"], 0⟩] ∧
      (∀ line tokens, live.tokens? line = some tokens →
        (readAfresh live.grammar live.untimedLimits none live.document.lines)[line]? =
          some tokens) ∧
      ∀ line < live.document.length, (live.tokens? line).isSome = true := by
  intro live
  have runs : Runs (fun _ => True) live ∅ := openedDocument_runs.runUntil _ _ openedDocument_clear
  obtain ⟨ready, complete, -⟩ := tokens_afresh _ live ∅ runs
  exact ⟨openedDocument_asks, runs, openedDocument_done, openedDocument_tokens,
    fun line tokens here => ready line tokens here (by simp), complete openedDocument_done⟩

end LiveDocument

end Highlighter
