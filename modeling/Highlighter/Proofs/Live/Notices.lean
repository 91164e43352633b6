import Highlighter.Proofs.Live.LineRange
import Highlighter.Proofs.Live.Storing

set_option autoImplicit false

namespace Highlighter

open Live

namespace Live.Request

def Fits : Request → Nat → Prop
  | .edited edit, count => edit.Fits count
  | _, _ => True

def resize : Request → Nat → Nat
  | .edited edit, count => count - edit.removed + edit.added
  | _, count => count

def carry : Request → Set Nat → Set Nat
  | .edited edit, lines => edit.move lines
  | _, lines => lines

def Lead : List Request → Nat → Nat → Prop
  | [], slots, lines => slots = lines
  | request :: rest, slots, lines => request.Fits slots ∧ Lead rest (request.resize slots) lines

theorem Lead.concat {requests : List Request} {slots lines : Nat} (lead : Lead requests slots lines)
    (request : Request) (fits : request.Fits lines) :
    Lead (requests ++ [request]) slots (request.resize lines) := by
  induction requests generalizing slots with
  | nil =>
    obtain rfl : slots = lines := lead
    exact ⟨fits, rfl⟩
  | cons first rest ih => exact ⟨lead.1, ih lead.2⟩

end Live.Request

namespace LiveDocument

-- An edit is what has been done to the document, as far as the number of lines tells.
def Operation.Matches (operation : Operation) (before : Document) : Prop :=
  operation.request.Fits before.length ∧
    (operation.document before).length = operation.request.resize before.length

def Matching (live : LiveDocument) : List Move → Prop
  | [] => True
  | .work :: rest => Matching (live.move .work) rest
  | .operate operation :: rest =>
    operation.Matches live.document ∧ Matching (live.operate operation) rest

def toldBy (live next : LiveDocument) : List Event := next.events.drop live.events.length

def told (live : LiveDocument) : List Event := live.toldBy (live.move .work)

-- What a step of the worker makes of the lines that have been stored since callers were last told
-- of any.
def storedBy (live next : LiveDocument) (stored : Set Nat) : Set Nat :=
  { line | (∀ ranges, .changed ranges ∉ live.toldBy next) ∧
    (line ∈ stored ∨ live.stores? = some line) }

/-- The lines that have been stored since callers were last told of any, as the document's lines are
numbered now. -/
def storedAfter (live : LiveDocument) (stored : Set Nat) : Move → Set Nat
  | .work => live.storedBy (live.move .work) stored
  | .operate operation => operation.request.carry stored

def storedSince (live : LiveDocument) (stored : Set Nat) : List Move → Set Nat
  | [] => stored
  | move :: rest => storedSince (live.move move) (live.storedAfter stored move) rest

def round (changes : Option (List LineRange)) : List Event :=
  .turned .working :: (changes.map Event.changed).toList ++ [.turned .done]

-- All lines that have not been told of yet, with those of the pass that is going on.
def untold (live : LiveDocument) : List LineRange :=
  live.changed ++
    match live.pass? with
    | none => []
    | some (start, line) => LineRange.between start line

structure Noticed (live : LiveDocument) (stored : Set Nat) : Prop where
  orderly : live.Orderly
  lead : Request.Lead live.queue live.slots.length live.document.length
  proper : LineRange.Proper live.slots.length live.changed
  untold : live.queue.foldl (fun lines request => request.carry lines)
    (LineRange.lines live.untold) = stored
  quiet : live.reported = .done → live.changed = [] ∧ live.pass? = none
  rounds : ∃ rounds : List (Option (List LineRange)), live.events =
    rounds.flatMap round ++ match live.reported with
      | .working => [.turned .working]
      | .done => []

namespace Noticed

variable {live : LiveDocument} {stored : Set Nat}

theorem ofDocument (machine : Machine) (document : Document) (grammar : Grammar)
    (config : Config) : (LiveDocument.ofDocument machine document grammar config).Noticed ∅ where
  orderly := Orderly.ofDocument machine document grammar config
  lead := List.length_replicate
  proper := fun _ => nofun
  untold := LineRange.lines_nil
  quiet := fun _ => ⟨rfl, rfl⟩
  rounds := ⟨[], rfl⟩

theorem operate (noticed : live.Noticed stored) (operation : Operation)
    (fits : operation.Matches live.document) :
    (live.operate operation).Noticed (operation.request.carry stored) := by
  have orderly := noticed.orderly.operate operation
  have queue := live.queue_operate operation
  have same := live.operate_eq operation
  refine ⟨orderly, ?_, ?_, ?_, fun done => ?_, ?_⟩
  · have lead := noticed.lead.concat operation.request fits.1
    rw [← fits.2] at lead
    rw [queue, same]
    exact lead
  · rw [same]
    exact noticed.proper
  · rw [queue, List.foldl_append, same]
    exact congrArg operation.request.carry noticed.untold
  · rw [same] at done ⊢
    exact noticed.quiet done
  · rw [same]
    exact noticed.rounds

theorem length_apply (request : Request) (fits : request.Fits live.slots.length) :
    (live.apply request).slots.length = request.resize live.slots.length := by
  cases request with
  | edited edit => exact live.slots.length_splice edit fits
  | line line => exact List.length_modify _ _ _
  | theme theme => exact List.length_replicate
  | grammar grammar => exact List.length_replicate

theorem proper_apply (proper : LineRange.Proper live.slots.length live.changed) (request : Request)
    (fits : request.Fits live.slots.length) :
    LineRange.Proper (request.resize live.slots.length) (live.apply request).changed := by
  cases request with
  | edited edit => exact LineRange.shift_proper edit proper fits
  | line line => exact proper
  | theme theme => exact proper
  | grammar grammar => exact proper

theorem lines_apply (request : Request) :
    LineRange.lines (live.apply request).changed =
      request.carry (LineRange.lines live.changed) := by
  cases request with
  | edited edit => exact LineRange.lines_shift edit live.changed
  | line line => rfl
  | theme theme => rfl
  | grammar grammar => rfl

theorem untold_between (between : live.pass? = none) : live.untold = live.changed := by
  rw [LiveDocument.untold, between]
  exact List.append_nil _

theorem take (noticed : live.Noticed stored) {request : Request} {rest : Mailbox}
    (taken : live.mail.take? = some (request, rest)) (between : live.pass? = none) :
    (live.take request rest).Noticed stored := by
  have orderly := noticed.orderly.take request rest taken
  have queued : live.queue = request :: rest.requests := Mailbox.requests_of_take? taken
  obtain ⟨-, lead, proper, untold, quiet, rounds⟩ := noticed
  rw [queued] at lead untold
  rw [untold_between between] at untold
  have length := length_apply request lead.1
  have document : (live.take request rest).document = live.document := (live.apply_same request).1
  have told : (live.apply request).reported = live.reported ∧
      (live.apply request).events = live.events := by
    cases request <;> exact ⟨rfl, rfl⟩
  refine ⟨orderly, ?_, ?_, ?_, fun done => ⟨?_, rfl⟩, ?_⟩
  · rw [document]
    exact length.symm ▸ lead.2
  · exact length.symm ▸ proper_apply proper request lead.1
  · rw [untold_between rfl]
    change rest.requests.foldl _ (LineRange.lines (live.apply request).changed) = stored
    rw [lines_apply]
    exact untold
  · have nothing := (quiet (told.1.symm.trans done)).1
    cases request with
    | edited edit => exact congrArg (LineRange.shift edit) nothing
    | line line => exact nothing
    | theme theme => exact nothing
    | grammar grammar => exact nothing
  · obtain ⟨all, shape⟩ := rounds
    exact ⟨all, told.2.trans (shape.trans (by rw [← told.1]; rfl))⟩

theorem still {next : LiveDocument} (noticed : next.Noticed stored)
    (events : next.events = live.events) (idle : live.stores? = none) :
    next.Noticed (live.storedBy next stored) := by
  have same : live.storedBy next stored = stored := by simp [storedBy, toldBy, events, idle]
  exact same.symm ▸ noticed

theorem working (noticed : live.Noticed stored) {place : Nat × Nat}
    (within : live.pass? = some place) : live.reported = .working := by
  cases reported : live.reported with
  | working => rfl
  | done => exact nomatch within.symm.trans (noticed.quiet reported).2

theorem goOn (noticed : live.Noticed stored) {next : LiveDocument} {after : Set Nat}
    (orderly : next.Orderly) (document : next.document = live.document)
    (queue : next.queue = live.queue) (length : next.slots.length = live.slots.length)
    (proper : LineRange.Proper next.slots.length next.changed)
    (untold : next.queue.foldl (fun lines request => request.carry lines)
      (LineRange.lines next.untold) = after)
    (reported : next.reported = live.reported) (events : next.events = live.events)
    (quiet : live.reported = .done → next.changed = [] ∧ next.pass? = none) :
    next.Noticed after where
  orderly := orderly
  lead := by
    rw [document, queue, length]
    exact noticed.lead
  proper := proper
  untold := untold
  quiet := fun done => quiet (reported.symm.trans done)
  rounds := by
    rw [reported, events]
    exact noticed.rounds

theorem keepOn (noticed : live.Noticed stored) {next : LiveDocument} (orderly : next.Orderly)
    (document : next.document = live.document) (queue : next.queue = live.queue)
    (length : next.slots.length = live.slots.length) (changed : next.changed = live.changed)
    (pass : next.pass? = live.pass?) (reported : next.reported = live.reported)
    (events : next.events = live.events) (idle : live.stores? = none) :
    next.Noticed (live.storedBy next stored) := by
  have same : next.untold = live.untold := by
    rw [LiveDocument.untold, LiveDocument.untold, changed, pass]
  refine (noticed.goOn orderly document queue length ?_ ?_ reported events ?_).still events idle
  · rw [length, changed]
    exact noticed.proper
  · rw [queue, same]
    exact noticed.untold
  · rw [changed, pass]
    exact noticed.quiet

theorem leave (noticed : live.Noticed stored) {start line : Nat}
    (within : live.pass? = some (start, line)) (orderly : (live.leave start line).Orderly) :
    (live.leave start line).Noticed stored := by
  have bound := (noticed.orderly.inside start line within).2
  have same : (live.leave start line).untold = live.untold := by
    rw [untold_between rfl, LiveDocument.untold, within]
    rfl
  refine noticed.goOn orderly rfl rfl rfl ?_ ?_ rfl rfl fun done => ?_
  · exact noticed.proper.append (LineRange.between_proper bound.le)
  · rw [same]
    exact noticed.untold
  · exact nomatch (noticed.working within).symm.trans done

theorem store (noticed : live.Noticed stored) {start line : Nat} {tokens : List Token}
    {stack : Stack} (pending : Nat) (phase : live.phase = .storing start line tokens stack)
    (empty : live.queue = []) {next : LiveDocument} (orderly : next.Orderly)
    (slots : next.slots = ⟨(live.slots.store line tokens stack).entries, pending⟩)
    (document : next.document = live.document) (queue : next.queue = live.queue)
    (changed : LineRange.Proper live.slots.length next.changed)
    (untold : next.untold = live.changed ++ LineRange.between start (line + 1))
    (reported : next.reported = live.reported) (events : next.events = live.events) :
    next.Noticed (live.storedBy next stored) := by
  have within : live.pass? = some (start, line) := congrArg Phase.pass? phase
  have length : next.slots.length = live.slots.length := by
    rw [slots]
    exact List.length_set
  refine noticed.goOn orderly document queue length (length.symm ▸ changed) ?_ reported events
    fun done => nomatch (noticed.working within).symm.trans done
  have known := noticed.untold
  rw [empty, LiveDocument.untold, within] at known
  have before := (noticed.orderly.inside start line within).1
  have joins : live.storedBy next stored = { other | other ∈ stored ∨ some line = some other } := by
    have stores : live.stores? = some line := live.stores?_eq_some.mpr ⟨empty, _, _, _, phase⟩
    simp [storedBy, toldBy, events, stores]
  rw [queue, empty, untold, joins, ← known]
  ext other
  have joined : (start ≤ other ∧ other < line + 1) ↔
      (start ≤ other ∧ other < line) ∨ some line = some other := by
    rw [Option.some.injEq]
    omega
  change other ∈ LineRange.lines _ ↔ other ∈ LineRange.lines _ ∨ some line = some other
  rw [LineRange.mem_lines_append, LineRange.mem_lines_append, LineRange.mem_lines_between,
    LineRange.mem_lines_between, joined, or_assoc]

theorem finish_tells (live : LiveDocument) (empty : live.queue = []) {merged : List LineRange}
    (counted : LineRange.merge? live.changed = some merged)
    (proper : LineRange.Proper live.slots.length live.changed) :
    live.finish.changed = [] ∧ live.finish.reported = .done ∧
      live.finish.events = live.events ++ ((if merged = [] then [] else [.changed merged]) ++
        if live.reported = .done then [] else [.turned .done]) := by
  have report (other : LiveDocument) : (other.report .done).changed = other.changed ∧
      (other.report .done).reported = .done ∧ (other.report .done).events =
        other.events ++ if other.reported = .done then [] else [.turned .done] := by
    unfold LiveDocument.report
    split
    · rename_i done
      exact ⟨rfl, done, (List.append_nil _).symm⟩
    · exact ⟨rfl, rfl, rfl⟩
  unfold LiveDocument.finish conclude
  rw [if_pos (settled_of_empty empty)]
  dsimp only
  rw [counted]
  cases merged with
  | nil =>
    have none := (LineRange.merge?_normal proper counted).2.2.2 rfl
    rw [if_pos rfl]
    exact ⟨(report _).1.trans none, (report _).2⟩
  | cons range rest =>
    rw [if_neg (List.cons_ne_nil range rest), ← List.append_assoc]
    exact report _

theorem finish_silent (live : LiveDocument) (empty : live.queue = [])
    (uncounted : LineRange.merge? live.changed = none) :
    live.finish.changed = live.changed ∧ live.finish.reported = live.reported ∧
      live.finish.events = live.events := by
  unfold LiveDocument.finish conclude
  rw [if_pos (settled_of_empty empty)]
  dsimp only
  rw [uncounted]
  exact ⟨rfl, rfl, rfl⟩

theorem changed_mem_told_finish (live : LiveDocument) (empty : live.queue = [])
    (proper : LineRange.Proper live.slots.length live.changed) (ranges : List LineRange) :
    .changed ranges ∈ live.toldBy live.finish ↔
      ranges ≠ [] ∧ LineRange.merge? live.changed = some ranges := by
  rw [toldBy]
  cases counted : LineRange.merge? live.changed with
  | none => simp [(finish_silent live empty counted).2.2]
  | some merged =>
    rw [(finish_tells live empty counted proper).2.2, List.drop_left, Option.some.injEq]
    by_cases nothing : merged = []
    · rw [if_pos nothing, nothing]
      split <;> simp
    · rw [if_neg nothing]
      split <;> simp <;> grind

theorem finish (noticed : live.Noticed stored) (phase : live.phase = .choosing)
    (empty : live.queue = []) (orderly : live.finish.Orderly) :
    live.finish.Noticed (live.storedBy live.finish stored) := by
  have between : live.pass? = none := congrArg Phase.pass? phase
  have settled := live.unheard_finish empty
  have after : live.finish.pass? = none := congrArg (·.phase.pass?) settled
  have queue : live.finish.queue = [] := (congrArg (·.queue) settled).trans empty
  have document : live.finish.document = live.document := congrArg (·.document) settled
  have length : live.finish.slots.length = live.slots.length := congrArg (·.slots.length) settled
  have idle : live.stores? = none := live.stores?_of_phase (by simp [phase])
  cases counted : LineRange.merge? live.changed with
  | none =>
    obtain ⟨changed, reported, events⟩ := finish_silent live empty counted
    exact noticed.keepOn orderly document (queue.trans empty.symm) length changed
      (after.trans between.symm) reported events idle
  | some merged =>
    obtain ⟨changed, reported, events⟩ := finish_tells live empty counted noticed.proper
    have known := noticed.untold
    rw [empty, untold_between between] at known
    refine ⟨orderly, ?_, changed ▸ fun _ => nofun, ?_, fun _ => ⟨changed, after⟩, ?_⟩
    · have lead := noticed.lead
      rw [empty] at lead
      rw [queue, document, length]
      exact lead
    · rw [queue, untold_between after, changed, LineRange.lines_nil]
      refine (Set.eq_empty_of_forall_notMem ?_).symm
      rintro line ⟨quiet, member⟩
      rw [idle, or_iff_left (by simp)] at member
      by_cases nothing : merged = []
      · rw [← known, (LineRange.merge?_normal noticed.proper counted).2.2.2 nothing] at member
        simp at member
      · exact quiet _ ((changed_mem_told_finish live empty noticed.proper _).mpr ⟨nothing, counted⟩)
    · obtain ⟨all, shape⟩ := noticed.rounds
      rw [events, reported, shape]
      cases activity : live.reported with
      | done =>
        rw [(noticed.quiet activity).1, LineRange.merge?_nil] at counted
        obtain rfl : merged = [] := (Option.some.inj counted).symm
        exact ⟨all, by simp⟩
      | working =>
        by_cases nothing : merged = []
        · exact ⟨all ++ [none], by simp [nothing, round]⟩
        · exact ⟨all ++ [some merged], by simp [nothing, round]⟩

theorem report_working (noticed : live.Noticed stored) :
    (live.report .working).changed = live.changed ∧
      (live.report .working).reported = .working ∧
      (∀ ranges, .changed ranges ∉ live.toldBy (live.report .working)) ∧
      ∃ rounds : List (Option (List LineRange)),
        (live.report .working).events = rounds.flatMap round ++ [.turned .working] := by
  obtain ⟨all, shape⟩ := noticed.rounds
  unfold LiveDocument.report toldBy
  split
  · rename_i working
    rw [working] at shape
    exact ⟨rfl, working, by simp, all, shape⟩
  · rename_i idle
    refine ⟨rfl, rfl, by simp [tell], all, ?_⟩
    cases reported : live.reported with
    | working => exact absurd reported idle
    | done =>
      rw [reported, List.append_nil] at shape
      exact congrArg (· ++ [.turned .working]) shape

theorem begin (noticed : live.Noticed stored) (start : Nat) (phase : live.phase = .choosing)
    (orderly : Orderly { live.report .working with phase := .checking start start }) :
    Noticed { live.report .working with phase := .checking start start }
      (live.storedBy { live.report .working with phase := .checking start start } stored) := by
  obtain ⟨changed, reported, silent, rounds⟩ := noticed.report_working
  have same := live.unheard_report .working
  have queue : (live.report .working).queue = live.queue := congrArg (·.queue) same
  have document : (live.report .working).document = live.document := congrArg (·.document) same
  have slots : (live.report .working).slots = live.slots := congrArg (·.slots) same
  have kept : live.storedBy { live.report .working with phase := .checking start start } stored =
      stored := by
    have idle : live.stores? = none := live.stores?_of_phase (by simp [phase])
    ext line
    simp only [storedBy, idle, reduceCtorEq, or_false]
    exact and_iff_right silent
  have known := noticed.untold
  rw [untold_between (congrArg Phase.pass? phase)] at known
  rw [kept]
  refine ⟨orderly, ?_, ?_, ?_, (fun done => nomatch reported.symm.trans done), ?_⟩
  · change Request.Lead (live.report .working).queue _ _
    dsimp only
    rw [queue, document, slots]
    exact noticed.lead
  · dsimp only
    rw [slots, changed]
    exact noticed.proper
  · have nothing : LineRange.between start start = [] := if_neg (Nat.lt_irrefl start)
    change (live.report .working).queue.foldl _ _ = stored
    simp only [LiveDocument.untold, pass?, Phase.pass?, nothing, List.append_nil, queue, changed]
    exact known
  · dsimp only
    rw [reported]
    exact rounds

theorem work (noticed : live.Noticed stored) :
    (live.move .work).Noticed (live.storedAfter stored .work) := by
  have orderly := noticed.orderly.work
  have works := live.work_works
  change (live.move .work).Noticed (live.storedBy (live.move .work) stored)
  generalize live.move .work = next at orderly works ⊢
  cases works with
  | idle phase empty => exact noticed.still rfl (live.stores?_of_phase (by simp [phase]))
  | @take request rest turn taken between =>
    have queued : live.queue = request :: rest.requests := Mailbox.requests_of_take? taken
    exact (noticed.take taken between).still (by cases request <;> rfl)
      (live.stores?_of_busy (by simp [queued]))
  | defer phase fresh =>
    exact noticed.keepOn orderly rfl rfl rfl rfl (congrArg Phase.pass? phase).symm rfl rfl
      (live.stores?_of_phase (by simp [phase]))
  | finish phase empty => exact noticed.finish phase empty orderly
  | begin phase empty inside => exact noticed.begin _ phase orderly
  | check phase empty =>
    exact noticed.keepOn orderly rfl rfl rfl rfl (congrArg Phase.pass? phase).symm rfl rfl
      (live.stores?_of_phase (by simp [phase]))
  | ask phase written =>
    exact noticed.keepOn orderly rfl rfl rfl rfl (congrArg Phase.pass? phase).symm rfl rfl
      (live.stores?_of_phase (by simp [phase]))
  | cut phase empty missing =>
    have inside := (noticed.orderly.inside _ _ (congrArg Phase.pass? phase)).2
    have lead := noticed.lead
    rw [empty] at lead
    exact absurd (inside.trans_eq lead) (Nat.not_lt.mpr (List.getElem?_eq_none_iff.mp missing))
  | leave within reason =>
    have busy := reason.resolve_right (Nat.not_le.mpr (noticed.orderly.inside _ _ within).2)
    exact (noticed.leave within orderly).still rfl (live.stores?_of_busy busy)
  | last pending phase empty =>
    have inside := (noticed.orderly.inside _ _ (congrArg Phase.pass? phase)).2
    exact noticed.store pending phase empty orderly rfl rfl rfl
      (noticed.proper.append (LineRange.between_proper inside)) (List.append_nil _) rfl rfl
  | next pending phase empty inside =>
    exact noticed.store pending phase empty orderly rfl rfl rfl noticed.proper rfl rfl rfl

theorem play (noticed : live.Noticed stored) (moves : List Move) (matching : live.Matching moves) :
    (live.play moves).Noticed (live.storedSince stored moves) := by
  induction moves generalizing live stored with
  | nil => exact noticed
  | cons move rest ih =>
    cases move with
    | work => exact ih noticed.work matching
    | operate operation => exact ih (noticed.operate operation matching.1) matching.2

theorem changed_told (noticed : live.Noticed stored) (ranges : List LineRange)
    (told : .changed ranges ∈ live.told) :
    live.phase = .choosing ∧ live.queue = [] ∧ ranges ≠ [] ∧
      LineRange.merge? live.changed = some ranges := by
  have works := live.work_works
  unfold LiveDocument.told at told
  generalize live.move .work = next at told works
  have silent (events : next.events = live.events) : False := by
    simp [toldBy, events] at told
  cases works with
  | finish phase empty =>
    exact ⟨phase, empty, (changed_mem_told_finish live empty noticed.proper ranges).mp told⟩
  | begin _ _ _ => exact absurd told (noticed.report_working.2.2.1 ranges)
  | @take request _ _ _ _ => exact (silent (by cases request <;> rfl)).elim
  | _ => exact (silent rfl).elim

theorem changed_exact (noticed : live.Noticed stored) (ranges : List LineRange)
    (told : .changed ranges ∈ live.told) :
    ranges ≠ [] ∧ LineRange.Proper live.document.length ranges ∧ LineRange.Apart ranges ∧
      LineRange.lines ranges = stored := by
  obtain ⟨phase, empty, some, counted⟩ := noticed.changed_told ranges told
  have lead := noticed.lead
  have known := noticed.untold
  rw [empty] at lead known
  rw [untold_between (congrArg Phase.pass? phase)] at known
  have proper := noticed.proper
  rw [show live.slots.length = live.document.length from lead] at proper
  obtain ⟨merged, apart, lines, -⟩ := LineRange.merge?_normal proper counted
  exact ⟨some, merged, apart, lines.trans known⟩

end Noticed

/-- Where edits are what has been done to the document, the worker tells of rounds: that it works,
of changed lines if there are any, and that it is done. The changed lines are ranges of the
document, in order and with gaps between them, and they are just those lines that have been stored
since lines were last told of, where later edits have left them. To store a line is to fill its slot,
and no slot is filled otherwise. -/
theorem notices_exact (machine : Machine) (document : Document) (grammar : Grammar)
    (config : Config) (moves : List Move)
    (matching : (ofDocument machine document grammar config).Matching moves) :
    let origin := ofDocument machine document grammar config
    let live := origin.play moves
    let next := live.move .work
    (∃ rounds : List (Option (List LineRange)), live.events <+: rounds.flatMap round) ∧
      (∀ line, live.stores? = some line → ∃ stack tokens,
        next.slots.entries = live.slots.entries.set line ⟨some stack, some tokens, false⟩) ∧
      (∀ (line : Nat) (slot : Slot), next.slots.entries[line]? = some slot →
        slot.isStale = false → slot ∈ live.slots.entries ∨ live.stores? = some line) ∧
      ∀ ranges, .changed ranges ∈ live.told →
        ranges ≠ [] ∧
        (∀ range ∈ ranges, range.first ≤ range.last ∧ range.last < live.document.length) ∧
        (ranges.Pairwise fun range later => range.last + 1 < later.first) ∧
        LineRange.lines ranges = origin.storedSince ∅ moves := by
  intro origin live next
  have noticed : live.Noticed (origin.storedSince ∅ moves) :=
    (Noticed.ofDocument machine document grammar config).play moves matching
  refine ⟨?_, filled_of_stores? noticed.orderly, stores?_of_new noticed.orderly,
    noticed.changed_exact⟩
  obtain ⟨rounds, shape⟩ := noticed.rounds
  rw [shape]
  cases live.reported with
  | done => exact ⟨rounds, by rw [List.append_nil]⟩
  | working =>
    refine ⟨rounds ++ [none], ?_⟩
    rw [List.flatMap_append]
    exact List.prefix_append_right_inj _ |>.mpr ⟨[.turned .done], rfl⟩

-- A line is put in front of the first one, which has been stored and not told of yet.
def growing : List Move :=
  List.replicate 4 .work ++ .operate (.edit ⟨["x", "", "a"]⟩ ⟨0, 0, 1⟩) :: List.replicate 12 .work

theorem growing_told :
    (quotingDocument.play growing).told = [.changed [⟨0, 2⟩], .turned .done] := by
  rw [quotingDocument, quoting_eq]
  cbv

theorem notices_exact_growing :
    quotingDocument.Matching growing ∧
      (quotingDocument.play growing).told = [.changed [⟨0, 2⟩], .turned .done] ∧
      quotingDocument.storedSince ∅ growing = {0, 1, 2} ∧
      ∃ rounds : List (Option (List LineRange)),
        (quotingDocument.play growing).events <+: rounds.flatMap round := by
  have matching : quotingDocument.Matching growing :=
    ⟨⟨Nat.zero_le _, rfl⟩, trivial⟩
  obtain ⟨rounds, -, -, exact⟩ := notices_exact ⟨9, fun _ => none⟩ ⟨["", "a"]⟩ quoting
    Config.default growing matching
  have told := growing_told
  obtain ⟨-, -, -, lines⟩ := exact [⟨0, 2⟩] (told ▸ List.mem_cons_self)
  refine ⟨matching, told, lines.symm.trans ?_, rounds⟩
  ext line
  simp [LineRange.lines]
  omega

end LiveDocument

end Highlighter
