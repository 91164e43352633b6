import Highlighter.Proofs.Live.Notices

set_option autoImplicit false

namespace Highlighter

open Live

namespace LiveDocument

def readWhole (grammar : Grammar) (limits : Limits) (prior : Option Stack) :
    List String → List (List Token × Stack)
  | [] => []
  | line :: rest =>
    let (tokens, stack, _) := readLine (LineReader.ofGrammar grammar) limits line prior
    (tokens, stack) :: readWhole grammar limits (some stack) rest

def whole (live : LiveDocument) : List (List Token × Stack) :=
  readWhole live.grammar live.untimedLimits none live.document.lines

def priorAmong (prior : Option Stack) (reads : List (List Token × Stack)) : Nat → Option Stack
  | 0 => prior
  | line + 1 => reads[line]?.map (·.2)

section Whole

variable (grammar : Grammar) (limits : Limits) (prior : Option Stack) (lines : List String)

theorem readWhole_tokens :
    (readWhole grammar limits prior lines).map (·.1) =
      readAfresh grammar limits prior lines := by
  induction lines generalizing prior with
  | nil => rfl
  | cons line rest ih => exact congrArg (_ :: ·) (ih _)

theorem length_readWhole : (readWhole grammar limits prior lines).length = lines.length := by
  induction lines generalizing prior with
  | nil => rfl
  | cons line rest ih => exact congrArg Nat.succ (ih _)

theorem getElem?_readWhole (line : Nat) :
    (readWhole grammar limits prior lines)[line]? =
      lines[line]?.map fun text =>
        let read := readLine (LineReader.ofGrammar grammar) limits text
          (priorAmong prior (readWhole grammar limits prior lines) line)
        (read.1, read.2.1) := by
  induction lines generalizing prior line with
  | nil => rfl
  | cons first rest ih =>
    cases line with
    | zero => rfl
    | succ line =>
      refine (ih _ line).trans ?_
      cases line <;> rfl

variable {prior}

theorem priorAmong_known (knows : grammar.Knows prior) (line : Nat) :
    grammar.Knows (priorAmong prior (readWhole grammar limits prior lines) line) := by
  induction line with
  | zero => exact knows
  | succ line ih =>
    intro stack same
    obtain ⟨read, here, rfl⟩ := Option.map_eq_some_iff.mp same
    rw [getElem?_readWhole] at here
    obtain ⟨text, -, rfl⟩ := Option.map_eq_some_iff.mp here
    exact readLine_returned (LineReader.ofGrammar grammar) limits text _ ih

variable {grammar} in
theorem read_of_whole (untimed : limits.checks = none) (alike : grammar.ReadsAlike)
    (knows : grammar.Knows prior)
    (reader : LineReader) (used : reader.grammar = grammar) {line : Nat} {text : String}
    (written : lines[line]? = some text) {start : Option Stack} (knowsStart : grammar.Knows start)
    (seen : start.map Stack.seen =
      (priorAmong prior (readWhole grammar limits prior lines) line).map Stack.seen) :
    ∃ read, (readWhole grammar limits prior lines)[line]? = some read ∧
      (readLine reader limits text start).1 = read.1 ∧
      (readLine reader limits text start).2.1.seen = read.2.seen := by
  refine ⟨_, (getElem?_readWhole grammar limits prior lines line).trans
    (congrArg (Option.map _) written), ?_⟩
  have same := readLine_alike grammar alike reader (LineReader.ofGrammar grammar) used rfl limits
    untimed text start _ knowsStart (priorAmong_known grammar limits lines knows line) seen
  exact ⟨same.1, same.2.1⟩

end Whole

end LiveDocument

open LiveDocument (priorAmong readLine)

namespace Live

structure Slot.Holds (grammar : Grammar) (slot : Slot) (read : List Token × Stack) : Prop where
  fresh : slot.isStale = false
  tokens : slot.tokens = some read.1
  stack : ∃ last, slot.stack = some last ∧ last.same read.2 = true ∧ Returned (· = grammar) last

theorem Slot.Holds.of_seen {grammar : Grammar} {slot : Slot} {read other : List Token × Stack}
    (holds : slot.Holds grammar read) (tokens : read.1 = other.1)
    (seen : read.2.seen = other.2.seen) : slot.Holds grammar other := by
  obtain ⟨fresh, held, last, stack, same, returned⟩ := holds
  rw [Stack.same_iff_seen, seen, ← Stack.same_iff_seen] at same
  exact ⟨fresh, tokens ▸ held, last, stack, same, returned⟩

namespace Slots

variable (slots : Slots) (grammar : Grammar) (reads : List (List Token × Stack))

def HoldsAt (line : Nat) : Prop :=
  ∃ slot read, slots.entries[line]? = some slot ∧ reads[line]? = some read ∧
    slot.Holds grammar read

def HoldTo (limit : Nat) : Prop := ∀ line < limit, slots.HoldsAt grammar reads line

def Meets (line : Nat) : Prop :=
  ∃ last read, slots.lastStack? line = some last ∧ reads[line]? = some read ∧
    last.same read.2 = true

def StopsAt (line : Nat) : Prop :=
  slots.Meets reads line ∧ (∀ slot, slots.entries[line + 1]? = some slot → slot.isStale = false) ∨
    slots.length ≤ line + 1

variable {slots grammar reads}

theorem HoldTo.mono {limit less : Nat} (holds : slots.HoldTo grammar reads limit)
    (le : less ≤ limit) : slots.HoldTo grammar reads less :=
  fun line before => holds line (before.trans_le le)

theorem HoldTo.currentTo {limit : Nat} (holds : slots.HoldTo grammar reads limit) :
    slots.CurrentTo limit := by
  intro line before
  obtain ⟨slot, read, here, -, held⟩ := holds line before
  exact ⟨slot, here, held.fresh⟩

theorem HoldTo.prior {limit : Nat} (holds : slots.HoldTo grammar reads limit) :
    grammar.Knows (slots.prior? limit) ∧
      (slots.prior? limit).map Stack.seen = (priorAmong none reads limit).map Stack.seen := by
  cases limit with
  | zero => exact ⟨Grammar.knows_none grammar, rfl⟩
  | succ line =>
    obtain ⟨slot, read, here, there, -, -, last, stack, same, returned⟩ :=
      holds line (Nat.lt_succ_self line)
    have prior : slots.prior? (line + 1) = some last := by
      simp only [prior?, lastStack?, here, Option.bind_some, stack]
    refine ⟨prior ▸ fun _ known => Option.some.inj known ▸ returned, ?_⟩
    rw [prior, priorAmong, there]
    exact congrArg some ((Stack.same_iff_seen last read.2).mp same)

theorem firstStale?_eq_some {start : Nat} {slot : Slot} (current : slots.CurrentTo start)
    (here : slots.entries[start]? = some slot) (stale : slot.isStale = true) :
    slots.firstStale? 0 = some start := by
  obtain ⟨inside, rfl⟩ := List.getElem?_eq_some_iff.mp here
  have found : slots.entries.findIdx? (·.isStale) = some start := by
    refine List.findIdx?_eq_some_iff_getElem.mpr ⟨inside, stale, fun line before => ?_⟩
    obtain ⟨other, there, fresh⟩ := current line before
    obtain ⟨_, rfl⟩ := List.getElem?_eq_some_iff.mp there
    simpa using fresh
  simp [firstStale?, found]

theorem firstStale?_eq_none (current : slots.CurrentTo slots.length) :
    slots.firstStale? 0 = none := by
  have fresh : slots.entries.findIdx? (·.isStale) = none := by
    refine List.findIdx?_eq_none_iff.mpr fun slot member => ?_
    obtain ⟨line, inside, rfl⟩ := List.getElem_of_mem member
    obtain ⟨other, there, fresh⟩ := current line inside
    obtain ⟨_, rfl⟩ := List.getElem?_eq_some_iff.mp there
    exact fresh
  simp [firstStale?, fresh]

end Slots

end Live

namespace LiveDocument

def reads? (live : LiveDocument) : Option Nat :=
  match live.phase with
  | .asking _ line _ => (live.document.line? line).map fun _ => line
  | _ => none

def linesRead (live : LiveDocument) : List Move → List Nat
  | [] => []
  | .work :: rest => live.reads?.toList ++ linesRead (live.move .work) rest
  | .operate operation :: rest => linesRead (live.operate operation) rest

theorem linesRead_append (live : LiveDocument) (moves others : List Move) :
    live.linesRead (moves ++ others) =
      live.linesRead moves ++ (live.play moves).linesRead others := by
  induction moves generalizing live with
  | nil => rfl
  | cons move rest ih =>
    cases move with
    | work =>
      exact (congrArg (live.reads?.toList ++ ·) (ih (live.move .work))).trans
        (List.append_assoc _ _ _).symm
    | operate operation => exact ih (live.operate operation)

def Goes (live : LiveDocument) (lines : List Nat) (next : LiveDocument) : Prop :=
  ∃ steps, live.play (List.replicate steps .work) = next ∧
    live.linesRead (List.replicate steps .work) = lines

namespace Goes

variable {live next : LiveDocument} {lines : List Nat}

theorem work (live : LiveDocument) : live.Goes live.reads?.toList (live.move .work) :=
  ⟨1, rfl, List.append_nil _⟩

theorem trans {more : List Nat} {last : LiveDocument} (first : live.Goes lines next)
    (second : next.Goes more last) : live.Goes (lines ++ more) last := by
  obtain ⟨steps, rfl, rfl⟩ := first
  obtain ⟨others, rfl, rfl⟩ := second
  refine ⟨steps + others, ?_, ?_⟩
  · rw [← List.replicate_append_replicate, play_append]
  · rw [← List.replicate_append_replicate, linesRead_append]

theorem trans_eq {last : LiveDocument} (goes : live.Goes lines next) (same : next = last) :
    live.Goes lines last :=
  same ▸ goes

theorem rest (goes : live.Goes lines next) (phase : next.phase = .waiting)
    (empty : next.queue = []) :
    ∃ enough, ∀ steps, enough ≤ steps →
      live.play (List.replicate steps .work) = next ∧
        live.linesRead (List.replicate steps .work) = lines := by
  have idle : next.move .work = next := by simp [move, step?, phase, take?_of_empty empty]
  have nothing : next.reads? = none := by simp [reads?, phase]
  have stays (extra : Nat) : next.play (List.replicate extra .work) = next ∧
      next.linesRead (List.replicate extra .work) = [] := by
    induction extra with
    | zero => exact ⟨rfl, rfl⟩
    | succ extra ih =>
      simp only [List.replicate_succ, play, List.foldl_cons, linesRead, idle, nothing]
      exact ih
  obtain ⟨enough, comes, read⟩ := goes
  refine ⟨enough, fun steps more => ?_⟩
  obtain ⟨extra, rfl⟩ := Nat.exists_eq_add_of_le more
  rw [← List.replicate_append_replicate, play_append, linesRead_append, comes, read,
    (stays extra).2, List.append_nil]
  exact ⟨(stays extra).1, rfl⟩

end Goes

structure Course where
  slots : Slots
  reader : LineReader
  readings : Nat
  lost : Bool

def course (live : LiveDocument) : Course :=
  ⟨live.slots, live.reader, live.readings, live.lost⟩

def reached (origin : LiveDocument) (course : Course) (phase : Phase) : LiveDocument :=
  { origin with
    slots := course.slots
    reader := course.reader
    readings := course.readings
    phase
    lost := course.lost }

section Round

variable (origin : LiveDocument) (empty : origin.queue = [])

include empty

theorem goes_to_store (clock : origin.machine.clock = fun _ => none) (course : Course)
    (start line : Nat) {text : String} (written : origin.document.line? line = some text) :
    let read := readLine course.reader origin.untimedLimits text (course.slots.prior? line)
    let after : Course :=
      ⟨course.slots, read.2.2.1, course.readings + 1, course.lost || read.2.2.2⟩
    let storing := origin.reached after (.storing start line read.1 read.2.1)
    (origin.reached course (.checking start line)).Goes [line]
      (storing.store start line read.1 read.2.1) := by
  intro read after storing
  let asking := origin.reached course (.asking start line (course.slots.prior? line))
  have checks : (origin.reached course (.checking start line)).move .work = asking := by
    have none : origin.mail.messages.isEmpty = true := Mailbox.isEmpty_messages_iff.mpr empty
    simp [move, step?, reached, check, List.isEmpty_iff.mp none, asking]
  have limits : asking.limits = origin.untimedLimits := asking.limits_of_clock clock
  have asks : asking.move .work = storing := by
    have asked := asking.ask_written start line (course.slots.prior? line) written
    rw [limits] at asked
    exact asked
  have lines : asking.reads?.toList = [line] := by simp [reads?, asking, reached, written]
  have first := Goes.work (origin.reached course (.checking start line))
  have second := Goes.work asking
  rw [checks] at first
  rw [asks, lines] at second
  exact (first.trans second).trans (Goes.work storing)

theorem store_undisturbed (start line : Nat) (tokens : List Token) (stack : Stack)
    (inside : line < origin.slots.length) :
    let isLast := (origin.slots.lastStack? line).any (·.same stack) = true ∧
        (∀ slot, origin.slots.entries[line + 1]? = some slot → slot.isStale = false) ∨
      origin.slots.length ≤ line + 1
    let stored (pending : Nat) : Slots :=
      ⟨(origin.slots.store line tokens stack).entries, pending⟩
    (isLast → ∃ pending, origin.store start line tokens stack =
      { origin with slots := stored pending }.leave start (line + 1)) ∧
    (¬ isLast → origin.store start line tokens stack =
      { origin with slots := stored (line + 1), phase := .checking start (line + 1) }) := by
  intro isLast stored
  have next : (origin.slots.store line tokens stack).entries[line + 1]? =
      origin.slots.entries[line + 1]? := List.getElem?_set_ne (Nat.succ_ne_self line).symm
  have length : (origin.slots.store line tokens stack).length = origin.slots.length :=
    List.length_set
  have test : (((origin.slots.lastStack? line).any (·.same stack) &&
        (origin.slots.store line tokens stack).entries[line + 1]?.all (!·.isStale)) ||
      decide ((origin.slots.store line tokens stack).length ≤ line + 1)) = true ↔ isLast := by
    simp [next, length, isLast, Option.all_eq_true]
  unfold LiveDocument.store
  rw [if_neg (by simp [settled_of_empty empty, inside])]
  dsimp only
  refine ⟨fun last => ?_, fun more => ?_⟩
  · rw [if_pos (test.mpr last)]
    exact ⟨_, rfl⟩
  · rw [if_neg (mt test.mp more)]

end Round

structure Passing (origin : LiveDocument) (start line : Nat) (course : Course) : Prop where
  grammar : course.reader.grammar = origin.grammar
  length : course.slots.length = origin.slots.length
  holds : course.slots.HoldTo origin.grammar origin.whole line
  kept : ∀ other, other < start ∨ line ≤ other →
    course.slots.entries[other]? = origin.slots.entries[other]?

namespace Passing

variable {origin : LiveDocument} (alike : origin.grammar.ReadsAlike) {start line : Nat}
  {course : Course}

include alike

theorem read (passing : origin.Passing start line course) (within : start ≤ line)
    (inside : line < course.slots.length) {text : String}
    (written : origin.document.line? line = some text) (pending : Nat) :
    let read := readLine course.reader origin.untimedLimits text (course.slots.prior? line)
    (∀ readings lost, origin.Passing start (line + 1)
      ⟨⟨(course.slots.store line read.1 read.2.1).entries, pending⟩, read.2.2.1, readings, lost⟩) ∧
      ((course.slots.lastStack? line).any (·.same read.2.1) = true ↔
        origin.slots.Meets origin.whole line) := by
  intro read
  obtain ⟨knows, seen⟩ := passing.holds.prior
  obtain ⟨given, here, tokens, stack⟩ := read_of_whole origin.untimedLimits origin.document.lines
    rfl alike (Grammar.knows_none _) course.reader passing.grammar written knows seen
  have returned : Returned (· = origin.grammar) read.2.1 := by
    rw [← passing.grammar] at knows ⊢
    exact readLine_returned course.reader origin.untimedLimits text _ knows
  have place := course.slots.getElem?_store inside read.1 read.2.1
  refine ⟨fun readings lost => ⟨?_, ?_, ?_, ?_⟩, ?_⟩
  · exact (readLine_grammar course.reader origin.untimedLimits text _).trans passing.grammar
  · exact List.length_set.trans passing.length
  · intro other before
    by_cases same : line = other
    · subst same
      refine ⟨_, given, (place line).trans (if_pos rfl), here, rfl, congrArg some tokens, _, rfl,
        ?_, returned⟩
      exact (Stack.same_iff_seen _ _).mpr stack
    · obtain ⟨slot, known, filled⟩ := passing.holds other (by omega)
      exact ⟨slot, known, (place other).trans (if_neg same) |>.trans filled.1, filled.2⟩
  · intro other outside
    rw [← passing.kept other (outside.imp_right (by omega))]
    exact (place other).trans (if_neg (by omega))
  · have last : course.slots.lastStack? line = origin.slots.lastStack? line :=
      congrArg (Option.bind · Slot.stack) (passing.kept line (.inr le_rfl))
    rw [last, Option.any_eq_true]
    constructor
    · rintro ⟨before, known, same⟩
      refine ⟨before, given, known, here, ?_⟩
      rwa [Stack.same_iff_seen, ← stack, ← Stack.same_iff_seen]
    · rintro ⟨before, other, known, there, same⟩
      obtain rfl := Option.some.inj (here.symm.trans there)
      refine ⟨before, known, ?_⟩
      rwa [Stack.same_iff_seen, stack, ← Stack.same_iff_seen]

theorem round (clock : origin.machine.clock = fun _ => none) (empty : origin.queue = [])
    (lead : origin.slots.length = origin.document.length)
    (passing : origin.Passing start line course) (within : start ≤ line)
    (inside : line < origin.slots.length) :
    ∃ after, origin.Passing start (line + 1) after ∧
      (origin.slots.StopsAt origin.whole line →
        (origin.reached course (.checking start line)).Goes [line]
          ((origin.reached after .choosing).leave start (line + 1))) ∧
      (¬ origin.slots.StopsAt origin.whole line →
        (origin.reached course (.checking start line)).Goes [line]
          (origin.reached after (.checking start (line + 1)))) := by
  have bound : line < course.slots.length := passing.length.symm ▸ inside
  have written := List.getElem?_eq_getElem (inside.trans_eq lead)
  have goes := origin.goes_to_store empty clock course start line written
  have onward (pending : Nat) := (passing.read alike within bound written pending).1
  have meets := (passing.read alike within bound written 0).2
  dsimp only at goes onward meets
  generalize readLine course.reader origin.untimedLimits _ (course.slots.prior? line) = read
    at goes onward meets
  obtain ⟨tokens, stack, reader, tooDeep⟩ := read
  obtain ⟨stop, goOn⟩ := store_undisturbed
    (origin.reached ⟨course.slots, reader, course.readings + 1, course.lost || tooDeep⟩
      (.storing start line tokens stack)) empty start line tokens stack bound
  have stops : origin.slots.StopsAt origin.whole line ↔
      ((course.slots.lastStack? line).any (·.same stack) = true ∧
        (∀ slot, course.slots.entries[line + 1]? = some slot → slot.isStale = false) ∨
      course.slots.length ≤ line + 1) := by
    rw [Slots.StopsAt, meets, passing.kept (line + 1) (.inr (Nat.le_succ line)), passing.length]
  by_cases isLast : origin.slots.StopsAt origin.whole line
  · obtain ⟨pending, stored⟩ := stop (stops.mp isLast)
    exact ⟨_, onward pending _ _, fun _ => goes.trans_eq stored, fun more => absurd isLast more⟩
  · have stored := goOn (mt stops.mpr isLast)
    exact ⟨_, onward (line + 1) _ _, fun last => absurd last isLast,
      fun _ => goes.trans_eq stored⟩

theorem ends (clock : origin.machine.clock = fun _ => none) (empty : origin.queue = [])
    (lead : origin.slots.length = origin.document.length)
    (passing : origin.Passing start line course) (within : start ≤ line)
    (inside : line < origin.slots.length) :
    ∃ last after, line ≤ last ∧ last < origin.slots.length ∧
      origin.slots.StopsAt origin.whole last ∧
      (∀ other, line ≤ other → other < last → ¬ origin.slots.StopsAt origin.whole other) ∧
      origin.Passing start (last + 1) after ∧
      (origin.reached course (.checking start line)).Goes (List.range' line (last + 1 - line))
        ((origin.reached after .choosing).leave start (last + 1)) := by
  induction left : origin.slots.length - line generalizing line course with
  | zero => omega
  | succ left ih =>
    obtain ⟨after, passed, stop, goOn⟩ := passing.round alike clock empty lead within inside
    by_cases isLast : origin.slots.StopsAt origin.whole line
    · have one : List.range' line (line + 1 - line) = [line] := by
        rw [Nat.add_sub_cancel_left]
        rfl
      exact ⟨line, after, le_rfl, inside, isLast, fun other _ _ => by omega, passed,
        one ▸ stop isLast⟩
    · have more : line + 1 < origin.slots.length := by
        by_contra past
        exact isLast (.inr (Nat.le_of_not_lt past))
      obtain ⟨last, final, behind, before, here, first, done, rest⟩ :=
        ih passed (within.trans (Nat.le_succ line)) more (by omega)
      have lines : List.range' line (last + 1 - line) =
          [line] ++ List.range' (line + 1) (last + 1 - (line + 1)) := by
        have count : last + 1 - line = (last + 1 - (line + 1)) + 1 := by omega
        rw [count, List.range'_succ]
        rfl
      refine ⟨last, final, Nat.le_of_succ_le behind, before, here, ?_, done,
        lines ▸ (goOn isLast).trans rest⟩
      intro other from' ahead
      rcases Nat.eq_or_lt_of_le from' with rfl | later
      · exact isLast
      · exact first other later ahead

end Passing

/-- The worker waits, callers know of all that it has done, and the slots hold what reading the
whole document gives. -/
structure Settled (live : LiveDocument) : Prop where
  clock : live.machine.clock = fun _ => none
  grammar : live.reader.grammar = live.grammar
  queue : live.queue = []
  phase : live.phase = .waiting
  activity : live.activity = .done
  changed : live.changed = []
  reported : live.reported = .done
  pending : live.slots.firstPending = live.slots.length
  length : live.slots.length = live.document.length
  holds : live.slots.HoldTo live.grammar live.whole live.slots.length

theorem Settled.tokens?_eq {live : LiveDocument} (settled : live.Settled) (line : Nat) :
    live.tokens? line = live.slots.entries[line]?.bind (·.tokens) := by
  by_cases inside : line < live.slots.length
  · obtain ⟨slot, read, here, -, held⟩ := settled.holds line inside
    rw [live.tokens?_of_current line slot (settled.pending.symm ▸ inside) here held.fresh, here]
    rfl
  · have missing : live.slots.entries[line]? = none :=
      List.getElem?_eq_none_iff.mpr (Nat.le_of_not_lt inside)
    have late : ¬ line < live.slots.firstPending := settled.pending.symm ▸ inside
    simp [tokens?, Slots.tokens?, Slots.current?, late, missing]

theorem Settled.tokens?_afresh {live : LiveDocument} (settled : live.Settled) (line : Nat) :
    live.tokens? line =
      (readAfresh live.grammar live.untimedLimits none live.document.lines)[line]? := by
  rw [settled.tokens?_eq, ← readWhole_tokens, List.getElem?_map]
  change _ = live.whole[line]?.map _
  by_cases inside : line < live.slots.length
  · obtain ⟨slot, read, here, given, held⟩ := settled.holds line inside
    rw [here, given]
    exact held.tokens
  · have past := Nat.le_of_not_lt inside
    have missing : live.whole[line]? = none := by
      refine List.getElem?_eq_none_iff.mpr ?_
      rw [whole, length_readWhole]
      exact settled.length.symm.le.trans past
    rw [missing, List.getElem?_eq_none_iff.mpr past]
    rfl

section Choosing

variable (live : LiveDocument) (clock : live.machine.clock = fun _ => none)
  (phase : live.phase = .choosing) (empty : live.queue = [])
  (grammar : live.reader.grammar = live.grammar) (lead : live.slots.length = live.document.length)

include clock phase empty grammar lead

theorem goes_to_finish (holds : live.slots.HoldTo live.grammar live.whole live.slots.length)
    {merged : List LineRange} (counted : LineRange.merge? live.changed = some merged)
    (proper : LineRange.Proper live.slots.length live.changed) :
    live.Goes [] live.finish ∧ live.finish.Settled := by
  have fresh := Slots.firstStale?_eq_none holds.currentTo
  have chosen : live.move .work = live.finish := by
    simp [move, step?, phase, choose, fresh]
  have nothing : live.reads? = none := by simp [reads?, phase]
  have goes := Goes.work live
  rw [nothing, chosen] at goes
  obtain ⟨changed, reported, -⟩ := Noticed.finish_tells live empty counted proper
  have same := live.unheard_finish empty
  have slots : live.finish.slots = { live.slots with firstPending := live.slots.length } :=
    congrArg (·.slots) same
  have whole : live.finish.whole = live.whole := congrArg (·.whole) same
  have own : live.finish.grammar = live.grammar := congrArg (·.grammar) same
  refine ⟨goes, (congrArg (·.machine.clock) same).trans clock,
    (congrArg (·.reader.grammar) same).trans (grammar.trans own.symm),
    (congrArg (·.queue) same).trans empty, congrArg (·.phase) same, congrArg (·.activity) same,
    changed, reported, ?_, ?_, ?_⟩
  · rw [slots]
    rfl
  · rw [slots]
    exact lead.trans (congrArg (·.document.length) same).symm
  · rw [slots, whole, own]
    exact holds

theorem goes_past (alike : live.grammar.ReadsAlike) (changed : live.changed = [])
    (reported : live.reported = .done) {start : Nat} {slot : Slot}
    (holds : live.slots.HoldTo live.grammar live.whole start)
    (here : live.slots.entries[start]? = some slot) (stale : slot.isStale = true)
    (behind : ∀ last, start ≤ last → live.slots.StopsAt live.whole last → ∀ line, last < line →
      line < live.slots.length → live.slots.HoldsAt live.grammar live.whole line) :
    ∃ last next, start ≤ last ∧ last < live.slots.length ∧ live.slots.StopsAt live.whole last ∧
      (∀ other, start ≤ other → other < last → ¬ live.slots.StopsAt live.whole other) ∧
      live.Goes (List.range' start (last + 1 - start)) next ∧ next.Settled ∧
      next.document = live.document ∧ next.grammar = live.grammar ∧
      next.longestLine = live.longestLine ∧ next.machine = live.machine ∧
      next.events = live.events ++ LiveDocument.round (some [⟨start, last⟩]) ∧
      ∀ line, line < start ∨ last < line →
        next.slots.entries[line]? = live.slots.entries[line]? := by
  let origin : LiveDocument :=
    { live with
      reported := .working
      events := live.events ++ [.turned .working]
      phase := .checking start start }
  have found := Slots.firstStale?_eq_some holds.currentTo here stale
  have begins : live.move .work = origin := by
    simp [move, step?, phase, choose, found, take?_of_empty empty, report, reported, tell, origin]
  have nothing : live.reads? = none := by simp [reads?, phase]
  have first := Goes.work live
  rw [nothing, begins] at first
  have begun : origin.Passing start start origin.course :=
    ⟨grammar, rfl, holds, fun _ _ => rfl⟩
  obtain ⟨last, course, after, inside, stops, early, passed, goes⟩ :=
    begun.ends (show origin.grammar.ReadsAlike from alike) clock empty lead le_rfl
      (List.getElem?_eq_some_iff.mp here).1
  let left := (origin.reached course .choosing).leave start (last + 1)
  have told : left.changed = [⟨start, last⟩] := by
    simp [left, leave, reached, origin, changed, LineRange.between, Nat.lt_succ_of_le after]
  -- Lines up to the last one have been read on the way, and those behind it hold already.
  have all : left.slots.HoldTo left.grammar left.whole left.slots.length := by
    intro line before
    by_cases known : line < last + 1
    · exact passed.holds line known
    · have late : last < line := Nat.lt_of_succ_le (Nat.le_of_not_lt known)
      obtain ⟨slot, read, there, given, held⟩ :=
        behind last after stops line late (before.trans_eq passed.length)
      exact ⟨slot, read, (passed.kept line (.inr late)).trans there, given, held⟩
  have proper : LineRange.Proper left.slots.length left.changed := by
    rw [told]
    intro range member
    obtain rfl := List.mem_singleton.mp member
    exact ⟨after, inside.trans_eq passed.length.symm⟩
  have counted : LineRange.merge? left.changed = some [⟨start, last⟩] :=
    told.symm ▸ LineRange.merge?_singleton _
  obtain ⟨rest, settled⟩ := left.goes_to_finish clock rfl empty passed.grammar
    (passed.length.trans lead) all counted proper
  obtain ⟨-, -, events⟩ := Noticed.finish_tells left empty counted proper
  have same := left.unheard_finish empty
  refine ⟨last, left.finish, after, inside, stops, early, ?_, settled, congrArg (·.document) same,
    congrArg (·.grammar) same, congrArg (·.longestLine) same, congrArg (·.machine) same, ?_,
    fun line other => ?_⟩
  · have whole := (first.trans goes).trans rest
    rwa [List.append_nil] at whole
  · rw [events]
    exact List.append_assoc _ _ _
  · exact (congrArg (·.slots.entries[line]?) same).trans
      (passed.kept line (other.imp_right Nat.succ_le_of_lt))

end Choosing

theorem goes_from_start (machine : Machine) (document : Document) (grammar : Grammar)
    (config : Config) (untimed : Untimed machine config) (alike : grammar.ReadsAlike) :
    ∃ live, (ofDocument machine document grammar config).Goes (List.range' 0 document.length) live ∧
      live.Settled ∧ live.document = document ∧ live.grammar = grammar ∧
      live.longestLine = config.longestLine ∧ live.machine.depth = machine.depth := by
  let origin := ofDocument machine document grammar config
  have clock := clock_ofDocument untimed document grammar
  have lead : origin.slots.length = document.length := List.length_replicate
  have unread (line : Nat) (slot : Slot) (here : origin.slots.entries[line]? = some slot) :
      slot = Slot.unread none := List.eq_of_mem_replicate (List.mem_of_getElem? here)
  by_cases blank : document.length = 0
  · have nothing : origin.slots.length = 0 := lead.trans blank
    obtain ⟨goes, settled⟩ := origin.goes_to_finish clock rfl rfl rfl lead
      (fun line before => absurd (before.trans_eq nothing) (Nat.not_lt_zero line))
      LineRange.merge?_nil fun _ => nofun
    have same := origin.unheard_finish rfl
    rw [blank]
    exact ⟨_, goes, settled, congrArg (·.document) same, congrArg (·.grammar) same,
      congrArg (·.longestLine) same, congrArg (·.machine.depth) same⟩
  · have inside : 0 < origin.slots.entries.length :=
      (Nat.pos_of_ne_zero blank).trans_eq lead.symm
    have here := List.getElem?_eq_getElem inside
    -- No line has been read before, so no line ends as it did.
    have untilEnd (last : Nat) (stops : origin.slots.StopsAt origin.whole last) :
        document.length ≤ last + 1 := by
      rcases stops with ⟨⟨stack, _, known, -⟩, -⟩ | final
      · obtain ⟨slot, there, held⟩ := Option.bind_eq_some_iff.mp known
        rw [unread last slot there] at held
        exact nomatch held
      · exact lead.symm.le.trans final
    obtain ⟨last, live, -, before, stops, -, goes, settled, same, own, longestLine, kept, -⟩ :=
      origin.goes_past clock rfl rfl rfl lead alike rfl rfl
        (fun line before => absurd before (Nat.not_lt_zero line)) here
        (by rw [unread 0 _ here]; rfl)
        fun last _ stops line late inside =>
          absurd (untilEnd last stops) (Nat.not_le.mpr
            (Nat.lt_of_le_of_lt (Nat.succ_le_of_lt late) (inside.trans_eq lead)))
    have final : last + 1 - 0 = document.length :=
      le_antisymm (Nat.succ_le_of_lt (before.trans_eq lead)) (untilEnd last stops)
    exact ⟨live, final ▸ goes, settled, same, own, longestLine, by rw [kept]; rfl⟩

end LiveDocument

end Highlighter
