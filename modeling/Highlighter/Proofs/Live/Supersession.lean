import Highlighter.Proofs.Live.Convergence

set_option autoImplicit false

namespace Highlighter

open Live

namespace LiveDocument

variable {live : LiveDocument} {overtaken : Set Nat}

def BetweenPasses (live : LiveDocument) : Prop := live.phase = .waiting ∨ live.phase = .choosing

def InTurn (live : LiveDocument) (overtaken : Set Nat) : Prop :=
  match live.phase with
  | .waiting | .choosing => overtaken = ∅
  | .checking _ line | .asking _ line _ | .storing _ line _ _ =>
    live.queue = [] ∧ ∀ other ∈ overtaken, other = line ∧ live.slots.firstPending ≤ line

namespace InTurn

theorem of_unheard {next : LiveDocument} (inTurn : live.InTurn overtaken)
    (same : next.unheard = live.unheard) : next.InTurn overtaken := by
  have unheard : live.unheard.InTurn overtaken := inTurn
  rw [← same] at unheard
  exact unheard

theorem choose (inTurn : live.InTurn overtaken) (phase : live.phase = .choosing) :
    live.choose.InTurn (live.overtakenAfter overtaken) := by
  obtain rfl : overtaken = ∅ := by simpa only [InTurn, phase] using inTurn
  unfold LiveDocument.choose overtakenAfter
  rw [phase]
  cases found : live.slots.firstStale? 0 with
  | none =>
    have finished : live.finish.InTurn ∅ := by
      unfold LiveDocument.finish
      split
      · have waiting : InTurn { live with
            phase := .waiting
            slots := { live.slots with firstPending := live.slots.length }
            activity := .done } ∅ := rfl
        exact waiting.of_unheard (unheard_conclude _)
      · rfl
    cases live.queue <;> exact finished
  | some start =>
    cases queue : live.queue with
    | cons request others =>
      obtain ⟨rest, taken, -⟩ := exists_take? queue
      rw [taken]
      exact move_nothing request
    | nil =>
      rw [take?_of_empty queue]
      have checking : InTurn { live with phase := .checking start start } ∅ :=
        ⟨queue, fun _ member => absurd member (Set.notMem_empty _)⟩
      exact checking.of_unheard (congrArg (fun live => { live with phase := .checking start start })
        (live.unheard_report .working))

theorem ask (inTurn : live.InTurn overtaken) (consistent : live.Consistent overtaken)
    (start line : Nat) (prior : Option Stack) (phase : live.phase = .asking start line prior) :
    (live.ask start line prior).InTurn overtaken := by
  have course := consistent.onCourse
  simp only [InTurn, phase] at inTurn
  simp only [OnCourse, phase] at course
  unfold LiveDocument.ask
  split
  · rename_i missing
    have inside := (course inTurn.1).1
    rw [consistent.length_eq inTurn.1] at inside
    exact absurd inside (Nat.not_lt.mpr (List.getElem?_eq_none_iff.mp missing))
  · exact inTurn

theorem store (inTurn : live.InTurn overtaken) (start line : Nat) (tokens : List Token)
    (stack : Stack) (phase : live.phase = .storing start line tokens stack) :
    (live.store start line tokens stack).InTurn (live.overtakenAfter overtaken) := by
  simp only [InTurn, phase] at inTurn
  obtain ⟨empty, only⟩ := inTurn
  have later (other : Nat) (member : other ∈ live.slots.overtakenAfter line stack overtaken) :
      other = line + 1 ∧ (live.slots.lastStack? line).any (·.same stack) = false ∧
        live.slots.entries[other]?.any (!·.isStale) = true := by
    rcases member with ⟨old, different⟩ | new
    · exact absurd (only other old).1 different
    · exact new
  have beyond (short : live.slots.length ≤ line + 1) :
      live.slots.overtakenAfter line stack overtaken = ∅ := by
    refine Set.eq_empty_of_forall_notMem fun other member => ?_
    obtain ⟨rfl, _, here⟩ := later other member
    rw [List.getElem?_eq_none short] at here
    exact nomatch here
  unfold LiveDocument.store overtakenAfter
  rw [phase, empty]
  dsimp only
  split
  · rename_i outside
    have past : live.slots.length ≤ line := by simpa [settled_of_empty empty] using outside
    exact beyond (past.trans (Nat.le_succ line))
  · split
    · rename_i ends
      -- The pass ends with an equal stack, or at the last line.
      rcases Bool.or_eq_true_iff.mp ends with settled | last
      · refine Set.eq_empty_of_forall_notMem fun other member => ?_
        obtain ⟨_, differs, _⟩ := later other member
        rw [(Bool.and_eq_true_iff.mp settled).1] at differs
        exact nomatch differs
      · exact beyond (by simpa [Slots.store, Slots.length] using last)
    · exact ⟨empty, fun other member => ⟨(later other member).1, le_rfl⟩⟩

theorem step (inTurn : live.InTurn overtaken) (consistent : live.Consistent overtaken)
    (next : LiveDocument) (step : live.step? = some next) :
    next.InTurn (live.overtakenAfter overtaken) := by
  unfold step? at step
  cases phase : live.phase with
  | waiting =>
    obtain rfl : overtaken = ∅ := by simpa only [InTurn, phase] using inTurn
    cases queue : live.queue with
    | nil => simp [phase, take?_of_empty queue] at step
    | cons request others =>
      obtain ⟨rest, taken, -⟩ := exists_take? queue
      simp only [phase, taken] at step
      obtain rfl := Option.some.inj step
      simp only [overtakenAfter, phase, queue]
      exact move_nothing request
  | choosing =>
    simp only [phase] at step
    obtain rfl := Option.some.inj step
    exact inTurn.choose phase
  | checking start line =>
    simp only [phase] at step
    obtain rfl := Option.some.inj step
    simp only [InTurn, phase] at inTurn
    have idle : live.mail.messages.isEmpty = true := Mailbox.isEmpty_messages_iff.mpr inTurn.1
    simp only [overtakenAfter, phase, check, idle, if_true]
    exact inTurn
  | asking start line prior =>
    simp only [phase] at step
    obtain rfl := Option.some.inj step
    simp only [overtakenAfter, phase]
    exact inTurn.ask consistent start line prior phase
  | storing start line tokens stack =>
    simp only [phase] at step
    obtain rfl := Option.some.inj step
    exact inTurn.store start line tokens stack phase

theorem between (inTurn : live.InTurn overtaken) (turn : live.BetweenPasses) : overtaken = ∅ := by
  rcases turn with phase | phase <;> simpa only [InTurn, phase] using inTurn

theorem act (inTurn : live.InTurn overtaken) (turn : live.BetweenPasses) (next : LiveDocument)
    (phase : next.phase = live.phase) : next.InTurn overtaken := by
  have nothing := inTurn.between turn
  rcases turn with here | here <;> simpa only [InTurn, phase, here] using nothing

end InTurn

theorem Runs.inTurn (runs : Runs BetweenPasses live overtaken) : live.InTurn overtaken := by
  induction runs with
  | start => rfl
  | work runs step ih => exact ih.step runs.consistent _ step
  | replace _ turn _ _ _ ih | invalidate _ turn _ ih | grammar _ turn _ _ ih | theme _ turn _ _ ih =>
    exact ih.act turn _ rfl

theorem tokens_of_inTurn (runs : Runs BetweenPasses live overtaken) (line : Nat)
    (tokens : List Token) (ready : live.tokens? line = some tokens) :
    (readAfresh live.grammar live.untimedLimits none live.document.lines)[line]? = some tokens := by
  refine runs.consistent.tokens_correct line tokens ready fun other member => ?_
  have before := live.before_of_tokens? line tokens ready
  have inTurn := runs.inTurn
  unfold InTurn at inTurn
  split at inTurn
  · exact absurd member (inTurn ▸ Set.notMem_empty other)
  · exact absurd member (inTurn ▸ Set.notMem_empty other)
  all_goals
    obtain ⟨rfl, pending⟩ := inTurn.2 other member
    exact before.trans_le pending

structure Shows (grammar : Grammar) (limits : Limits) (lines : List String) (slots : Slots)
    (queue : List Request) (phase : Phase) (live : LiveDocument) : Prop where
  ofLines : live.document.lines = lines
  ofGrammar : live.grammar = grammar
  ofReader : live.reader.grammar = grammar
  ofLimits : live.untimedLimits = limits
  ofSlots : live.slots = slots
  ofQueue : live.queue = queue
  ofPhase : live.phase = phase

def Comes (grammar : Grammar) (limits : Limits) (lines : List String) (slots : Slots)
    (queue : List Request) (phase : Phase) : Prop :=
  ∃ live overtaken, Runs (fun _ => True) live overtaken ∧
    Shows grammar limits lines slots queue phase live

namespace Comes

variable {grammar : Grammar} {limits : Limits} {lines : List String} {slots : Slots}

theorem choose {start : Nat} (comes : Comes grammar limits lines slots [] .choosing)
    (found : slots.firstStale? 0 = some start) :
    Comes grammar limits lines slots [] (.checking start start) := by
  obtain ⟨live, overtaken, runs, shown⟩ := comes
  have step : live.step? = some { live.report .working with phase := .checking start start } := by
    simp [step?, shown.ofPhase, LiveDocument.choose, shown.ofSlots, found,
      take?_of_empty shown.ofQueue]
  have same := live.unheard_report .working
  refine ⟨_, _, runs.work step, ?_⟩
  exact ⟨(congrArg (·.document.lines) same).trans shown.ofLines,
    (congrArg (·.grammar) same).trans shown.ofGrammar,
    (congrArg (·.reader.grammar) same).trans shown.ofReader,
    (congrArg (·.untimedLimits) same).trans shown.ofLimits,
    (congrArg (·.slots) same).trans shown.ofSlots,
    (congrArg (·.queue) same).trans shown.ofQueue, rfl⟩

theorem read {start line : Nat} {text : String}
    (comes : Comes grammar limits lines slots [] (.checking start line))
    (written : lines[line]? = some text) :
    ∃ reader : LineReader, reader.grammar = grammar ∧
      Comes grammar limits lines slots []
        (.storing start line (readLine reader limits text (slots.prior? line)).1
          (readLine reader limits text (slots.prior? line)).2.1) := by
  obtain ⟨live, overtaken, runs, shown⟩ := comes
  have checked : live.step? = some { live with phase := .asking start line (slots.prior? line) } := by
    have idle : live.mail.messages.isEmpty = true := Mailbox.isEmpty_messages_iff.mpr shown.ofQueue
    simp [step?, shown.ofPhase, check, shown.ofSlots, List.isEmpty_iff.mp idle]
  have here : live.document.line? line = some text := by
    rw [Document.line?, shown.ofLines, written]
  have used : live.limits = limits :=
    (live.limits_of_clock runs.consistent.clock).trans shown.ofLimits
  have asked := LiveDocument.ask_written
    { live with phase := .asking start line (slots.prior? line) } start line (slots.prior? line) here
  refine ⟨live.reader, shown.ofReader, _, _, (runs.work checked).work (congrArg some asked), ?_⟩
  have same := readLine_grammar live.reader live.limits text (slots.prior? line)
  exact ⟨shown.ofLines, shown.ofGrammar, same.trans shown.ofReader, shown.ofLimits, shown.ofSlots,
    shown.ofQueue, by rw [← used]; rfl⟩

theorem goOn {start line : Nat} {tokens : List Token} {stack : Stack}
    (comes : Comes grammar limits lines slots [] (.storing start line tokens stack))
    (inside : line + 1 < slots.length)
    (goesOn : ((slots.lastStack? line).any (·.same stack) &&
      (slots.store line tokens stack).entries[line + 1]?.all (!·.isStale)) = false) :
    Comes grammar limits lines ⟨(slots.store line tokens stack).entries, line + 1⟩ []
      (.checking start (line + 1)) := by
  obtain ⟨live, overtaken, runs, shown⟩ := comes
  have length : (slots.store line tokens stack).length = slots.length := List.length_set
  have step : live.step? = some { live with
      slots := ⟨(slots.store line tokens stack).entries, line + 1⟩
      phase := .checking start (line + 1) } := by
    have here : ¬ slots.length ≤ line := by omega
    have next : ¬ slots.length ≤ line + 1 := by omega
    simp [step?, shown.ofPhase, store, shown.ofSlots, settled_of_empty shown.ofQueue, here, goesOn,
      length, next]
  exact ⟨_, _, runs.work step, shown.ofLines, shown.ofGrammar, shown.ofReader, shown.ofLimits, rfl,
    shown.ofQueue, rfl⟩

theorem lastLine {start line : Nat} {tokens : List Token} {stack : Stack}
    (comes : Comes grammar limits lines slots [] (.storing start line tokens stack))
    (last : slots.length = line + 1) :
    Comes grammar limits lines
      ⟨(slots.store line tokens stack).entries,
        ((slots.store line tokens stack).firstStale? (line + 1)).getD
          (slots.store line tokens stack).length⟩ [] .choosing := by
  obtain ⟨live, overtaken, runs, shown⟩ := comes
  have length : (slots.store line tokens stack).length = slots.length := List.length_set
  have step : live.step? = some (LiveDocument.leave { live with
      slots := ⟨(slots.store line tokens stack).entries,
        ((slots.store line tokens stack).firstStale? (line + 1)).getD
          (slots.store line tokens stack).length⟩ } start (line + 1)) := by
    simp [step?, shown.ofPhase, store, shown.ofSlots, settled_of_empty shown.ofQueue, length, last]
  exact ⟨_, _, runs.work step, shown.ofLines, shown.ofGrammar, shown.ofReader, shown.ofLimits, rfl,
    shown.ofQueue, rfl⟩

theorem cutShort {start line : Nat} {request : Request} {rest : List Request}
    (comes : Comes grammar limits lines slots (request :: rest) (.checking start line)) :
    Comes grammar limits lines slots (request :: rest) .choosing := by
  obtain ⟨live, overtaken, runs, shown⟩ := comes
  have busy : ¬ live.mail.messages.isEmpty = true := fun idle =>
    nomatch shown.ofQueue.symm.trans (Mailbox.isEmpty_messages_iff.mp idle)
  have step : live.step? = some (live.leave start line) := by
    simp only [step?, shown.ofPhase, check, if_neg busy]
  exact ⟨_, _, runs.work step, shown.ofLines, shown.ofGrammar, shown.ofReader, shown.ofLimits,
    shown.ofSlots, shown.ofQueue, rfl⟩

theorem take {request : Request} {rest : List Request} {after : Slots}
    (comes : Comes grammar limits lines slots (request :: rest) .choosing)
    (fresh : slots.firstStale? 0 = none)
    (applied : ∀ live : LiveDocument, live.slots = slots →
      (live.apply request).slots = after ∧ (live.apply request).reader = live.reader) :
    Comes grammar limits lines after rest .choosing := by
  obtain ⟨live, overtaken, runs, shown⟩ := comes
  obtain ⟨others, taken, left⟩ := exists_take? shown.ofQueue
  have busy : live.mail.isSettled = false :=
    unsettled_of_busy (shown.ofQueue.symm ▸ List.cons_ne_nil request rest)
  have waits : live.step? = some { live with phase := .waiting } := by
    simp [step?, shown.ofPhase, LiveDocument.choose, finish, shown.ofSlots, busy, fresh]
  have takes : step? { live with phase := .waiting } =
      some (LiveDocument.take { live with phase := .waiting } request others) := by
    simp [step?, taken]
  obtain ⟨slots, reader⟩ := applied { live with phase := .waiting } shown.ofSlots
  obtain ⟨document, own, longest, machine, _⟩ := apply_same { live with phase := .waiting } request
  have limits := congrArg₂ (Limits.mk · · none) longest (congrArg Machine.depth machine)
  exact ⟨_, _, (runs.work waits).work takes, (congrArg Document.lines document).trans shown.ofLines,
    own.trans shown.ofGrammar, (congrArg LineReader.grammar reader).trans shown.ofReader,
    limits.trans shown.ofLimits, slots, left, rfl⟩

theorem sent {live : LiveDocument} {request : Request} (empty : live.queue = []) :
    (live.mail.send request).requests = [request] := by
  rw [Mailbox.requests_send, show live.mail.requests = [] from empty]
  rfl

theorem replaceFirst {old new : String} {rest : List String} {phase : Phase}
    (comes : Comes grammar limits (old :: rest) slots [] phase) :
    Comes grammar limits (new :: rest) (slots.pendFrom 0) [.edited ⟨0, 1, 1⟩] phase := by
  obtain ⟨live, overtaken, runs, shown⟩ := comes
  have document : live.document = ⟨old :: rest⟩ := congrArg Document.mk shown.ofLines
  have edit : live.document.editFor 0 1 [new] = ⟨0, 1, 1⟩ := by
    simp [Document.editFor, document, Document.length]
  have lines : (live.document.replace 0 1 [new]).1.lines = new :: rest := by
    simp only [Document.replace, edit, Edit.splice, Edit.oldStop]
    rw [document]
    rfl
  have told : (live.replace 0 1 [new]).1 =
      LiveDocument.notify { live with document := (live.document.replace 0 1 [new]).1 } 0
        (.edited ⟨0, 1, 1⟩) := by
    rw [← edit]
    rfl
  refine ⟨_, _, runs.replace trivial 0 1 [new], ?_⟩
  rw [told]
  exact ⟨lines, shown.ofGrammar, shown.ofReader, shown.ofLimits,
    congrArg (·.pendFrom 0) shown.ofSlots, sent shown.ofQueue, shown.ofPhase⟩

theorem invalidate {phase : Phase} (comes : Comes grammar limits lines slots [] phase)
    (line : Nat) : Comes grammar limits lines (slots.pendFrom line) [.line line] phase := by
  obtain ⟨live, overtaken, runs, shown⟩ := comes
  exact ⟨_, _, runs.invalidate trivial line, shown.ofLines, shown.ofGrammar, shown.ofReader,
    shown.ofLimits, congrArg (·.pendFrom line) shown.ofSlots,
    sent shown.ofQueue, shown.ofPhase⟩

theorem finish (comes : Comes grammar limits lines slots [] .choosing)
    (fresh : slots.firstStale? 0 = none) :
    ∃ live overtaken, Runs (fun _ => True) live overtaken ∧ live.activity = .done ∧
      Shows grammar limits lines ⟨slots.entries, slots.length⟩ [] .waiting live := by
  obtain ⟨live, overtaken, runs, shown⟩ := comes
  have step : live.step? = some live.finish := by
    simp [step?, shown.ofPhase, LiveDocument.choose, shown.ofSlots, fresh]
  have same : live.finish.unheard = { live with
      phase := .waiting
      slots := { live.slots with firstPending := live.slots.length }
      activity := .done }.unheard := by
    unfold LiveDocument.finish
    rw [if_pos (settled_of_empty shown.ofQueue)]
    exact unheard_conclude _
  refine ⟨_, _, runs.work step, congrArg (·.activity) same, ?_⟩
  exact ⟨(congrArg (·.document.lines) same).trans shown.ofLines,
    (congrArg (·.grammar) same).trans shown.ofGrammar,
    (congrArg (·.reader.grammar) same).trans shown.ofReader,
    (congrArg (·.untimedLimits) same).trans shown.ofLimits,
    (congrArg (·.slots) same).trans (by rw [← shown.ofSlots]; rfl),
    (congrArg (·.queue) same).trans shown.ofQueue, congrArg (·.phase) same⟩

end Comes

section

variable {grammar : Grammar} (alike : grammar.ReadsAlike) (limits : Limits)

-- The first two lines of a document, read with whatever caches.
def firstEnd (reader : LineReader) (text : String) : Stack :=
  (readLine reader limits text none).2.1

def secondTokens (reader next : LineReader) (text second : String) : List Token :=
  (readLine next limits second (some (firstEnd limits reader text))).1

theorem firstEnd_known (reader : LineReader) (used : reader.grammar = grammar) (text : String) :
    grammar.Knows (some (firstEnd limits reader text)) := by
  subst used
  intro stack same
  exact Option.some.inj same ▸
    readLine_returned reader limits text none (Grammar.knows_none reader.grammar)

variable (untimed : limits.checks = none)

include alike untimed

theorem firstEnd_seen (reader : LineReader) (used : reader.grammar = grammar) (text : String) :
    (firstEnd limits reader text).seen =
      (firstEnd limits (LineReader.ofGrammar grammar) text).seen :=
  (readLine_alike grammar alike reader (LineReader.ofGrammar grammar) used rfl limits
    untimed text none none (Grammar.knows_none _) (Grammar.knows_none _) rfl).2.1

theorem secondTokens_eq (reader next : LineReader) (used : reader.grammar = grammar)
    (usedNext : next.grammar = grammar) (text second : String) :
    secondTokens limits reader next text second =
      secondTokens limits (LineReader.ofGrammar grammar) (LineReader.ofGrammar grammar) text
        second :=
  (readLine_alike grammar alike next (LineReader.ofGrammar grammar) usedNext rfl limits
    untimed second _ _ (firstEnd_known limits reader used text)
    (firstEnd_known limits (LineReader.ofGrammar grammar) rfl text)
    (congrArg some (firstEnd_seen alike limits untimed reader used text))).1

end

theorem overtaken_for_good (machine : Machine) (grammar : Grammar) (alike : grammar.ReadsAlike)
    (config : Config) (untimed : Untimed machine config) (old new second : String) :
    let limits : Limits := ⟨config.longestLine, machine.depth, none⟩
    let fresh := LineReader.ofGrammar grammar
    (firstEnd limits fresh old).same (firstEnd limits fresh new) = false →
    secondTokens limits fresh fresh old second ≠ secondTokens limits fresh fresh new second →
    ∃ live overtaken, Runs (fun _ => True) live overtaken ∧ live.activity = .done ∧
      (live.tokens? 1).isSome = true ∧
      live.tokens? 1 ≠
        (readAfresh live.grammar live.untimedLimits none live.document.lines)[1]? := by
  intro limits fresh differs matters
  have start : Comes grammar limits [old, second] (Slots.unread 2) [] .choosing :=
    ⟨_, _, .start machine ⟨[old, second]⟩ grammar config untimed alike, rfl, rfl, rfl, rfl, rfl, rfl,
      rfl⟩
  obtain ⟨first, usedFirst, stored⟩ := (start.choose rfl).read rfl
  obtain ⟨next, usedNext, stored⟩ := (stored.goOn (by decide) rfl).read rfl
  have edited : Comes grammar limits [new, second] _ _ _ := (stored.lastLine rfl).replaceFirst
  have taken := edited.take rfl fun live same => ⟨congrArg (·.splice ⟨0, 1, 1⟩) same, rfl⟩
  obtain ⟨again, usedAgain, stored⟩ := (taken.choose rfl).read rfl
  have changed : (firstEnd limits first old).same (firstEnd limits again new) = false := by
    rw [Bool.eq_false_iff] at differs ⊢
    rwa [Ne, Stack.same_iff_seen, firstEnd_seen alike limits rfl first usedFirst,
      firstEnd_seen alike limits rfl again usedAgain, ← Stack.same_iff_seen]
  -- The pass is on its way to the second line when the request comes.
  have gone := stored.goOn (Nat.lt_succ_self 1) (Bool.and_eq_false_iff.mpr (.inl changed))
  have left := ((gone.invalidate 2).cutShort).take rfl
    fun live same => ⟨congrArg (·.invalidate 2) same, rfl⟩
  obtain ⟨live, overtaken, runs, done, shown⟩ := left.finish rfl
  have tokens : live.tokens? 1 = some (secondTokens limits first next old second) := by
    simp only [tokens?, shown.ofSlots]
    rfl
  refine ⟨live, overtaken, runs, done, by rw [tokens]; rfl, ?_⟩
  rw [tokens, secondTokens_eq alike limits rfl first next usedFirst usedNext, shown.ofGrammar,
    shown.ofLimits, shown.ofLines]
  exact fun same => matters (Option.some.inj same)

def quotingLimits : Limits := ⟨Config.default.longestLine, 9, none⟩

def quotingLine (text : String) (prior : Option Stack) : List Token × Stack × LineReader × Bool :=
  readLine (LineReader.ofGrammar quoting) quotingLimits text prior

theorem quoting_blank : (quotingLine "" none).2.1 = quotingStack false := by
  rw [quotingLine, quotingStack, quoting_eq]
  cbv

theorem quoting_open : (quotingLine "x" none).2.1 = quotingStack true := by
  rw [quotingLine, quotingStack, quoting_eq]
  cbv

theorem quoting_outside :
    (quotingLine "a" (some (quotingStack false))).1 = [⟨0, 1, ["t"], 0⟩] := by
  rw [quotingLine, quotingStack, quoting_eq]
  cbv

theorem quoting_inside :
    (quotingLine "a" (some (quotingStack true))).1 = [⟨0, 1, ["t", "s"], 0⟩] := by
  rw [quotingLine, quotingStack, quoting_eq]
  cbv

theorem done_not_afresh :
    ∃ live overtaken, Runs (fun _ => True) live overtaken ∧ live.activity = .done ∧
      (live.tokens? 1).isSome = true ∧
      live.tokens? 1 ≠
        (readAfresh live.grammar live.untimedLimits none live.document.lines)[1]? := by
  refine overtaken_for_good ⟨9, fun _ => none⟩ quoting quoting_readsAlike Config.default
    (.inr fun _ => rfl) "" "x" "a" ?_ ?_
  · change (quotingLine "" none).2.1.same (quotingLine "x" none).2.1 = false
    rw [quoting_blank, quoting_open, quotingStack, quotingStack, quoting_eq]
    cbv
  · change (quotingLine "a" (some (quotingLine "" none).2.1)).1 ≠
      (quotingLine "a" (some (quotingLine "x" none).2.1)).1
    rw [quoting_blank, quoting_open, quoting_outside, quoting_inside]
    decide

end LiveDocument

end Highlighter
