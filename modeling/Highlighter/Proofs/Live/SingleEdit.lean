import Highlighter.Proofs.Live.Passes
import Highlighter.Proofs.Live.Supersession

set_option autoImplicit false

namespace Highlighter

open Live
open LiveDocument (priorAmong)

def Edit.lastLine (edit : Edit) : Nat := edit.start + (edit.added - 1)

namespace Live.Slots

/-- The first line from `first` on that ends with the stack that its slot has kept, and the last
line of all where there is none. -/
structure FirstMet (slots : Slots) (reads : List (List Token × Stack)) (first last : Nat) :
    Prop where
  after : first ≤ last
  inside : last < reads.length
  meets : slots.Meets reads last ∨ last + 1 = reads.length
  earliest : ∀ line, first ≤ line → line < last → ¬ slots.Meets reads line

theorem meets_iff_seen (slots : Slots) (reads : List (List Token × Stack)) (line : Nat) :
    slots.Meets reads line ↔ ∃ seen, (slots.prior? (line + 1)).map Stack.seen = some seen ∧
      (priorAmong none reads (line + 1)).map Stack.seen = some seen := by
  refine ⟨fun ⟨last, read, known, given, same⟩ => ⟨last.seen, ?_, ?_⟩,
    fun ⟨seen, known, given⟩ => ?_⟩
  · exact congrArg (Option.map Stack.seen) known
  · rw [priorAmong, given]
    exact congrArg some ((Stack.same_iff_seen last read.2).mp same).symm
  · obtain ⟨last, kept, rfl⟩ := Option.map_eq_some_iff.mp known
    obtain ⟨stack, ended, same⟩ := Option.map_eq_some_iff.mp given
    obtain ⟨read, there, rfl⟩ := Option.map_eq_some_iff.mp ended
    exact ⟨last, read, kept, there, (Stack.same_iff_seen last read.2).mpr same.symm⟩

section Splice

variable (slots : Slots) (edit : Edit) {line : Nat}

variable (fits : edit.Fits slots.length)

include fits

theorem entries_splice_before (before : line < edit.start) :
    (slots.splice edit).entries[line]? = slots.entries[line]? := by
  rw [slots.getElem?_splice edit fits, if_pos before]

theorem entries_splice_behind (behind : edit.lastLine < line) :
    (slots.splice edit).entries[line]? = slots.entries[line - edit.added + edit.removed]? := by
  unfold Edit.lastLine at behind
  have past : ¬ line < edit.newStop := by
    unfold Edit.newStop
    omega
  have unmarked : ¬ (edit.added = 0 ∧ line = edit.start) := by omega
  rw [slots.getElem?_splice edit fits, if_neg (by omega), if_neg past]
  simp only [if_neg unmarked, Option.map_id']

theorem stale_of_splice (from' : edit.start ≤ line) (upTo : line ≤ edit.lastLine)
    (inside : line < (slots.splice edit).length) :
    ∃ slot, (slots.splice edit).entries[line]? = some slot ∧ slot.isStale = true := by
  have here := List.getElem?_eq_getElem inside
  refine ⟨_, here, ?_⟩
  rw [slots.getElem?_splice edit fits, if_neg (Nat.not_lt.mpr from')] at here
  unfold Edit.lastLine at upTo
  split at here
  · exact Option.some.inj here ▸ rfl
  · rename_i past
    unfold Edit.newStop at past
    have marked : edit.added = 0 ∧ line = edit.start := by omega
    obtain ⟨old, -, same⟩ := Option.map_eq_some_iff.mp here
    rw [if_pos marked] at same
    exact same ▸ rfl

end Splice

end Live.Slots

namespace LiveDocument

open Live (Slots)

def seenOf (read : List Token × Stack) :
    List Token × List (Nat × RuleId × Option String × List String × List String) :=
  (read.1, read.2.seen)

theorem readWhole_resume (grammar : Grammar) (alike : grammar.ReadsAlike) (limits : Limits)
    (untimed : limits.checks = none) (lines others : List String) (line other count : Nat)
    (texts : ∀ place < count, lines[line + place]? = others[other + place]?)
    (start : (priorAmong none (readWhole grammar limits none lines) line).map Stack.seen =
      (priorAmong none (readWhole grammar limits none others) other).map Stack.seen)
    (place : Nat) (inside : place < count) :
    (readWhole grammar limits none lines)[line + place]?.map seenOf =
      (readWhole grammar limits none others)[other + place]?.map seenOf := by
  have known (texts : List String) := priorAmong_known grammar limits texts
    (Grammar.knows_none grammar)
  have here (place : Nat) (inside : place < count)
      (prior : (priorAmong none (readWhole grammar limits none lines)
          (line + place)).map Stack.seen =
        (priorAmong none (readWhole grammar limits none others)
          (other + place)).map Stack.seen) :
      (readWhole grammar limits none lines)[line + place]?.map seenOf =
        (readWhole grammar limits none others)[other + place]?.map seenOf := by
    rw [getElem?_readWhole, getElem?_readWhole, texts place inside]
    cases others[other + place]? with
    | none => simp only [Option.map_none]
    | some text =>
      have same := readLine_alike grammar alike (LineReader.ofGrammar grammar)
        (LineReader.ofGrammar grammar) rfl rfl limits untimed text _ _ (known lines _)
        (known others _) prior
      simp only [Option.map_some, seenOf, same.1, same.2.1]
  -- What a line gives decides the stack that the next one starts with.
  induction place with
  | zero => exact here 0 inside start
  | succ place ih =>
    have ended := congrArg (Option.map Prod.snd) (ih (Nat.lt_of_succ_lt inside))
    rw [Option.map_map, Option.map_map] at ended
    refine here (place + 1) inside ?_
    rw [← Nat.add_assoc, ← Nat.add_assoc, priorAmong, priorAmong, Option.map_map, Option.map_map]
    exact ended

theorem holdsAt_of_kept {grammar : Grammar} {slots kept : Slots}
    {reads others : List (List Token × Stack)} {line place : Nat}
    (holds : slots.HoldsAt grammar reads line) (slot : kept.entries[place]? = slots.entries[line]?)
    (same : others[place]?.map seenOf = reads[line]?.map seenOf) :
    kept.HoldsAt grammar others place := by
  obtain ⟨known, read, here, given, held⟩ := holds
  rw [given] at same
  obtain ⟨other, there, seen⟩ := Option.map_eq_some_iff.mp same
  obtain ⟨tokens, ended⟩ := Prod.mk.inj seen
  exact ⟨known, other, slot.trans here, there, held.of_seen tokens.symm ended.symm⟩

section Edited

variable (live : LiveDocument) (edit : Edit) (lines : List String)

def edited : LiveDocument :=
  { live with
    document := ⟨edit.splice lines live.document.lines⟩
    slots := (live.slots.pendFrom edit.start).splice edit
    activity := .working
    mail := ((live.mail.send (.edited edit)).take?.map (·.2)).getD live.mail
    phase := .choosing }

variable {live} (settled : live.Settled)

include settled

theorem Settled.takes_edit :
    (live.mail.send (.edited edit)).take? = some (.edited edit, (live.edited edit lines).mail) ∧
      (live.edited edit lines).queue = [] := by
  have queued : (live.operate (.edit live.document edit)).queue = [.edited edit] := by
    rw [queue_operate, settled.queue]
    rfl
  obtain ⟨rest, taken, left⟩ := exists_take? queued
  have same : (live.edited edit lines).mail = rest := by
    rw [edited, show (live.mail.send (.edited edit)).take? = some (.edited edit, rest) from taken]
    rfl
  rw [LiveDocument.queue, same]
  exact ⟨taken, left⟩

theorem Settled.goes_to_edited :
    (live.operate (.edit ⟨edit.splice lines live.document.lines⟩ edit)).Goes []
      (live.edited edit lines) := by
  let told := live.operate (.edit ⟨edit.splice lines live.document.lines⟩ edit)
  have phase : told.phase = .waiting := settled.phase
  have taken := (settled.takes_edit edit lines).1
  have takes : told.move .work = live.edited edit lines := by
    simp only [move, step?, settled.phase, told, operate, tellEdit, notify, taken, Option.map_some,
      Option.getD_some, take, apply, settled.changed]
    simp [edited, LineRange.shift, settled.changed]
  have nothing : told.reads? = none := by simp [reads?, phase]
  have goes := Goes.work told
  rwa [nothing, takes] at goes

variable (count : lines.length = edit.added) (fits : edit.Fits live.document.length)

include count fits

omit count in
theorem Settled.room :
    edit.Fits live.slots.length ∧ edit.start + edit.removed ≤ live.slots.length ∧
      (live.edited edit lines).slots.length =
        live.slots.length - edit.removed + edit.added := by
  have room : edit.Fits live.slots.length := settled.length.symm ▸ fits
  exact ⟨room, room, (live.slots.pendFrom edit.start).length_splice edit room⟩

theorem Settled.length_edited :
    (live.edited edit lines).slots.length = (live.edited edit lines).document.length := by
  obtain ⟨-, -, entries⟩ := settled.room edit lines fits
  have texts := edit.length_splice lines live.document.lines count fits
  exact entries.trans ((congrArg (· - edit.removed + edit.added) settled.length).trans texts.symm)

theorem Settled.stopsAt_iff {line : Nat} (behind : edit.start ≤ line)
    (inside : line < (live.edited edit lines).slots.length) :
    (live.edited edit lines).slots.StopsAt (live.edited edit lines).whole line ↔
      edit.lastLine ≤ line ∧
        ((live.edited edit lines).slots.Meets (live.edited edit lines).whole line ∨
          (live.edited edit lines).slots.length ≤ line + 1) := by
  obtain ⟨bound, room, length⟩ := settled.room edit lines fits
  refine ⟨fun stops => ?_, fun ⟨read, ends⟩ => ends.imp_left fun meets => ⟨meets, ?_⟩⟩
  · rcases stops with ⟨meets, ready⟩ | final
    · refine ⟨?_, .inl meets⟩
      by_contra early
      obtain ⟨slot, here, stale⟩ := (live.slots.pendFrom edit.start).stale_of_splice edit bound
        (Nat.le_succ_of_le behind) (Nat.succ_le_of_lt (Nat.lt_of_not_le early))
        (by unfold Edit.lastLine at early; exact length.symm ▸ (by omega))
      exact Bool.false_ne_true ((ready slot here).symm.trans stale)
    · refine ⟨?_, .inr final⟩
      unfold Edit.lastLine
      omega
  · intro slot next
    have here := (live.slots.pendFrom edit.start).entries_splice_behind edit bound
      (Nat.lt_succ_of_le read)
    have old := here.symm.trans next
    obtain ⟨known, _, there, _, held⟩ := settled.holds _ (List.getElem?_eq_some_iff.mp old).1
    obtain rfl := Option.some.inj (old.symm.trans there)
    exact held.fresh

variable (alike : live.grammar.ReadsAlike)

include alike

theorem Settled.holds_before :
    (live.edited edit lines).slots.HoldTo live.grammar (live.edited edit lines).whole
      edit.start := by
  obtain ⟨bound, room, -⟩ := settled.room edit lines fits
  intro line before
  have texts (place : Nat) (early : place < edit.start) :
      (edit.splice lines live.document.lines)[0 + place]? = live.document.lines[0 + place]? := by
    rw [edit.getElem?_splice lines live.document.lines count fits, if_pos (by omega)]
  have same := readWhole_resume live.grammar alike live.untimedLimits rfl _ _ 0 0 edit.start texts
    rfl line before
  rw [Nat.zero_add] at same
  exact holdsAt_of_kept (settled.holds line (by omega))
    ((live.slots.pendFrom edit.start).entries_splice_before edit bound before) same

theorem Settled.holds_behind {last line : Nat} (read : edit.lastLine ≤ last)
    (meets : (live.edited edit lines).slots.Meets (live.edited edit lines).whole last)
    (late : last < line) (inside : line < (live.edited edit lines).slots.length) :
    (live.edited edit lines).slots.HoldsAt live.grammar (live.edited edit lines).whole line := by
  obtain ⟨bound, room, length⟩ := settled.room edit lines fits
  have stop : edit.start < last + 1 ∧ edit.newStop ≤ last + 1 := by
    unfold Edit.lastLine at read
    unfold Edit.newStop
    omega
  have past := stop.2
  unfold Edit.newStop at past
  -- The line behind starts with the stack that it started with.
  have start : (priorAmong none (live.edited edit lines).whole (last + 1)).map Stack.seen =
      (priorAmong none live.whole (last + 1 - edit.added + edit.removed)).map Stack.seen := by
    obtain ⟨seen, known, given⟩ := (Slots.meets_iff_seen _ _ last).mp meets
    have prior := (live.slots.pendFrom edit.start).prior?_splice_behind edit bound (last + 1) stop.2
      stop.1
    have before := (settled.holds.mono
      (by omega : last + 1 - edit.added + edit.removed ≤ live.slots.length)).prior.2
    rw [given, ← before, ← known]
    exact congrArg (Option.map Stack.seen) prior
  have texts (place : Nat) (_ : place < line - last) :
      (edit.splice lines live.document.lines)[last + 1 + place]? =
        live.document.lines[last + 1 - edit.added + edit.removed + place]? := by
    rw [edit.getElem?_splice lines live.document.lines count fits, if_neg (by omega),
      if_neg (by unfold Edit.newStop; omega)]
    congr 1
    omega
  have same := readWhole_resume live.grammar alike live.untimedLimits rfl _ _ (last + 1)
    (last + 1 - edit.added + edit.removed) (line - last) texts start (line - (last + 1)) (by omega)
  have here := (live.slots.pendFrom edit.start).entries_splice_behind edit bound
    (read.trans_lt late)
  rw [Nat.add_sub_cancel' (Nat.succ_le_of_lt late),
    show last + 1 - edit.added + edit.removed + (line - (last + 1)) =
      line - edit.added + edit.removed by omega] at same
  exact holdsAt_of_kept (settled.holds _ (by omega)) here same

theorem Settled.goes_at_end
    (ending : (live.edited edit lines).document.length ≤ edit.start) :
    ∃ next, (live.operate (.edit ⟨edit.splice lines live.document.lines⟩ edit)).Goes [] next ∧
      next.Settled ∧ next.document = ⟨edit.splice lines live.document.lines⟩ ∧
      next.grammar = live.grammar ∧ next.longestLine = live.longestLine ∧
      next.machine = live.machine ∧ next.events = live.events ∧
      ∀ line < edit.start, next.tokens? line = live.tokens? line := by
  let after := live.edited edit lines
  have lead := settled.length_edited edit lines count fits
  have bound := (settled.room edit lines fits).1
  have holds := (settled.holds_before edit lines count fits alike).mono (lead.trans_le ending)
  have nothing : after.changed = [] := settled.changed
  have proper : LineRange.Proper after.slots.length after.changed := nothing ▸ fun _ => nofun
  have counted : LineRange.merge? after.changed = some [] := nothing ▸ LineRange.merge?_nil
  have empty := (settled.takes_edit edit lines).2
  obtain ⟨goes, done⟩ :=
    after.goes_to_finish settled.clock rfl empty settled.grammar lead holds counted proper
  obtain ⟨-, -, events⟩ := Noticed.finish_tells after empty counted proper
  have same := after.unheard_finish empty
  refine ⟨after.finish, (settled.goes_to_edited edit lines).trans goes, done,
    congrArg (·.document) same, congrArg (·.grammar) same, congrArg (·.longestLine) same,
    congrArg (·.machine) same, ?_, fun line before => ?_⟩
  · rw [events, show after.reported = .done from settled.reported]
    simp [after, edited]
  · rw [done.tokens?_eq, settled.tokens?_eq]
    have entries : after.finish.slots.entries = after.slots.entries :=
      congrArg (·.slots.entries) same
    rw [entries]
    exact congrArg (Option.bind · Slot.tokens)
      ((live.slots.pendFrom edit.start).entries_splice_before edit bound before)

theorem Settled.goes_within
    (within : edit.start < (live.edited edit lines).document.length) :
    ∃ last next,
      (live.slots.splice edit).FirstMet (live.edited edit lines).whole edit.lastLine last ∧
      (live.operate (.edit ⟨edit.splice lines live.document.lines⟩ edit)).Goes
        (List.range' edit.start (last + 1 - edit.start)) next ∧
      next.Settled ∧ next.document = ⟨edit.splice lines live.document.lines⟩ ∧
      next.grammar = live.grammar ∧ next.longestLine = live.longestLine ∧
      next.machine = live.machine ∧
      next.events = live.events ++ LiveDocument.round (some [⟨edit.start, last⟩]) ∧
      (∀ line < edit.start, next.tokens? line = live.tokens? line) ∧
      ∀ line, last < line →
        next.tokens? line = live.tokens? (line - edit.added + edit.removed) := by
  let after := live.edited edit lines
  have bound := (settled.room edit lines fits).1
  have lead : after.slots.length = after.document.length :=
    settled.length_edited edit lines count fits
  have holds := settled.holds_before edit lines count fits alike
  have stops {line : Nat} (from' : edit.start ≤ line) (inside : line < after.slots.length) :=
    settled.stopsAt_iff edit lines count fits from' inside
  obtain ⟨slot, here, stale⟩ := (live.slots.pendFrom edit.start).stale_of_splice edit bound le_rfl
    (Nat.le_add_right _ _) (within.trans_eq lead.symm)
  obtain ⟨last, next, behind, inside, stop, early, goes, done, document, grammar, longestLine,
    machine, events, kept⟩ := after.goes_past settled.clock rfl (settled.takes_edit edit lines).2
      settled.grammar lead alike settled.changed settled.reported holds here stale
      fun last behind stop line late inside => by
        obtain ⟨read, meets | final⟩ := (stops behind (late.trans inside)).mp stop
        · exact settled.holds_behind edit lines count fits alike read meets late inside
        · exact absurd (inside.trans_le final) (Nat.not_lt.mpr late)
  obtain ⟨read, ends⟩ := (stops behind inside).mp stop
  have length : after.whole.length = after.slots.length :=
    (length_readWhole _ _ _ _).trans lead.symm
  refine ⟨last, next, ⟨read, inside.trans_eq length.symm, ?_, fun line from' before meets => ?_⟩,
    (settled.goes_to_edited edit lines).trans goes, done, document, grammar, longestLine, machine,
    events, fun line before => ?_, fun line late => ?_⟩
  · exact ends.imp_right fun final => le_antisymm (Nat.succ_le_of_lt (inside.trans_eq length.symm))
      (length.trans_le final)
  · have start : edit.start ≤ line := (Nat.le_add_right _ _).trans from'
    exact early line start before
      ((stops start (before.trans inside)).mpr ⟨from', .inl meets⟩)
  · rw [done.tokens?_eq, settled.tokens?_eq, kept line (.inl before)]
    exact congrArg (Option.bind · Slot.tokens)
      ((live.slots.pendFrom edit.start).entries_splice_before edit bound before)
  · rw [done.tokens?_eq, settled.tokens?_eq, kept line (.inr late)]
    exact congrArg (Option.bind · Slot.tokens)
      ((live.slots.pendFrom edit.start).entries_splice_behind edit bound (read.trans_lt late))

end Edited

/-- After an edit of a document that has been read, the worker reads the lines from the edit on up
to the first one, from the last line that was put in, that ends as its slot tells, or up to the last
line of all. It tells of just these lines, and of nothing where no line is left behind the edit. All
other lines keep their tokens, and in the end the slots hold what reading the whole document
gives. -/
theorem edit_minimal (live : LiveDocument) (alike : live.grammar.ReadsAlike)
    (settled : live.Settled) (edit : Edit) (lines : List String)
    (count : lines.length = edit.added) (fits : edit.Fits live.document.length) :
    let document : Document := ⟨edit.splice lines live.document.lines⟩
    let told := live.operate (.edit document edit)
    let whole := readWhole live.grammar live.untimedLimits none document.lines
    ∃ enough, ∀ steps, enough ≤ steps →
      let moves := List.replicate steps .work
      let after := told.play moves
      after.Settled ∧ after.document = document ∧ after.grammar = live.grammar ∧
        after.longestLine = live.longestLine ∧ after.machine = live.machine ∧
      (∀ line < edit.start, after.tokens? line = live.tokens? line) ∧
      (document.length ≤ edit.start →
        told.linesRead moves = [] ∧ after.events = live.events) ∧
      (edit.start < document.length →
        ∃ last, (live.slots.splice edit).FirstMet whole edit.lastLine last ∧
          told.linesRead moves = List.range' edit.start (last + 1 - edit.start) ∧
          after.events = live.events ++ LiveDocument.round (some [⟨edit.start, last⟩]) ∧
          ∀ line, last < line →
            after.tokens? line = live.tokens? (line - edit.added + edit.removed)) := by
  intro document told whole
  by_cases ending : document.length ≤ edit.start
  · obtain ⟨next, goes, done, same, grammar, longestLine, machine, events, before⟩ :=
      settled.goes_at_end edit lines count fits alike ending
    obtain ⟨enough, comes⟩ := goes.rest done.phase done.queue
    refine ⟨enough, fun steps more => ?_⟩
    obtain ⟨rfl, nothing⟩ := comes steps more
    exact ⟨done, same, grammar, longestLine, machine, before, fun _ => ⟨nothing, events⟩,
      fun within => absurd within (Nat.not_lt.mpr ending)⟩
  · obtain ⟨last, next, met, goes, done, same, grammar, longestLine, machine, events, before,
      behind⟩ :=
      settled.goes_within edit lines count fits alike (Nat.lt_of_not_le ending)
    obtain ⟨enough, comes⟩ := goes.rest done.phase done.queue
    refine ⟨enough, fun steps more => ?_⟩
    obtain ⟨rfl, read⟩ := comes steps more
    exact ⟨done, same, grammar, longestLine, machine, before, fun none => absurd none ending,
      fun _ => ⟨last, met, read, events, behind⟩⟩

theorem quoting_text : (quotingLine "a" none).2.1 = quotingStack false := by
  rw [quotingLine, quotingStack, quoting_eq]
  cbv

theorem quoting_again (isInside : Bool) :
    (quotingLine "x" (some (quotingStack isInside))).2.1 = quotingStack true := by
  rw [quotingLine, quotingStack, quotingStack, quoting_eq]
  cases isInside <;> cbv

theorem quoting_ends {text : String} {isInside : Bool}
    (first : (quotingLine text none).2.1 = quotingStack isInside) (rest : List String) :
    let reads := readWhole quoting quotingLimits none (text :: "x" :: rest)
    priorAmong none reads 1 = some (quotingStack isInside) ∧
      priorAmong none reads 2 = some (quotingStack true) := by
  intro reads
  have second : priorAmong none reads 2 =
      some (quotingLine "x" (some (quotingLine text none).2.1)).2.1 := rfl
  rw [first, quoting_again] at second
  exact ⟨congrArg some first, second⟩

theorem edit_minimal_opening :
    ∃ live, (ofDocument ⟨9, fun _ => none⟩ ⟨["a", "x", "a"]⟩ quoting Config.default).Goes [0, 1, 2] live ∧
      live.Settled ∧
      let told := live.operate (.edit ⟨["x", "x", "a"]⟩ ⟨0, 1, 1⟩)
      ∃ enough, ∀ steps, enough ≤ steps →
        told.linesRead (List.replicate steps .work) = [0, 1] ∧
        (told.play (List.replicate steps .work)).events =
          live.events ++ LiveDocument.round (some [⟨0, 1⟩]) := by
  obtain ⟨live, goes, settled, document, grammar, longestLine, depth⟩ :=
    goes_from_start ⟨9, fun _ => none⟩ ⟨["a", "x", "a"]⟩ quoting Config.default (.inr fun _ => rfl)
      quoting_readsAlike
  have limits : live.untimedLimits = quotingLimits :=
    congrArg₂ (Limits.mk · · none) longestLine depth
  let edit : Edit := ⟨0, 1, 1⟩
  have three : live.slots.length = 3 := settled.length.trans (congrArg Document.length document)
  have fits : edit.Fits live.slots.length := three.symm ▸ Nat.le_of_ble_eq_true rfl
  obtain ⟨enough, all⟩ := edit_minimal live (grammar ▸ quoting_readsAlike) settled edit ["x"] rfl
    (settled.length ▸ fits)
  refine ⟨live, goes, settled, enough, fun steps more => ?_⟩
  obtain ⟨-, -, -, -, -, -, -, reads⟩ := all steps more
  have lines : edit.splice ["x"] live.document.lines = ["x", "x", "a"] := by
    rw [document]
    rfl
  simp only [lines, grammar, limits] at reads
  obtain ⟨last, met, read, events, -⟩ := reads (by decide)
  obtain ⟨was, wasNext⟩ := quoting_ends quoting_text ["a"]
  obtain ⟨now, nowNext⟩ := quoting_ends quoting_open ["a"]
  have kept (line : Nat) (inside : line < 2) :
      ((live.slots.splice edit).prior? (line + 1)).map Stack.seen =
        (priorAmong none (readWhole quoting quotingLimits none ["a", "x", "a"])
          (line + 1)).map Stack.seen := by
    have place := live.slots.lastStack?_splice edit fits line
    rw [live.slots.carried?_eq edit fits] at place
    have same : (live.slots.splice edit).prior? (line + 1) = live.slots.prior? (line + 1) := by
      interval_cases line <;> exact place
    have read := (settled.holds.mono (by omega : line + 1 ≤ live.slots.length)).prior.2
    rw [same, read, LiveDocument.whole, grammar, limits, document]
  have differs : ¬ (live.slots.splice edit).Meets
      (readWhole quoting quotingLimits none ["x", "x", "a"]) 0 := by
    rw [Slots.meets_iff_seen, kept 0 (by decide), was, now]
    rintro ⟨seen, outside, inside⟩
    have same : (quotingStack false).seen = (quotingStack true).seen :=
      Option.some.inj (outside.trans inside.symm)
    exact absurd (congrArg List.length same) (by decide)
  have meets : (live.slots.splice edit).Meets
      (readWhole quoting quotingLimits none ["x", "x", "a"]) 1 :=
    (Slots.meets_iff_seen _ _ 1).mpr
      ⟨_, (kept 1 (by decide)).trans (congrArg _ wasNext), congrArg _ nowNext⟩
  have only : last = 1 := by
    rcases Nat.lt_trichotomy last 1 with first | same | later
    · obtain rfl : last = 0 := by omega
      exact absurd ((met.meets.resolve_left differs).trans (length_readWhole _ _ _ _)) (by decide)
    · exact same
    · exact absurd meets (met.earliest 1 (Nat.zero_le 1) later)
  subst only
  exact ⟨read, events⟩

end LiveDocument

end Highlighter
