import Highlighter.Proofs.Live.Afresh

set_option autoImplicit false

namespace Highlighter

namespace Edit

def Fits (edit : Edit) (size : Nat) : Prop := edit.oldStop ≤ size

def move (edit : Edit) (lines : Set Nat) : Set Nat :=
  { line | line < edit.start ∧ line ∈ lines ∨
    edit.newStop ≤ line ∧ line - edit.added + edit.removed ∈ lines }

theorem getElem?_splice {α : Type} (edit : Edit) (inserted items : List α)
    (count : inserted.length = edit.added) (fits : edit.Fits items.length) (line : Nat) :
    (edit.splice inserted items)[line]? =
      if line < edit.start then items[line]?
      else if line < edit.newStop then inserted[line - edit.start]?
      else items[line - edit.added + edit.removed]? := by
  have inside : edit.start ≤ items.length := (Nat.le_add_right _ _).trans fits
  have head : (items.take edit.start).length = edit.start := by simp [inside]
  unfold splice newStop oldStop
  rw [List.append_assoc]
  split
  · rename_i before
    rw [List.getElem?_append_left (by omega), List.getElem?_take_of_lt before]
  · rename_i behind
    rw [List.getElem?_append_right (by omega), head]
    split
    · rw [List.getElem?_append_left (by omega)]
    · rw [List.getElem?_append_right (by omega), List.getElem?_drop]
      congr 1
      omega

theorem length_splice {α : Type} (edit : Edit) (inserted items : List α)
    (count : inserted.length = edit.added) (fits : edit.Fits items.length) :
    (edit.splice inserted items).length = items.length - edit.removed + edit.added := by
  unfold Fits oldStop at fits
  simp only [splice, oldStop, List.length_append, List.length_take, List.length_drop, count]
  omega

end Edit

namespace Document

variable (document : Document) (start count : Nat) (lines : List String)

theorem editFor_fits : (document.editFor start count lines).Fits document.length := by
  simp only [editFor, Edit.Fits, Edit.oldStop]
  omega

theorem line?_replace (line : Nat) :
    (document.replace start count lines).1.line? line =
      let edit := document.editFor start count lines
      if line < edit.start then document.line? line
      else if line < edit.newStop then lines[line - edit.start]?
      else document.line? (line - edit.added + edit.removed) :=
  Edit.getElem?_splice _ lines document.lines rfl (document.editFor_fits start count lines) line

theorem length_replace :
    (document.replace start count lines).1.length =
      document.length - (document.editFor start count lines).removed + lines.length :=
  Edit.length_splice _ lines document.lines rfl (document.editFor_fits start count lines)

end Document

namespace Live

namespace Slots

theorem length_inserted (count : Nat) (carried : Option Stack) :
    (inserted count carried).length = count := by
  cases count <;> simp [inserted]

theorem getElem?_inserted (count : Nat) (carried : Option Stack) (line : Nat)
    (inside : line < count) :
    (inserted count carried)[line]? =
      some (Slot.unread (if line + 1 = count then carried else none)) := by
  cases count with
  | zero => exact absurd inside (Nat.not_lt_zero _)
  | succ count =>
    unfold inserted
    by_cases last : line = count
    · subst last
      simp
    · have before : line < count := by omega
      rw [List.getElem?_append_left (by simpa using before), List.getElem?_replicate,
        if_pos before, if_neg (by omega)]

theorem lastStack?_markStale (entries : List Slot) (place pending line : Nat) :
    lastStack? ⟨entries.modify place markStale, pending⟩ line =
      lastStack? ⟨entries, pending⟩ line := by
  simp only [lastStack?, List.getElem?_modify]
  cases entries[line]? with
  | none => rfl
  | some slot =>
    simp only [Option.bind_some]
    by_cases marked : place = line <;> simp [marked, markStale]

theorem current_of_markStale (entries : List Slot) (place line : Nat) (slot : Slot)
    (here : (entries.modify place markStale)[line]? = some slot) (current : slot.isStale = false) :
    line ≠ place ∧ entries[line]? = some slot := by
  rw [List.getElem?_modify] at here
  obtain ⟨before, known, same⟩ := Option.map_eq_some_iff.mp here
  by_cases marked : place = line
  · rw [if_pos marked] at same
    subst same
    exact nomatch current
  · rw [if_neg marked] at same
    exact ⟨Ne.symm marked, known.trans (congrArg some same)⟩

theorem lastStack?_invalidate (slots : Slots) (place line : Nat) :
    (slots.invalidate place).lastStack? line = slots.lastStack? line :=
  lastStack?_markStale _ place _ line

theorem prior?_invalidate (slots : Slots) (place line : Nat) :
    (slots.invalidate place).prior? line = slots.prior? line := by
  cases line with
  | zero => rfl
  | succ line => exact slots.lastStack?_invalidate place line

section Store

variable (slots : Slots) {line : Nat} (inside : line < slots.length) (tokens : List Token)
  (stack : Stack)

include inside

theorem getElem?_store (other : Nat) :
    (slots.store line tokens stack).entries[other]? =
      if line = other then some ⟨some stack, some tokens, false⟩ else slots.entries[other]? := by
  have bound : line < slots.entries.length := inside
  simp only [store, List.getElem?_set, bound, if_true]

theorem lastStack?_store (other pending : Nat) :
    lastStack? ⟨(slots.store line tokens stack).entries, pending⟩ other =
      if line = other then some stack else slots.lastStack? other := by
  simp only [lastStack?, slots.getElem?_store inside]
  split <;> rfl

theorem prior?_store (other pending : Nat) :
    prior? ⟨(slots.store line tokens stack).entries, pending⟩ other =
      if line + 1 = other then some stack else slots.prior? other := by
  cases other with
  | zero => rfl
  | succ other =>
    simp only [prior?, slots.lastStack?_store inside, Nat.add_right_cancel_iff]

end Store

variable (slots : Slots) (edit : Edit) (fits : edit.Fits slots.length)

include fits

theorem getElem?_splice (line : Nat) :
    (slots.splice edit).entries[line]? =
      if line < edit.start then slots.entries[line]?
      else if line < edit.newStop then
        some (Slot.unread (if line + 1 = edit.newStop then slots.carried? edit else none))
      else slots.entries[line - edit.added + edit.removed]?.map fun slot =>
        if edit.added = 0 ∧ line = edit.start then markStale slot else slot := by
  have place := edit.getElem?_splice (inserted edit.added (slots.carried? edit)) slots.entries
    (length_inserted _ _) fits line
  by_cases nothing : edit.added = 0
  · have same : edit.newStop = edit.start := by rw [Edit.newStop, nothing, Nat.add_zero]
    simp only [splice, if_pos nothing, List.getElem?_modify, place, same]
    by_cases before : line < edit.start
    · simp [before, Nat.ne_of_gt before]
    · simp [before, nothing, eq_comm]
  · simp only [splice, if_neg nothing, place]
    by_cases before : line < edit.start
    · simp only [if_pos before]
    · by_cases within : line < edit.newStop
      · unfold Edit.newStop at within ⊢
        rw [getElem?_inserted _ _ _ (by omega)]
        simp only [if_neg before, if_pos within]
        congr 3
        simp only [eq_iff_iff]
        omega
      · simp [before, within, nothing]

theorem lastStack?_splice (line : Nat) :
    (slots.splice edit).lastStack? line =
      if line < edit.start then slots.lastStack? line
      else if line < edit.newStop then (if line + 1 = edit.newStop then slots.carried? edit else none)
      else slots.lastStack? (line - edit.added + edit.removed) := by
  simp only [lastStack?, slots.getElem?_splice edit fits]
  split
  · rfl
  · split
    · rfl
    · cases slots.entries[line - edit.added + edit.removed]? with
      | none => rfl
      | some slot => by_cases marked : edit.added = 0 ∧ line = edit.start <;> simp [marked, markStale]

theorem length_splice :
    (slots.splice edit).length = slots.length - edit.removed + edit.added := by
  have count := edit.length_splice (inserted edit.added (slots.carried? edit)) slots.entries
    (length_inserted _ _) fits
  simp only [splice, length]
  split
  · rw [List.length_modify, count]
  · exact count

theorem current_of_splice (line : Nat) (slot : Slot)
    (here : (slots.splice edit).entries[line]? = some slot) (current : slot.isStale = false) :
    line < edit.start ∧ slots.entries[line]? = some slot ∨
      edit.newStop ≤ line ∧ edit.start < line ∧
        slots.entries[line - edit.added + edit.removed]? = some slot := by
  rw [slots.getElem?_splice edit fits] at here
  split at here
  · exact .inl ⟨‹_›, here⟩
  · split at here
    · obtain rfl := Option.some.inj here
      exact nomatch current
    · obtain ⟨old, known, same⟩ := Option.map_eq_some_iff.mp here
      by_cases marked : edit.added = 0 ∧ line = edit.start
      · rw [if_pos marked] at same
        subst same
        exact nomatch current
      · rw [if_neg marked] at same
        refine .inr ⟨by omega, ?_, known.trans (congrArg some same)⟩
        unfold Edit.newStop at *
        omega

theorem carried?_eq : slots.carried? edit = slots.prior? edit.oldStop := by
  unfold Edit.Fits at fits
  have inside : edit.start ≤ edit.oldStop := Nat.le_add_right _ _
  simp only [carried?, Nat.min_eq_left fits, Nat.min_eq_left (inside.trans fits)]
  split
  · rfl
  · rw [le_antisymm inside (Nat.le_of_not_lt ‹_›)]

theorem prior?_splice_before (line : Nat) (before : line ≤ edit.start) :
    (slots.splice edit).prior? line = slots.prior? line := by
  cases line with
  | zero => rfl
  | succ line =>
    simp only [prior?, slots.lastStack?_splice edit fits, if_pos (Nat.lt_of_succ_le before)]

theorem prior?_splice_behind (line : Nat) (behind : edit.newStop ≤ line)
    (later : edit.start < line) :
    (slots.splice edit).prior? line = slots.prior? (line - edit.added + edit.removed) := by
  cases line with
  | zero => exact absurd later (Nat.not_lt_zero _)
  | succ line =>
    have after : ¬ line < edit.start := by omega
    simp only [prior?, slots.lastStack?_splice edit fits, if_neg after]
    split
    · rename_i within
      have last : line + 1 = edit.newStop := by omega
      have stop : line + 1 - edit.added + edit.removed = edit.oldStop := by
        unfold Edit.newStop at last
        unfold Edit.oldStop
        omega
      rw [if_pos last, slots.carried?_eq edit fits, stop]
      rfl
    · rename_i past
      have next : line + 1 - edit.added + edit.removed =
          (line - edit.added + edit.removed) + 1 := by
        unfold Edit.newStop at past
        omega
      rw [next]

end Slots

open LiveDocument (Limits readLine)

-- The slot holds what reading the line gives, from a stack that is seen as the one before it is.
def UpToDate (grammar : Grammar) (limits : Limits) (text : String) (prior : Option Stack)
    (slot : Slot) : Prop :=
  ∃ (reader : LineReader) (start : Option Stack), reader.grammar = grammar ∧ grammar.Knows start ∧
    start.map Stack.seen = prior.map Stack.seen ∧
    slot.tokens = some (readLine reader limits text start).1 ∧
    slot.stack = some (readLine reader limits text start).2.1

def Request.move : Request → Set Nat → Set Nat
  | .edited edit, lines => edit.move lines
  | .line _, lines => lines
  | .theme _, _ | .grammar _, _ => ∅

def Request.first : Request → Nat
  | .edited edit => edit.start
  | .line place => place
  | .theme _ | .grammar _ => 0

-- A line that is stored is no longer overtaken. When it ends otherwise than before, the next line is
-- overtaken if its slot is current.
def Slots.overtakenAfter (slots : Slots) (line : Nat) (stack : Stack) (overtaken : Set Nat) :
    Set Nat :=
  { other | other ∈ overtaken ∧ other ≠ line ∨
    other = line + 1 ∧ (slots.lastStack? line).any (·.same stack) = false ∧
      slots.entries[other]?.any (!·.isStale) = true }

theorem UpToDate.of_seen {grammar : Grammar} {limits : Limits} {text : String}
    {prior other : Option Stack} {slot : Slot} (now : UpToDate grammar limits text prior slot)
    (same : prior.map Stack.seen = other.map Stack.seen) :
    UpToDate grammar limits text other slot := by
  obtain ⟨reader, start, used, knows, seen, tokens, stack⟩ := now
  exact ⟨reader, start, used, knows, seen.trans same, tokens, stack⟩

/-- The slots of a document with the grammar that they were filled with. `overtaken` holds the lines
that passes were on their way to when they were cut short. -/
structure Knowledge where
  slots : Slots
  overtaken : Set Nat
  grammar : Grammar

namespace Knowledge

def take (knowledge : Knowledge) (request : Request) : Knowledge :=
  let overtaken := request.move knowledge.overtaken
  match request with
  | .edited edit => ⟨knowledge.slots.splice edit, overtaken, knowledge.grammar⟩
  | .line line => ⟨knowledge.slots.invalidate line, overtaken, knowledge.grammar⟩
  | .theme theme => ⟨knowledge.slots.invalidateAll, overtaken, knowledge.grammar.withTheme theme⟩
  | .grammar grammar => ⟨knowledge.slots.invalidateAll, overtaken, grammar⟩

structure Sound (limits : Limits) (document : Document) (knowledge : Knowledge) : Prop where
  length : knowledge.slots.length = document.length
  known : ∀ line, knowledge.grammar.Knows (knowledge.slots.lastStack? line)
  filled : ∀ (line : Nat) (slot : Slot), knowledge.slots.entries[line]? = some slot →
    slot.isStale = false → slot.tokens.isSome = true ∧ slot.stack.isSome = true
  current : ∀ (line : Nat) (slot : Slot) (text : String),
    knowledge.slots.entries[line]? = some slot → slot.isStale = false →
    line ∉ knowledge.overtaken → document.line? line = some text →
    UpToDate knowledge.grammar limits text (knowledge.slots.prior? line) slot

namespace Sound

variable {limits : Limits} {document : Document} {knowledge : Knowledge}

theorem prior_known (sound : knowledge.Sound limits document) (line : Nat) :
    knowledge.grammar.Knows (knowledge.slots.prior? line) := by
  cases line with
  | zero => exact Grammar.knows_none _
  | succ line => exact sound.known line

theorem edited (sound : knowledge.Sound limits document) (start count : Nat)
    (lines : List String) :
    (knowledge.take (.edited (document.editFor start count lines))).Sound limits
      (document.replace start count lines).1 := by
  set edit := document.editFor start count lines with here
  have fits : edit.Fits knowledge.slots.length :=
    sound.length.symm ▸ document.editFor_fits start count lines
  have added : edit.added = lines.length := rfl
  refine ⟨?_, ?_, ?_, ?_⟩
  · rw [Document.length_replace, ← sound.length]
    exact knowledge.slots.length_splice edit fits
  · intro line stack last
    change (knowledge.slots.splice edit).lastStack? line = some stack at last
    rw [knowledge.slots.lastStack?_splice edit fits] at last
    split at last
    · exact sound.known _ stack last
    · split at last
      · split at last
        · rw [knowledge.slots.carried?_eq edit fits] at last
          exact sound.prior_known _ stack last
        · exact nomatch last
      · exact sound.known _ stack last
  · intro line slot known current
    rcases knowledge.slots.current_of_splice edit fits line slot known current with
      ⟨_, before⟩ | ⟨_, _, behind⟩
    · exact sound.filled _ slot before current
    · exact sound.filled _ slot behind current
  · intro line slot text known current paid written
    rw [Document.line?_replace] at written
    simp only [← here] at written
    rcases knowledge.slots.current_of_splice edit fits line slot known current with
      ⟨earlier, before⟩ | ⟨behind, later, after⟩
    · rw [if_pos earlier] at written
      have owed : line ∉ knowledge.overtaken := fun overtaken => paid (.inl ⟨earlier, overtaken⟩)
      have same := knowledge.slots.prior?_splice_before edit fits line earlier.le
      exact same ▸ sound.current line slot text before current owed written
    · rw [if_neg (by omega), if_neg (by omega)] at written
      have owed : line - edit.added + edit.removed ∉ knowledge.overtaken :=
        fun overtaken => paid (.inr ⟨behind, overtaken⟩)
      have same := knowledge.slots.prior?_splice_behind edit fits line behind later
      exact same ▸ sound.current _ slot text after current owed written

theorem line (sound : knowledge.Sound limits document) (line : Nat) :
    (knowledge.take (.line line)).Sound limits document := by
  refine ⟨?_, fun other => ?_, ?_, ?_⟩
  · exact (List.length_modify _ _ _).trans sound.length
  · exact (knowledge.slots.lastStack?_invalidate line other).symm ▸ sound.known other
  · intro other slot here current
    exact sound.filled other slot (Slots.current_of_markStale _ _ _ _ here current).2 current
  · intro other slot text here current paid written
    exact (knowledge.slots.prior?_invalidate line other).symm ▸
      sound.current other slot text (Slots.current_of_markStale _ _ _ _ here current).2 current paid
        written

theorem unread (count : Nat) (same : count = document.length) (overtaken : Set Nat)
    (grammar : Grammar) : Sound limits document ⟨Slots.unread count, overtaken, grammar⟩ := by
  have stale (line : Nat) (slot : Slot) (here : (Slots.unread count).entries[line]? = some slot) :
      slot = Slot.unread none := List.eq_of_mem_replicate (List.mem_of_getElem? here)
  refine ⟨?_, ?_, ?_, ?_⟩
  · simpa [Slots.unread, Slots.length] using same
  · intro line stack last
    obtain ⟨slot, here, holds⟩ := Option.bind_eq_some_iff.mp last
    rw [stale line slot here] at holds
    exact nomatch holds
  · intro line slot here current
    rw [stale line slot here] at current
    exact nomatch current
  · intro line slot text here current
    rw [stale line slot here] at current
    exact nomatch current

theorem store (sound : knowledge.Sound limits document) (reader : LineReader)
    (used : reader.grammar = knowledge.grammar) (line pending : Nat) (text : String)
    (written : document.line? line = some text) (tokens : List Token) (stack : Stack)
    (readTokens : tokens = (readLine reader limits text (knowledge.slots.prior? line)).1)
    (readStack : stack = (readLine reader limits text (knowledge.slots.prior? line)).2.1) :
    Sound limits document
      ⟨⟨(knowledge.slots.store line tokens stack).entries, pending⟩,
        knowledge.slots.overtakenAfter line stack knowledge.overtaken, knowledge.grammar⟩ := by
  have inside : line < knowledge.slots.length :=
    (List.getElem?_eq_some_iff.mp written).1.trans_eq sound.length.symm
  have knows := sound.prior_known line
  have returned : Returned (· = knowledge.grammar) stack := by
    rw [← used] at knows ⊢
    exact readStack ▸ LiveDocument.readLine_returned reader limits text _ knows
  have place := knowledge.slots.getElem?_store inside tokens stack
  have priors := fun other => knowledge.slots.prior?_store inside tokens stack other pending
  refine ⟨?_, fun other => ?_, ?_, ?_⟩
  · exact (List.length_set).trans sound.length
  · change knowledge.grammar.Knows (Slots.lastStack? ⟨_, pending⟩ other)
    rw [knowledge.slots.lastStack?_store inside tokens stack]
    split
    · exact fun _ same => Option.some.inj same ▸ returned
    · exact sound.known other
  · intro other slot here current
    simp only [place] at here
    split at here
    · obtain rfl := Option.some.inj here
      exact ⟨rfl, rfl⟩
    · exact sound.filled other slot here current
  · intro other slot text' here current paid written'
    simp only [place] at here
    split at here
    · rename_i same
      subst same
      obtain rfl := Option.some.inj here
      obtain rfl := Option.some.inj (written.symm.trans written')
      refine ⟨reader, knowledge.slots.prior? line, used, knows, ?_, congrArg some readTokens,
        congrArg some readStack⟩
      rw [priors, if_neg (Nat.succ_ne_self line)]
    · rename_i different
      have owed : other ∉ knowledge.overtaken :=
        fun overtaken => paid (.inl ⟨overtaken, Ne.symm different⟩)
      have before := sound.current other slot text' here current owed written'
      refine before.of_seen ?_
      rw [priors]
      split
      · rename_i next
        subst next
        -- The next line is current, so it would be overtaken if its line before ended otherwise.
        have same : (knowledge.slots.lastStack? line).any (·.same stack) = true := by
          by_contra differs
          exact paid (.inr ⟨rfl, by simpa using differs, by simp [here, current]⟩)
        obtain ⟨last, stored, same⟩ := (Option.any_eq_true _ _).mp same
        change (knowledge.slots.lastStack? line).map Stack.seen = _
        rw [stored]
        exact congrArg some ((Stack.same_iff_seen last stack).mp same)
      · rfl

end Sound

end Knowledge

end Live

end Highlighter
