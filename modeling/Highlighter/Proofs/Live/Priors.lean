import Highlighter.Proofs.Live.Alignment
import Highlighter.Proofs.Live.Convergence

set_option autoImplicit false

namespace Highlighter.Live

open LiveDocument (Limits readLine)

-- What the slot holds came of reading its line after that stack, in whatever time there was.
def Slot.ReadAfter (slot : Slot) (longestLine depth : Nat) (prior : Option Stack) : Prop :=
  ∃ (reader : LineReader) (checks : Option Nat) (text : String),
    slot.tokens = some (readLine reader ⟨longestLine, depth, checks⟩ text prior).1 ∧
      slot.stack = some (readLine reader ⟨longestLine, depth, checks⟩ text prior).2.1

def Agree (prior before : Option Stack) : Prop :=
  ∀ last, before = some last → ∃ stack, prior = some stack ∧ stack.same last = true

theorem agree_none (prior : Option Stack) : Agree prior none := nofun

theorem agree_self (prior : Option Stack) : Agree prior prior := by
  intro last known
  exact ⟨last, known, (Stack.same_iff_seen last last).mpr rfl⟩

theorem Agree.trans {prior : Option Stack} {kept stack : Stack} (agree : Agree prior (some kept))
    (same : kept.same stack = true) : Agree prior (some stack) := by
  intro last known
  obtain rfl := Option.some.inj known
  obtain ⟨first, here, alike⟩ := agree kept rfl
  refine ⟨first, here, ?_⟩
  rw [Stack.same_iff_seen] at alike same ⊢
  exact alike.trans same

/-- Slots with a record of the stack that each line was last read after. -/
structure Traced where
  slots : Slots
  priors : List (Option Stack)

def Slots.take (slots : Slots) : Request → Slots
  | .edited edit => slots.splice edit
  | .line line => slots.invalidate line
  | .theme _ | .grammar _ => slots.invalidateAll

theorem slots_foldl_apply (live : LiveDocument) (requests : List Request) :
    (requests.foldl LiveDocument.apply live).slots = requests.foldl Slots.take live.slots := by
  induction requests generalizing live with
  | nil => rfl
  | cons request rest ih =>
    have first : (live.apply request).slots = live.slots.take request := by cases request <;> rfl
    exact (ih (live.apply request)).trans (congrArg (rest.foldl Slots.take) first)

namespace Traced

def take (traced : Traced) (request : Request) : Traced :=
  { slots := traced.slots.take request
    priors := match request with
      | .edited edit => edit.splice (List.replicate edit.added none) traced.priors
      | _ => traced.priors }

def store (traced : Traced) (line : Nat) (tokens : List Token) (stack : Stack) : Traced :=
  ⟨traced.slots.store line tokens stack, traced.priors.set line (traced.slots.prior? line)⟩

/-- The first line, if it is current, has been read after nothing, and every other line that is
current after what the line before it ends with, so after nothing only if no end of that line is
known. -/
structure Sound (longestLine depth : Nat) (traced : Traced) : Prop where
  length : traced.priors.length = traced.slots.length
  current : ∀ (line : Nat) (slot : Slot), traced.slots.entries[line]? = some slot →
    slot.isStale = false → ∃ prior, traced.priors[line]? = some prior ∧
      slot.ReadAfter longestLine depth prior ∧ (line = 0 → prior = none) ∧
      Agree prior (traced.slots.prior? line)

namespace Sound

variable {longestLine depth : Nat} {traced : Traced}

theorem unread (longestLine depth count : Nat) (priors : List (Option Stack))
    (length : priors.length = count) : Sound longestLine depth ⟨Slots.unread count, priors⟩ := by
  refine ⟨length.trans List.length_replicate.symm, fun line slot here current => ?_⟩
  rw [List.eq_of_mem_replicate (List.mem_of_getElem? here)] at current
  exact nomatch current

theorem edited (sound : traced.Sound longestLine depth) (edit : Edit)
    (fits : edit.Fits traced.slots.length) :
    (traced.take (.edited edit)).Sound longestLine depth := by
  have recorded := edit.getElem?_splice (List.replicate edit.added none) traced.priors
    List.length_replicate (sound.length.symm ▸ fits)
  refine ⟨?_, fun line slot here current => ?_⟩
  · have moved := edit.length_splice (List.replicate edit.added none) traced.priors
      List.length_replicate (sound.length.symm ▸ fits)
    exact moved.trans (sound.length ▸ (traced.slots.length_splice edit fits).symm)
  · change ∃ prior, (edit.splice (List.replicate edit.added none) traced.priors)[line]? =
      some prior ∧ slot.ReadAfter longestLine depth prior ∧ (line = 0 → prior = none) ∧
        Agree prior ((traced.slots.splice edit).prior? line)
    rw [recorded]
    rcases traced.slots.current_of_splice edit fits line slot here current with
      ⟨before, known⟩ | ⟨behind, later, known⟩
    · rw [if_pos before, traced.slots.prior?_splice_before edit fits line before.le]
      exact sound.current line slot known current
    · obtain ⟨prior, last, read, -, agree⟩ := sound.current _ slot known current
      rw [if_neg (by omega), if_neg (by omega),
        traced.slots.prior?_splice_behind edit fits line behind later]
      exact ⟨prior, last, read, fun first => by omega, agree⟩

theorem take (sound : traced.Sound longestLine depth) (request : Request) :
    (traced.take request).Sound longestLine depth := by
  cases request with
  | edited edit =>
    have within := sound.edited (edit.within traced.slots.length) (edit.within_fits _)
    have slots := traced.slots.splice_within edit
    have priors := edit.splice_within (List.replicate edit.added none) traced.priors
    rw [sound.length] at priors
    unfold Traced.take Slots.take at within ⊢
    dsimp only at within ⊢
    rw [slots] at within
    exact priors ▸ within
  | line place =>
    refine ⟨sound.length.trans (List.length_modify _ _ _).symm, fun line slot here current => ?_⟩
    have known := (Slots.current_of_markStale _ _ _ _ here current).2
    have kept : ((traced.take (.line place)).slots).prior? line = traced.slots.prior? line :=
      traced.slots.prior?_invalidate place line
    rw [kept]
    exact sound.current line slot known current
  | theme _ | grammar _ => exact unread _ _ _ _ sound.length

theorem foldl (sound : traced.Sound longestLine depth) (requests : List Request) :
    (requests.foldl Traced.take traced).Sound longestLine depth := by
  induction requests generalizing traced with
  | nil => exact sound
  | cons request rest ih => exact ih (sound.take request)

theorem store (sound : traced.Sound longestLine depth) (reader : LineReader)
    (checks : Option Nat) (line : Nat) (text : String) (kept : Stack)
    (known : traced.slots.lastStack? line = some kept) :
    let read := readLine reader ⟨longestLine, depth, checks⟩ text (traced.slots.prior? line)
    kept.same read.2.1 = true → (traced.store line read.1 read.2.1).Sound longestLine depth := by
  intro read same
  have inside : line < traced.slots.length := by
    obtain ⟨slot, here, -⟩ := Option.bind_eq_some_iff.mp known
    exact (List.getElem?_eq_some_iff.mp here).1
  have place := traced.slots.getElem?_store inside read.1 read.2.1
  have priors : ∀ other, (traced.store line read.1 read.2.1).slots.prior? other =
      if line + 1 = other then some read.2.1 else traced.slots.prior? other :=
    fun other => traced.slots.prior?_store inside read.1 read.2.1 other _
  refine ⟨?_, fun other slot here current => ?_⟩
  · change (traced.priors.set _ _).length = (traced.slots.entries.set _ _).length
    rw [List.length_set, List.length_set]
    exact sound.length
  · have recorded : (traced.store line read.1 read.2.1).priors[other]? =
        if line = other then some (traced.slots.prior? line) else traced.priors[other]? := by
      have bound : line < traced.priors.length := sound.length ▸ inside
      simp only [Traced.store, List.getElem?_set, bound, if_true]
    change (traced.slots.store line read.1 read.2.1).entries[other]? = some slot at here
    rw [place] at here
    rw [recorded, priors]
    by_cases stored : line = other
    · subst stored
      rw [if_pos rfl] at here
      obtain rfl := Option.some.inj here
      rw [if_pos rfl, if_neg (Nat.succ_ne_self line)]
      refine ⟨_, rfl, ⟨reader, checks, text, rfl, rfl⟩, fun first => ?_, agree_self _⟩
      subst first
      rfl
    · rw [if_neg stored] at here ⊢
      obtain ⟨prior, last, after, first, agree⟩ := sound.current other slot here current
      refine ⟨prior, last, after, first, ?_⟩
      by_cases next : line + 1 = other
      · subst next
        rw [if_pos rfl]
        change Agree prior (traced.slots.lastStack? line) at agree
        rw [known] at agree
        exact agree.trans same
      · rw [if_neg next]
        exact agree

end Sound

theorem slots_foldl_take (traced : Traced) (requests : List Request) :
    (requests.foldl take traced).slots = requests.foldl Slots.take traced.slots := by
  induction requests generalizing traced with
  | nil => rfl
  | cons request rest ih => exact ih (traced.take request)

/-- Whatever requests come, each line that they leave current has been read after what the line
before it ends with, as far as an end of that line is known. A line that is read again, current or
not, and ends as it did before leaves the line behind it so. -/
theorem sound_of_requests (longestLine depth : Nat) (traced : Traced)
    (sound : traced.Sound longestLine depth) (requests : List Request) :
    let now := requests.foldl take traced
    now.Sound longestLine depth ∧
    (∀ live : LiveDocument, live.slots = traced.slots →
      now.slots = (requests.foldl LiveDocument.apply live).slots) ∧
    ∀ (reader : LineReader) (checks : Option Nat) (line : Nat) (text : String) (kept : Stack),
      let read := readLine reader ⟨longestLine, depth, checks⟩ text (now.slots.prior? line)
      let next := now.store line read.1 read.2.1
      now.slots.lastStack? line = some kept → kept.same read.2.1 = true →
        next.Sound longestLine depth ∧
        ∀ slot, next.slots.entries[line + 1]? = some slot → slot.isStale = false →
          ∃ stack, next.priors[line + 1]? = some (some stack) ∧ stack.same read.2.1 = true ∧
            slot.ReadAfter longestLine depth (some stack) := by
  intro now
  have remains : now.Sound longestLine depth := sound.foldl requests
  refine ⟨remains, fun live same => ?_, fun reader checks line text kept => ?_⟩
  · rw [slots_foldl_apply, same]
    exact traced.slots_foldl_take requests
  · intro read next known same
    have stored : next.Sound longestLine depth :=
      remains.store reader checks line text kept known same
    refine ⟨stored, fun slot here current => ?_⟩
    have inside : line < now.slots.length := by
      obtain ⟨slot, place, -⟩ := Option.bind_eq_some_iff.mp known
      exact (List.getElem?_eq_some_iff.mp place).1
    have before : next.slots.prior? (line + 1) = some read.2.1 :=
      (now.slots.prior?_store inside read.1 read.2.1 (line + 1) _).trans (if_pos rfl)
    obtain ⟨prior, recorded, after, -, agree⟩ := stored.current (line + 1) slot here current
    obtain ⟨stack, rfl, alike⟩ := agree _ before
    exact ⟨stack, recorded, alike, after⟩

def twoRead : Traced :=
  let reader := LineReader.ofGrammar LiveDocument.quoting
  let first := readLine reader ⟨9, 9, none⟩ "x" none
  let second := readLine reader ⟨9, 9, none⟩ "a" (some first.2.1)
  ⟨⟨[⟨some first.2.1, some first.1, false⟩, ⟨some second.2.1, some second.1, false⟩], 2⟩,
    [none, some first.2.1]⟩

theorem twoRead_sound : twoRead.Sound 9 9 := by
  refine ⟨rfl, fun line slot here _ => ?_⟩
  match line with
  | 0 =>
    obtain rfl := Option.some.inj here
    exact ⟨none, rfl, ⟨_, none, "x", rfl, rfl⟩, fun _ => rfl, agree_none _⟩
  | 1 =>
    obtain rfl := Option.some.inj here
    exact ⟨_, rfl, ⟨_, none, "a", rfl, rfl⟩, nofun, agree_self _⟩
  | _ + 2 => exact nomatch here

theorem sound_of_requests_twoRead :
    let now := [Request.edited ⟨0, 0, 1⟩, .line 1].foldl take twoRead
    let read := readLine (LineReader.ofGrammar LiveDocument.quoting) ⟨9, 9, none⟩ "x" none
    now.Sound 9 9 ∧ (now.store 1 read.1 read.2.1).Sound 9 9 := by
  intro now read
  obtain ⟨sound, -, stored⟩ :=
    sound_of_requests 9 9 twoRead twoRead_sound [.edited ⟨0, 0, 1⟩, .line 1]
  have kept : read.2.1.same read.2.1 = true := (Stack.same_iff_seen _ _).mpr rfl
  exact ⟨sound, (stored (LineReader.ofGrammar LiveDocument.quoting) none 1 "x" read.2.1 rfl kept).1⟩

end Traced

end Highlighter.Live
