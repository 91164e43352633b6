import Mathlib
import Highlighter.Proofs.Grammar.Compilation
import Highlighter.Proofs.Line.Moves

set_option autoImplicit false

namespace Highlighter

open Regex (Match Region)

namespace Stack

theorem frames_push (stack : Stack) (frame : Frame) :
    (stack.push frame).frames = frame :: stack.frames := rfl

theorem frames_pop (stack : Stack) (inner : stack.below ≠ []) :
    stack.pop.frames = stack.below := by
  obtain ⟨top, below⟩ := stack
  cases below with
  | nil => exact absurd rfl inner
  | cons frame rest => rfl

theorem length_pop_le (stack : Stack) : stack.pop.frames.length ≤ stack.frames.length := by
  obtain ⟨top, below⟩ := stack
  cases below with
  | nil => exact le_rfl
  | cons frame rest => exact Nat.le_succ _

theorem pop_subset (stack : Stack) (frame : Frame) (member : frame ∈ stack.pop.frames) :
    frame ∈ stack.frames := by
  obtain ⟨top, below⟩ := stack
  cases below with
  | nil => exact member
  | cons next rest => exact List.mem_cons_of_mem _ member

theorem last_pop (stack : Stack) : stack.pop.frames.getLast? = stack.frames.getLast? := by
  obtain ⟨top, below⟩ := stack
  cases below with
  | nil => rfl
  | cons frame rest => exact List.getLast?_cons_cons.symm

end Stack

/-- A stack that lines of a grammar can come to: its outermost rule is the grammar's own, and what
its frames have resolved are patterns of the grammar. -/
structure Grammar.Admits (grammar : Grammar) (stack : Stack) : Prop where
  rooted : stack.frames.getLast?.map (·.rule) = some grammar.graph.root
  resolves : ∀ frame, frame ∈ stack.frames → grammar.Resolves frame

namespace Grammar.Admits

variable {grammar : Grammar} {stack : Stack}

theorem firstStack (grammar : Grammar) : grammar.Admits grammar.firstStack where
  rooted := rfl
  resolves := by
    intro frame member pattern resolved
    obtain rfl := List.mem_singleton.mp member
    exact nomatch resolved

theorem top (admits : grammar.Admits stack) : grammar.Resolves stack.top :=
  admits.resolves stack.top (by simp [Stack.frames])

theorem pop (admits : grammar.Admits stack) : grammar.Admits stack.pop where
  rooted := by rw [stack.last_pop, admits.rooted]
  resolves := fun frame member => admits.resolves frame (stack.pop_subset frame member)

theorem push (admits : grammar.Admits stack) {frame : Frame} (resolves : grammar.Resolves frame) :
    grammar.Admits (stack.push frame) where
  rooted := admits.rooted
  resolves := by
    intro other member
    rcases List.mem_cons.mp member with rfl | old
    · exact resolves
    · exact admits.resolves other old

theorem inner_of_closing (admits : grammar.Admits stack) (rooted : grammar.graph.IsRooted)
    {pattern : Pattern} {last : Bool}
    (closes : Candidate.closing? grammar stack.top = some (pattern, last)) : stack.below ≠ [] := by
  intro bottom
  obtain ⟨rule, nested, known, holds⟩ := rooted
  have same : stack.top.rule = grammar.graph.root := by
    simpa [Stack.frames, bottom] using admits.rooted
  simp only [Candidate.closing?, same, known] at closes
  split at closes
  · rename_i matched
    obtain rfl := Option.some.inj matched
    exact absurd holds (by simp)
  · exact absurd closes (by simp)

theorem moves (admits : grammar.Admits stack) {size : Nat} {progress next : Progress}
    (here : progress.stack = stack) (moves : progress.Moves grammar size next) :
    grammar.Admits next.stack := by
  subst here
  cases moves with
  | past _ same => exact same ▸ admits
  | closed _ popped => exact popped ▸ admits.pop
  | opened frame opens pushed => exact pushed ▸ admits.push opens.resolves

end Grammar.Admits

namespace Progress

def openedHere (progress : Progress) : List Frame :=
  (progress.stack.frames.take progress.fresh).takeWhile fun frame =>
    frame.entered == some progress.offset

def unopened (rules : Nat) (progress : Progress) : Finset Nat :=
  (Finset.range rules).filter fun id => progress.openedHere.any (·.rule == id) = false

theorem unopened_le (rules : Nat) (progress : Progress) :
    (progress.unopened rules).card ≤ rules := by
  simpa [unopened] using Finset.card_filter_le (Finset.range rules) _

theorem unopened_full (rules : Nat) (progress : Progress) (none : progress.openedHere = []) :
    (progress.unopened rules).card = rules := by
  simp [unopened, none]

theorem openedHere_of_elsewhere (progress : Progress)
    (elsewhere : progress.fresh = 0 ∨ progress.stack.top.entered ≠ some progress.offset) :
    progress.openedHere = [] := by
  rcases elsewhere with stale | other
  · simp [openedHere, stale]
  · cases count : progress.fresh <;> simp [openedHere, Stack.frames, count, other]

theorem openedHere_push (progress next : Progress) (frame : Frame)
    (stack : next.stack = progress.stack.push frame) (fresh : next.fresh = progress.fresh + 1)
    (offset : next.offset = progress.offset) (entered : frame.entered = some progress.offset) :
    next.openedHere = frame :: progress.openedHere := by
  simp [openedHere, stack, fresh, offset, Stack.frames_push, entered]

theorem unopened_push (rules : Nat) (progress next : Progress) (frame : Frame)
    (stack : next.stack = progress.stack.push frame) (fresh : next.fresh = progress.fresh + 1)
    (offset : next.offset = progress.offset) (entered : frame.entered = some progress.offset)
    (known : frame.rule < rules)
    (absent : progress.stack.hasOpened frame.rule (some progress.offset) progress.fresh = false) :
    (next.unopened rules).card < (progress.unopened rules).card := by
  have after := openedHere_push progress next frame stack fresh offset entered
  apply Finset.card_lt_card
  refine ⟨?_, fun reverse => ?_⟩
  · intro id member
    simp only [unopened, after, List.any_cons, Bool.or_eq_false_iff, Finset.mem_filter] at member ⊢
    exact ⟨member.1, member.2.2⟩
  · have before : frame.rule ∈ progress.unopened rules :=
      Finset.mem_filter.mpr ⟨Finset.mem_range.mpr known, absent⟩
    have later := Finset.mem_filter.mp (reverse before)
    simp [after] at later

def patience (rules : Nat) (progress : Progress) : Nat :=
  (progress.unopened rules).card +
    if progress.openedHere = [] then progress.stack.below.length else 0

def potential (rules size : Nat) (progress : Progress) : Nat :=
  (size - progress.offset) * (2 * rules + 2) + progress.stack.frames.length +
    2 * (progress.unopened rules).card

theorem patience_le (rules : Nat) (progress : Progress) :
    progress.patience rules ≤ rules + progress.stack.below.length := by
  have := unopened_le rules progress
  unfold patience
  split <;> omega

theorem potential_lt_rounds (grammar : Grammar) (size : Nat) (progress : Progress) :
    progress.potential grammar.graph.rules.size size <
      Job.rounds grammar size progress.stack := by
  unfold potential Job.rounds
  set rules := grammar.graph.rules.size
  have some := unopened_le rules progress
  have left : (size - progress.offset) * (2 * rules + 2) ≤ size * (2 * rules + 2) :=
    Nat.mul_le_mul_right _ (Nat.sub_le _ _)
  have least : 2 * rules + 4 ≤ (size + 2) * (rules + 2) := by nlinarith
  have all : (size + 2) * (2 * rules + 4) ≤ (size + 2) * ((size + 2) * (rules + 2)) :=
    Nat.mul_le_mul_left _ least
  nlinarith [Nat.zero_le (size * progress.stack.frames.length)]

end Progress

namespace Progress.Moves

variable {grammar : Grammar} {size : Nat} {progress next : Progress}

theorem length_le (moves : progress.Moves grammar size next) :
    next.stack.frames.length ≤ progress.stack.frames.length + 1 := by
  cases moves with
  | past _ same => simp [same]
  | closed _ popped => exact popped ▸ progress.stack.length_pop_le.trans (Nat.le_succ _)
  | opened frame _ pushed => simp [pushed, Stack.frames_push]

theorem advances (moves : progress.Moves grammar size next)
    (leaves : next.offset ≠ progress.offset) : progress.Advances size next := by
  cases moves with
  | past advances => exact advances
  | closed _ _ _ onward | opened _ _ _ _ onward =>
    exact onward.resolve_right fun stays => leaves stays.1

theorem patience_lt (moves : progress.Moves grammar size next) (rooted : grammar.graph.IsRooted)
    (forward : grammar.SearchesForward) (admits : grammar.Admits progress.stack)
    (stays : next.offset = progress.offset) :
    next.patience grammar.graph.rules.size < progress.patience grammar.graph.rules.size := by
  set rules := grammar.graph.rules.size with count
  cases moves with
  | past advances => exact absurd advances.1 (by omega)
  | closed closes popped _ onward =>
    have elsewhere := onward.resolve_left fun advances => absurd advances.1 (by omega)
    have none := openedHere_of_elsewhere progress (elsewhere.2 ⟨forward, admits.top⟩)
    have inner := admits.inner_of_closing rooted closes
    have shorter : next.stack.below.length + 1 = progress.stack.below.length := by
      have frames := congrArg List.length (progress.stack.frames_pop inner)
      rw [← popped] at frames
      simpa [Stack.frames] using frames
    have full := unopened_full rules progress none
    have some := unopened_le rules next
    unfold patience
    rw [full, if_pos none]
    split <;> omega
  | opened frame opens pushed fresh onward =>
    obtain ⟨_, here⟩ := onward.resolve_left fun advances => absurd advances.1 (by omega)
    obtain ⟨entered, absent⟩ := here ⟨forward, admits.top⟩
    have fewer := unopened_push rules progress next frame pushed fresh stays entered opens.known
      absent
    have after := openedHere_push progress next frame pushed fresh stays entered
    unfold patience
    rw [if_neg (by simp [after])]
    omega

theorem potential_lt (moves : progress.Moves grammar size next) (rooted : grammar.graph.IsRooted)
    (forward : grammar.SearchesForward) (admits : grammar.Admits progress.stack) :
    next.potential grammar.graph.rules.size size <
      progress.potential grammar.graph.rules.size size := by
  set rules := grammar.graph.rules.size with count
  have later (advances : progress.Advances size next) :
      next.potential rules size < progress.potential rules size := by
    -- A character makes up for a frame on top and for all rules that may be opened behind it.
    have deep := moves.length_le
    have some := unopened_le rules next
    have left : (size - next.offset + 1) * (2 * rules + 2) ≤
        (size - progress.offset) * (2 * rules + 2) := by
      apply Nat.mul_le_mul_right
      have := advances.1
      have := advances.2
      omega
    rw [Nat.add_mul] at left
    unfold potential
    omega
  cases moves with
  | past advances => exact later advances
  | closed closes popped _ onward =>
    rcases onward with advances | ⟨stays, elsewhere⟩
    · exact later advances
    · have inner := admits.inner_of_closing rooted closes
      have shorter : next.stack.frames.length + 1 = progress.stack.frames.length := by
        rw [popped, Stack.frames_pop _ inner]
        rfl
      -- Nothing has been opened here, so no rule is given back to be opened.
      have none := openedHere_of_elsewhere progress (elsewhere ⟨forward, admits.top⟩)
      have full := unopened_full rules progress none
      have some := unopened_le rules next
      unfold potential
      rw [stays]
      omega
  | opened frame opens pushed fresh onward =>
    rcases onward with advances | ⟨stays, here⟩
    · exact later advances
    · obtain ⟨entered, absent⟩ := here ⟨forward, admits.top⟩
      have fewer := unopened_push rules progress next frame pushed fresh stays entered
        opens.known absent
      have deeper : next.stack.frames.length = progress.stack.frames.length + 1 := by
        simp [pushed, Stack.frames_push]
      unfold potential
      rw [stays]
      omega

end Progress.Moves

namespace Job

variable {grammar : Grammar} (retokenize : Retokenize grammar) (text : List Char)

inductive Lingers : Nat → Progress → Work grammar → Progress → Work grammar → Prop
  | none (progress : Progress) (work : Work grammar) : Lingers 0 progress work progress work
  | round {count : Nat} {progress next last : Progress} {work between final : Work grammar}
    (round : (advance retokenize text (Text.byteLength text) progress).run work =
      (.more next, between))
    (stays : next.offset = progress.offset) (rest : Lingers count next between last final) :
    Lingers (count + 1) progress work last final

def MovesOn (progress : Progress) (work : Work grammar) : Prop :=
  match ((advance retokenize text (Text.byteLength text) progress).run work).1 with
  | .done _ => True
  | .more next => progress.Advances (Text.byteLength text) next

inductive Reads : Progress → Work grammar → Stack → Work grammar → Prop
  | done {progress : Progress} {stack : Stack} {work final : Work grammar}
    (round : (advance retokenize text (Text.byteLength text) progress).run work =
      (.done stack, final)) : Reads progress work stack final
  | more {progress next : Progress} {stack : Stack} {work between final : Work grammar}
    (round : (advance retokenize text (Text.byteLength text) progress).run work =
      (.more next, between))
    (rest : Reads next between stack final) : Reads progress work stack final

variable {retokenize text}

theorem moves_of_round {progress next : Progress} {work between : Work grammar}
    (round : (advance retokenize text (Text.byteLength text) progress).run work =
      (.more next, between)) : progress.Moves grammar (Text.byteLength text) next := by
  have moves := advance_moves retokenize text progress work
  rwa [round] at moves

theorem reads_admits {progress : Progress} {stack : Stack} {work final : Work grammar}
    (reads : Reads retokenize text progress work stack final)
    (admits : grammar.Admits progress.stack) : grammar.Admits stack := by
  induction reads with
  | done round =>
    rename_i progress stack work final
    have ends := advance_moves retokenize text progress work
    rw [round] at ends
    exact ends ▸ admits
  | more round _ ih => exact ih (admits.moves rfl (moves_of_round round))

section

variable (forward : grammar.SearchesForward) (rooted : grammar.graph.IsRooted)

include forward rooted

theorem lingers_patience {count : Nat} {progress last : Progress} {work final : Work grammar}
    (lingers : Lingers retokenize text count progress work last final)
    (admits : grammar.Admits progress.stack) :
    count + last.patience grammar.graph.rules.size ≤
      progress.patience grammar.graph.rules.size := by
  induction lingers with
  | none => simp
  | round round stays _ ih =>
    have moves := moves_of_round round
    have fewer := moves.patience_lt rooted forward admits stays
    have rest := ih (admits.moves rfl moves)
    omega

theorem lingers_then_moves (progress : Progress) (work : Work grammar)
    (admits : grammar.Admits progress.stack) :
    ∃ count last final, Lingers retokenize text count progress work last final ∧
      MovesOn retokenize text last final := by
  induction left : progress.patience grammar.graph.rules.size using Nat.strong_induction_on
    generalizing progress work with
  | _ left ih =>
    cases round : (advance retokenize text (Text.byteLength text) progress).run work with
    | mk outcome between =>
      cases outcome with
      | done stack => exact ⟨0, progress, work, .none progress work, by simp [MovesOn, round]⟩
      | more next =>
        have moves := moves_of_round round
        by_cases stays : next.offset = progress.offset
        · obtain ⟨count, last, final, lingers, later⟩ :=
            ih _ (left ▸ moves.patience_lt rooted forward admits stays) next between
              (admits.moves rfl moves) rfl
          exact ⟨count + 1, last, final, .round round stays lingers, later⟩
        · refine ⟨0, progress, work, .none progress work, ?_⟩
          simpa [MovesOn, round] using moves.advances stays

theorem reads_total (progress : Progress) (work : Work grammar)
    (admits : grammar.Admits progress.stack) :
    ∃ stack final, Reads retokenize text progress work stack final ∧
      ∀ fuel, progress.potential grammar.graph.rules.size (Text.byteLength text) < fuel →
        (read retokenize text (Text.byteLength text) none fuel progress).run work =
          ((stack, false), final) := by
  induction left : progress.potential grammar.graph.rules.size (Text.byteLength text)
    using Nat.strong_induction_on generalizing progress work with
  | _ left ih =>
    cases round : (advance retokenize text (Text.byteLength text) progress).run work with
    | mk outcome between =>
      cases outcome with
      | done stack =>
        refine ⟨stack, between, .done round, fun fuel enough => ?_⟩
        obtain ⟨rest, rfl⟩ := Nat.exists_eq_add_one_of_ne_zero (by omega : fuel ≠ 0)
        rw [read_succ _ _ _ _ _ _ (by simp), run_bind, round]
        rfl
      | more next =>
        have moves := moves_of_round round
        have fewer := moves.potential_lt rooted forward admits
        obtain ⟨stack, final, reads, bounded⟩ :=
          ih _ (left ▸ fewer) next between (admits.moves rfl moves) rfl
        refine ⟨stack, final, .more round reads, fun fuel enough => ?_⟩
        obtain ⟨rest, rfl⟩ := Nat.exists_eq_add_one_of_ne_zero (by omega : fuel ≠ 0)
        rw [read_succ _ _ _ _ _ _ (by simp), run_bind, round]
        exact bounded rest (by omega)

end

/-- A reading stays at one place for no more rounds than there are frames and rules, then goes on to
a later place or ends. So it ends, and within the rounds that it is given. -/
theorem reading_moves_on_and_ends (library : Library) (grammar : Grammar)
    (compiled : grammar.graph = RuleGraph.compile library) (forward : grammar.SearchesForward)
    (retokenize : Retokenize grammar) (text : List Char) (progress : Progress)
    (work : Work grammar) (admits : grammar.Admits progress.stack) :
    (∀ count last final, Lingers retokenize text count progress work last final →
      count ≤ progress.stack.frames.length + grammar.graph.rules.size + 1) ∧
    (∃ count last final, Lingers retokenize text count progress work last final ∧
      MovesOn retokenize text last final) ∧
    ∃ stack final, Reads retokenize text progress work stack final ∧ grammar.Admits stack ∧
      (read retokenize text (Text.byteLength text) none
        (rounds grammar (Text.byteLength text) progress.stack) progress).run work =
          ((stack, false), final) := by
  have rooted : grammar.graph.IsRooted := compiled ▸ RuleGraph.compile_isRooted library
  refine ⟨fun count last final lingers => ?_,
    lingers_then_moves forward rooted progress work admits, ?_⟩
  · have bound := lingers_patience forward rooted lingers admits
    have most := progress.patience_le grammar.graph.rules.size
    have frames : progress.stack.frames.length = progress.stack.below.length + 1 := rfl
    omega
  · obtain ⟨stack, final, reads, bounded⟩ := reads_total forward rooted progress work admits
    exact ⟨stack, final, reads, reads_admits reads admits,
      bounded _ (progress.potential_lt_rounds grammar (Text.byteLength text))⟩

end Job

-- A rule that opens and closes in front of the same character, and reads none.
def Library.lookingAhead : Library :=
  ⟨⟨some "t", none, [⟨none, some "x", none, none, none, some "(?=a)", none, some "(?=a)", none, none,
    none, none, none, false⟩], [], [], none, [], [], none⟩, Repository.empty⟩

def RuleGraph.lookingAhead : RuleGraph :=
  let before : Pattern := .unanchored "(?=a)" (.ahead false (.set (.char 'a')))
  ⟨#[.held 0 [1], ⟨1, some [.plain 'x'], none, .spanning before [] before [] false []⟩], 0, []⟩

def Grammar.lookingAhead : Grammar :=
  ofGraph Library.lookingAhead Configuration.default (RuleGraph.compile Library.lookingAhead)

theorem Grammar.lookingAhead_eq :
    lookingAhead = ⟨Library.lookingAhead.base, RuleGraph.lookingAhead, ⟨0, []⟩, [], none, none⟩ := by
  cbv

theorem Grammar.lookingAhead_forward : lookingAhead.SearchesForward :=
  searchesForward_of_isFixed _ (by rw [lookingAhead_eq]; cbv)

theorem Job.reading_moves_on_and_ends_lookingAhead :
    ∃ stack final,
      Reads (Grammar.retokenize 3) ['a', '\n'] ⟨0, Grammar.lookingAhead.firstStack, 0, none, true⟩
        ⟨Caches.empty Grammar.lookingAhead, .plain [], 0, false⟩ stack final ∧
      Grammar.lookingAhead.Admits stack ∧
      (read (Grammar.retokenize 3) ['a', '\n'] 2 none
        (rounds Grammar.lookingAhead 2 Grammar.lookingAhead.firstStack)
        ⟨0, Grammar.lookingAhead.firstStack, 0, none, true⟩).run
          ⟨Caches.empty Grammar.lookingAhead, .plain [], 0, false⟩ = ((stack, false), final) :=
  (reading_moves_on_and_ends Library.lookingAhead Grammar.lookingAhead rfl
    Grammar.lookingAhead_forward (Grammar.retokenize 3) ['a', '\n']
    ⟨0, Grammar.lookingAhead.firstStack, 0, none, true⟩
    ⟨Caches.empty Grammar.lookingAhead, .plain [], 0, false⟩
    (Grammar.Admits.firstStack Grammar.lookingAhead)).2.2

end Highlighter
