import Highlighter.Proofs.Line.Packing

set_option autoImplicit false

namespace Highlighter

namespace Emitted

variable (size : Nat) (scopes : ScopePath) (metadata : Metadata)

theorem tokens_finish (tokens : List Token) :
    ∃ kept : List Token, ((Emitted.plain tokens).finish size scopes metadata).tokens =
        (if kept = [] then [⟨0, size + 1, scopes.names, metadata⟩] else kept).reverse.map
          (Token.clip size) ∧
      kept = if tokens.head?.map (·.start) = some size then tokens.tail else tokens := by
  cases tokens with
  | nil => exact ⟨[], rfl, by simp⟩
  | cons last rest =>
    by_cases feed : last.start = size <;> simp [finish, Emitted.tokens, feed]

theorem dropLast_finish {last : Token} {rest : List Token} (tiles : Tiles (last :: rest) (size + 1)) :
    ((Emitted.plain (last :: rest)).finish size scopes metadata).tokens.dropLast <+:
      rest.reverse := by
  obtain ⟨-, filled, before⟩ := tiles
  have clipped : rest.reverse.map (Token.clip size) = rest.reverse := by
    rw [List.map_reverse, before.clip (Nat.le_of_lt_succ filled)]
  obtain ⟨kept, whole, same⟩ := tokens_finish size scopes metadata (last :: rest)
  rw [whole]
  by_cases feed : last.start = size
  · have dropped : kept = rest := by simpa [feed] using same
    subst dropped
    by_cases empty : kept = []
    · simp [empty]
    · rw [if_neg empty, clipped]
      exact List.dropLast_prefix _
  · have all : kept = last :: rest := by simpa [feed] using same
    simp [all, clipped]

theorem prefix_finish {rest : List Token} {stop : Nat} (tiles : Tiles rest stop)
    (within : stop ≤ size) (added : List Token) :
    rest.reverse <+: ((Emitted.plain (added ++ rest)).finish size scopes metadata).tokens := by
  by_cases empty : rest = []
  · simp [empty]
  · obtain ⟨kept, whole, same⟩ := tokens_finish size scopes metadata (added ++ rest)
    have inside : rest.head?.map (·.start) ≠ some size := by
      cases rest with
      | nil => exact absurd rfl empty
      | cons first others =>
        have : first.start < stop := tiles.2.1
        simp
        omega
    have grown : ∃ front, kept = front ++ rest := by
      cases added with
      | nil => exact ⟨[], by simpa [inside] using same⟩
      | cons next others =>
        by_cases feed : next.start = size
        · exact ⟨others, by simpa [feed] using same⟩
        · exact ⟨next :: others, by simpa [feed] using same⟩
    obtain ⟨front, rfl⟩ := grown
    rw [whole, if_neg (by simp [empty]), List.map_reverse, List.map_append, tiles.clip within,
      List.reverse_append]
    exact List.prefix_append _ _

end Emitted

namespace Job

variable {grammar : Grammar}

theorem tokens_before_emit {scopes : ScopePath} {stop : Nat} {work : Work grammar}
    {last : Token} {rest : List Token}
    (emitted : ((emit scopes stop).run work).2.emitted = .plain (last :: rest)) :
    ∃ base, work.emitted = .plain base ∧ rest <:+ base := by
  rw [run_emit] at emitted
  by_cases late : stop ≤ work.lastStop
  · rw [if_pos late] at emitted
    exact ⟨_, emitted, List.suffix_cons _ _⟩
  · rw [if_neg late] at emitted
    cases before : work.emitted with
    | plain base =>
      simp only [before, Emitted.add, Emitted.plain.injEq, List.cons.injEq] at emitted
      exact ⟨base, rfl, emitted.2 ▸ List.suffix_rfl⟩
    | packed tokens =>
      cases tokens with
      | nil => simp [before, Emitted.add] at emitted
      | cons token others =>
        simp only [before, Emitted.add] at emitted
        split at emitted <;> cases emitted

theorem stuck_steady {limit : Nat} :
    Steady (fun first (_ : Work grammar) => first.tooDeep = true) limit where
  emit := fun scopes stop _ first _ deep => ⟨trivial, (tooDeep_emit scopes stop first).trans deep⟩
  overflow := fun _ _ _ => ⟨trivial, rfl⟩
  caches := fun _ _ _ _ same => same

variable (retokenize : Retokenize grammar) (text : List Char) (size : Nat)

theorem read_unlimited (fuel : Nat) (progress : Progress) :
    Yields (read retokenize text size none fuel progress) (·.2 = false) := by
  induction fuel generalizing progress with
  | zero => exact Yields.pure _ rfl
  | succ fuel ih =>
    rw [read_succ retokenize text size none fuel progress nofun]
    apply Yields.skip
    intro outcome
    cases outcome with
    | more next => exact ih next
    | done stack => exact Yields.pure _ rfl

theorem read_goes_on (time fuel : Nat) (progress : Progress) (work : Work grammar)
    (stopped : ((read retokenize text size (some time) fuel progress).run work).1.2 = true) :
    ∃ left next, (read retokenize text size none fuel progress).run work =
      (read retokenize text size none left next).run
        ((read retokenize text size (some time) fuel progress).run work).2 := by
  induction fuel generalizing time progress work with
  | zero =>
    cases time with
    | zero => exact ⟨0, progress, rfl⟩
    | succ time => exact nomatch stopped
  | succ fuel ih =>
    cases time with
    | zero => exact ⟨fuel + 1, progress, rfl⟩
    | succ time =>
      rw [read_succ _ _ _ (some (time + 1)) _ _ (by simp), run_bind] at stopped ⊢
      rw [read_succ retokenize text size none fuel progress nofun, run_bind]
      cases outcome : ((advance retokenize text size progress).run work).1 with
      | more next =>
        rw [outcome] at stopped
        exact ih time next _ stopped
      | done stack =>
        rw [outcome] at stopped
        exact nomatch stopped

end Job

namespace Grammar

open Job (Steady)

variable {grammar : Grammar}

theorem lineJob_parts (depth : Nat) (line : String) (start : Stack) (isFirst : Bool) (time : Nat)
    (work : Work grammar)
    (stopped : ((grammar.lineJob depth line start isFirst (some time)).run work).1.2 = true) :
    ∃ parting scopes left next,
      ((grammar.lineJob depth line start isFirst (some time)).run work).2 =
        ((Job.emit scopes (lineSize line)).run parting).2 ∧
      ((grammar.lineJob depth line start isFirst none).run work).2 =
        ((Job.read (retokenize depth) (lineText line) (lineSize line) none left next).run
          parting).2 := by
  unfold lineJob at stopped ⊢
  simp only [Job.run_bind] at stopped ⊢
  generalize (checkConditions _ _ _ _).run work = conditions at stopped ⊢
  generalize Job.rounds grammar (lineSize line) start = fuel at stopped ⊢
  have unlimited := Job.read_unlimited (retokenize depth : Retokenize grammar) (lineText line)
    (lineSize line) fuel conditions.1 conditions.2
  generalize early : (Job.read _ _ _ (some time) fuel conditions.1).run conditions.2 = cut
    at stopped ⊢
  have late : cut.1.2 = true := by
    by_contra other
    simp only [Bool.not_eq_true] at other
    simp [other] at stopped
  obtain ⟨left, next, same⟩ := Job.read_goes_on (retokenize depth) (lineText line)
    (lineSize line) time fuel conditions.1 conditions.2 (early ▸ late)
  refine ⟨cut.2, cut.1.1.contentScopes, left, next, ?_, ?_⟩
  · simp [late]
    rfl
  · simp only [unlimited, ← early, ← same]
    rfl

/-- Wherever time runs out on a line, the line ends with the stack that it started with. All tokens
but the last one are those that the line starts with when there is time for all of it, and the last
one goes to the end of the line. -/
theorem tokenize_stopped_early (grammar : Grammar) (depth : Nat) (line : String)
    (prior : Option Stack) (time : Nat) (one other : Caches grammar)
    (stopped : ((tokenize depth line prior (some time) false).run one).1.stoppedEarly = true) :
    let early := ((tokenize depth line prior (some time) false).run one).1
    let whole := ((tokenize depth line prior none false).run other).1
    early.stack = prior.getD ((initialStack : StateM (Caches grammar) Stack).run one).1 ∧
      early.emitted.tokens.dropLast <+: whole.emitted.tokens ∧
      early.emitted.tokens.getLast?.map (·.stop) = some (Text.byteLength line.toList) ∧
      (early.tooDeep = true → whole.tooDeep = true) := by
  obtain ⟨ready, early⟩ := tokenize_eq depth line prior (some time) false one
  obtain ⟨set, whole⟩ := tokenize_eq depth line prior none false other
  have size := lineSize_eq line
  let start := grammar.startOfLine prior
  have late : ((grammar.lineJob depth line start prior.isNone (some time)).run
      ⟨ready, Emitted.none false, 0, false⟩).1.2 = true := by
    rw [early] at stopped
    exact stopped
  obtain ⟨parting, scopes, fuel, next, cut, onward⟩ :=
    lineJob_parts depth line start prior.isNone time ⟨ready, Emitted.none false, 0, false⟩ late
  -- What has been emitted when time runs out goes up to the end of the line feed.
  obtain ⟨-, -, -, tokens, emitted, tiles, within⟩ :=
    lineJob_unison (Job.tiledTwice_steady (lineSize line)) depth line le_rfl start
      prior.isNone (some time) ⟨ready, Emitted.none false, 0, false⟩
      ⟨ready, Emitted.none false, 0, false⟩ ⟨rfl, rfl, [], rfl, rfl, Nat.zero_le _⟩
  have reached := Job.emit_reaches scopes (lineSize line) parting trivial
  rw [← cut] at reached
  rw [le_antisymm within reached, size] at tiles
  have same := (lineJob_unison (Job.emittedAlike_steady grammar (lineSize line)) depth line le_rfl
    start prior.isNone none ⟨set, Emitted.none false, 0, false⟩
    ⟨ready, Emitted.none false, 0, false⟩ ⟨rfl, rfl, rfl⟩).2
  cases tokens with
  | nil => exact absurd tiles (Nat.succ_ne_zero _)
  | cons last rest =>
    -- All of it but the last token is there when the other reading goes on.
    obtain ⟨base, plain, front, rfl⟩ := Job.tokens_before_emit (cut ▸ emitted)
    have steady : Steady (Job.OnTop (front ++ rest) : Work grammar → Work grammar → Prop)
        (lineSize line) := Job.onTop_steady _ _
    obtain ⟨-, -, added, grown, -⟩ :=
      Job.read_unison steady (retokenize_nested steady depth) le_rfl none fuel next parting _
        (Job.onTop_cleared plain)
    have all : ((grammar.lineJob depth line start prior.isNone none).run
        ⟨set, Emitted.none false, 0, false⟩).2.emitted = .plain ((added ++ front) ++ rest) := by
      rw [same.1, onward, List.append_assoc]
      exact grown
    dsimp only
    rw [early, whole]
    simp only [lineResult, size, Nat.add_sub_cancel]
    rw [emitted, all]
    refine ⟨?_, ?_, (Emitted.finish_covers _ _ tiles _ _).stops, fun deep => ?_⟩
    · rw [if_pos late, initialStack_value]
      rfl
    · exact (Emitted.dropLast_finish _ _ _ tiles).trans
        (Emitted.prefix_finish _ _ _ tiles.2.2 (Nat.le_of_lt_succ tiles.2.1) _)
    · have before : parting.tooDeep = true := by
        rw [cut, Job.tooDeep_emit] at deep
        exact deep
      rw [same.2.2, onward]
      exact (Job.read_unison Job.stuck_steady (retokenize_nested Job.stuck_steady depth) le_rfl none
        fuel next parting parting before).2

def anchoredEarly : LineResult :=
  ((tokenize 9 "xa" none (some 1) false).run (Caches.empty anchored)).1

theorem anchoredEarly_eq :
    anchoredEarly =
      ⟨.plain [⟨0, 1, ["t"], 0⟩, ⟨1, 2, ["t"], 0⟩], anchored.firstStack, true, false⟩ := by
  rw [anchoredEarly, anchored_eq]
  cbv

theorem tokenize_stopped_early_anchored :
    anchoredEarly.stoppedEarly = true ∧ anchoredEarly.stack = anchored.firstStack ∧
      anchoredEarly.emitted.tokens = [⟨0, 1, ["t"], 0⟩, ⟨1, 2, ["t"], 0⟩] ∧
      [⟨0, 1, ["t"], 0⟩] <+: (anchoredLine 9 "xa" none).emitted.tokens := by
  have stopped : anchoredEarly.stoppedEarly = true := by rw [anchoredEarly_eq]
  have tokens : anchoredEarly.emitted.tokens = [⟨0, 1, ["t"], 0⟩, ⟨1, 2, ["t"], 0⟩] := by
    rw [anchoredEarly_eq]
    rfl
  obtain ⟨stack, front, -⟩ := tokenize_stopped_early anchored 9 "xa" none 1 (Caches.empty anchored)
    (Caches.empty anchored) stopped
  refine ⟨stopped, stack.trans (initialStack_value _), tokens, ?_⟩
  have dropped : anchoredEarly.emitted.tokens.dropLast = [⟨0, 1, ["t"], 0⟩] := by
    rw [tokens]
    rfl
  rw [← dropped]
  exact front

end Grammar

end Highlighter
