import Highlighter.Proofs.Line.Lockstep

set_option autoImplicit false

namespace Highlighter

/-- Tokens in order, from the start of a line of so many bytes to its end. -/
structure Covers (tokens : List Token) (size : Nat) : Prop where
  starts : tokens.head?.map (·.start) = some 0
  chained : tokens.IsChain fun token next => next.start = token.stop
  stops : tokens.getLast?.map (·.stop) = some size
  filled : (∀ token ∈ tokens, token.start < token.stop) ∨
    size = 0 ∧ ∃ token, tokens = [token] ∧ token.start = 0 ∧ token.stop = 0

def Tiles : List Token → Nat → Prop
  | [], stop => stop = 0
  | token :: rest, stop => token.stop = stop ∧ token.start < stop ∧ Tiles rest token.start

namespace Tiles

variable {tokens : List Token} {stop limit : Nat}

theorem clip (tiles : Tiles tokens stop) (le : stop ≤ limit) :
    tokens.map (Token.clip limit) = tokens := by
  induction tokens generalizing stop with
  | nil => rfl
  | cons token rest ih =>
    obtain ⟨ends, filled, before⟩ := tiles
    have same : Token.clip limit token = token := by
      have bound : token.stop ≤ limit := ends ▸ le
      simp only [Token.clip, Nat.min_eq_left bound]
    rw [List.map_cons, same, ih before (by omega)]

theorem starts (tiles : Tiles tokens stop) (present : tokens ≠ []) :
    tokens.getLast?.map (·.start) = some 0 := by
  induction tokens generalizing stop with
  | nil => exact absurd rfl present
  | cons token rest ih =>
    cases rest with
    | nil => exact congrArg Option.some tiles.2.2
    | cons next others =>
      rw [List.getLast?_cons_cons]
      exact ih tiles.2.2 (by simp)

theorem chained (tiles : Tiles tokens stop) :
    tokens.IsChain fun next token => next.start = token.stop := by
  induction tokens generalizing stop with
  | nil => exact .nil
  | cons token rest ih =>
    have inner := ih tiles.2.2
    cases rest with
    | nil => exact .singleton token
    | cons next others => exact .cons_cons tiles.2.2.1.symm inner

theorem filled (tiles : Tiles tokens stop) : ∀ token ∈ tokens, token.start < token.stop := by
  induction tokens generalizing stop with
  | nil => simp
  | cons token rest ih =>
    intro other member
    rcases List.mem_cons.mp member with rfl | inner
    · exact tiles.1 ▸ tiles.2.1
    · exact ih tiles.2.2 other inner

theorem covers (tiles : Tiles tokens stop) (present : tokens ≠ []) : Covers tokens.reverse stop where
  starts := by rw [List.head?_reverse, tiles.starts present]
  chained := List.isChain_reverse.mpr tiles.chained
  stops := by
    cases tokens with
    | nil => exact absurd rfl present
    | cons token rest => simp [tiles.1]
  filled := .inl fun token member => tiles.filled token (List.mem_reverse.mp member)

end Tiles

namespace Emitted

theorem finish_covers (tokens : List Token) (size : Nat) (tiles : Tiles tokens (size + 1))
    (scopes : ScopePath) (metadata : Metadata) :
    Covers ((Emitted.plain tokens).finish size scopes metadata).tokens size := by
  cases tokens with
  | nil => exact absurd tiles (Nat.succ_ne_zero size)
  | cons last rest =>
    obtain ⟨ends, filled, before⟩ := tiles
    by_cases feed : last.start = size
    · rw [feed] at before
      cases rest with
      | nil =>
        obtain rfl : size = 0 := before
        have whole : ((Emitted.plain [last]).finish 0 scopes metadata).tokens =
            [⟨0, 0, scopes.names, metadata⟩] := by
          simp [finish, Emitted.tokens, feed, Token.clip]
        rw [whole]
        exact ⟨rfl, .singleton _, rfl, .inr ⟨rfl, _, rfl, rfl, rfl⟩⟩
      | cons next others =>
        have whole : ((Emitted.plain (last :: next :: others)).finish size scopes metadata).tokens =
            (next :: others).reverse := by
          simp only [finish, Emitted.tokens, feed, List.map_reverse]
          exact congrArg List.reverse (before.clip le_rfl)
        rw [whole]
        exact before.covers (by simp)
    · have whole : ((Emitted.plain (last :: rest)).finish size scopes metadata).tokens =
          ({ last with stop := size } :: rest).reverse := by
        have clipped : Token.clip size last = { last with stop := size } := by
          simp [Token.clip, ends]
        simp only [finish, Emitted.tokens, feed, if_false, List.isEmpty_cons, Bool.false_eq_true,
          List.map_reverse, List.map_cons, clipped, before.clip (Nat.le_of_lt_succ filled)]
      have shorter : last.start < size := Nat.lt_of_le_of_ne (Nat.le_of_lt_succ filled) feed
      have clipped : Tiles ({ last with stop := size } :: rest) size := ⟨rfl, shorter, before⟩
      rw [whole]
      exact clipped.covers (by simp)

end Emitted

namespace Job

variable {grammar : Grammar}

def Tiled (limit : Nat) (work : Work grammar) : Prop :=
  ∃ tokens, work.emitted = .plain tokens ∧ Tiles tokens work.lastStop ∧ work.lastStop ≤ limit

def TiledTwice (limit : Nat) (first second : Work grammar) : Prop :=
  first.emitted = second.emitted ∧ first.lastStop = second.lastStop ∧ Tiled limit first

theorem emit_tiled (limit : Nat) (scopes : ScopePath) (stop : Nat) (bound : stop ≤ limit)
    (work : Work grammar) (tiled : Tiled limit work) :
    Tiled limit ((emit scopes stop).run work).2 := by
  obtain ⟨tokens, emitted, tiles, before⟩ := tiled
  rw [run_emit]
  split
  · exact ⟨tokens, emitted, tiles, before⟩
  · rename_i later
    have taken : Tiles (⟨work.lastStop, stop, scopes.names, grammar.tokenMetadata scopes⟩ :: tokens)
        stop := ⟨rfl, Nat.lt_of_not_le later, tiles⟩
    refine ⟨_, ?_, taken, bound⟩
    rw [emitted]
    rfl

theorem tiledTwice_steady (limit : Nat) :
    Steady (TiledTwice limit : Work grammar → Work grammar → Prop) limit where
  emit := by
    intro scopes stop bound first second ⟨emitted, places, tiled⟩
    refine ⟨trivial, ?_, ?_, emit_tiled limit scopes stop bound first tiled⟩
    all_goals
      rw [run_emit, run_emit, places]
      split <;> simp [emitted, places]
  overflow := fun _ _ same => ⟨trivial, same⟩
  caches := fun _ _ _ _ same => same

def Filled (size : Nat) (outcome : Outcome) (work : Work grammar) : Prop :=
  match outcome with
  | .done _ => size ≤ work.lastStop
  | .more _ => True

theorem emit_reaches (scopes : ScopePath) (stop : Nat) :
    Ensures (fun _ => True) (emit scopes stop : Job grammar Unit) fun _ work =>
      stop ≤ work.lastStop := by
  intro work _
  rw [run_emit]
  split
  · assumption
  · exact le_rfl

variable (retokenize : Retokenize grammar) (text : List Char) (size : Nat)

theorem more_filled (next : Progress) :
    Ensures (fun _ => True) (return .more next : Job grammar Outcome) (Filled size) :=
  Ensures.pure _ fun _ _ => trivial

theorem emit_done_filled (scopes : ScopePath) (stack : Stack) :
    Ensures (fun _ => True) (do emit scopes size; return .done stack : Job grammar Outcome)
      (Filled size) :=
  Ensures.bind (emit_reaches scopes size) fun _ => Ensures.pure _ fun _ reached => reached

theorem stepPast_filled (progress : Progress) :
    Ensures (fun _ => True) (stepPast text size progress : Job grammar Outcome) (Filled size) := by
  unfold stepPast
  dsimp only
  split
  · exact Ensures.skip fun _ => more_filled size _
  · exact emit_done_filled size _ _

theorem close_filled (progress : Progress) (found : Regex.Match) :
    Ensures (fun _ => True) (close retokenize text size progress found) (Filled size) := by
  unfold close
  refine Ensures.skip fun _ => Ensures.skip fun _ => Ensures.skip fun _ => ?_
  dsimp only
  split
  · exact stepPast_filled text size _
  · exact more_filled size _

theorem takeMatch_filled (progress : Progress) (id : RuleId) (rules : CaptureRules)
    (found : Regex.Match) (nameScopes : ScopePath) :
    Ensures (fun _ => True) (takeMatch retokenize text size progress id rules found nameScopes)
      (Filled size) := by
  unfold takeMatch
  refine Ensures.skip fun _ => Ensures.skip fun _ => ?_
  split
  · exact more_filled size _
  · exact stepPast_filled text size _

theorem openRule_filled (progress : Progress) (id : RuleId) (rule : Rule) (rules : CaptureRules)
    (follow : Pattern) (found : Regex.Match) (nameScopes : ScopePath) :
    Ensures (fun _ => True)
      (openRule retokenize text size progress id rule rules follow found nameScopes)
      (Filled size) := by
  unfold openRule
  refine Ensures.skip fun _ => Ensures.skip fun _ => Ensures.skip fun _ => ?_
  dsimp only
  split
  all_goals
    refine Ensures.skip fun _ => ?_
    split
    · exact stepPast_filled text size _
    · exact more_filled size _

theorem takeRule_filled (progress : Progress) (id : RuleId) (found : Regex.Match) :
    Ensures (fun _ => True) (takeRule retokenize text size progress id found) (Filled size) := by
  unfold takeRule
  refine Ensures.skip fun _ => ?_
  split
  · exact more_filled size _
  · refine Ensures.skip fun _ => ?_
    split
    · exact takeMatch_filled retokenize text size progress id _ found _
    · exact openRule_filled retokenize text size progress id _ _ _ found _
    · exact openRule_filled retokenize text size progress id _ _ _ found _
    · exact more_filled size _
    · exact more_filled size _

theorem advance_filled (progress : Progress) :
    Ensures (fun _ => True) (advance retokenize text size progress) (Filled size) := by
  unfold advance
  dsimp only
  split
  · exact emit_done_filled size _ _
  · exact close_filled retokenize text size progress _
  · exact takeRule_filled retokenize text size progress _ _

theorem read_filled (forward : grammar.SearchesForward) (rooted : grammar.graph.IsRooted)
    (checks : Option Nat) (fuel : Nat) (progress : Progress)
    (admits : grammar.Admits progress.stack)
    (enough : progress.potential grammar.graph.rules.size (Text.byteLength text) < fuel) :
    Ensures (fun _ => True) (read retokenize text (Text.byteLength text) checks fuel progress)
      fun result work => result.2 = false → Text.byteLength text ≤ work.lastStop := by
  induction fuel generalizing checks progress with
  | zero => exact absurd enough (Nat.not_lt_zero _)
  | succ fuel ih =>
    by_cases late : checks = some 0
    · subst late
      exact Ensures.pure _ fun _ _ => nofun
    · rw [read_succ _ _ _ _ _ _ late]
      intro work _
      have filled := advance_filled retokenize text (Text.byteLength text) progress work trivial
      have moves := advance_moves retokenize text progress work
      rw [run_bind]
      cases outcome : ((advance retokenize text (Text.byteLength text) progress).run work).1 with
      | done stack =>
        rw [outcome] at filled
        exact fun _ => filled
      | more next =>
        rw [outcome] at moves
        have less := Progress.Moves.potential_lt moves rooted forward admits
        exact ih _ next (admits.moves rfl moves) (by omega) _ trivial

end Job

namespace Grammar

variable {grammar : Grammar}

theorem lineJob_fills (forward : grammar.SearchesForward) (rooted : grammar.graph.IsRooted)
    (depth : Nat) (line : String) (start : Stack) (isFirst : Bool) (checks : Option Nat)
    (admits : grammar.Admits start) :
    Job.Ensures (fun _ => True) (grammar.lineJob depth line start isFirst checks)
      fun _ work => lineSize line ≤ work.lastStop := by
  have shallow (stack : Stack) (less : stack.frames.length ≤ start.frames.length) :
      stack.pop.frames.length ≤ start.frames.length := stack.length_pop_le.trans less
  have conditions (holds : Stack → Prop) (pop : ∀ stack, holds stack → holds stack.pop)
      (here : holds start) :=
    checkConditions_keeps pop (retokenize depth : Retokenize grammar) (lineText line)
      (lineStart start isFirst) here start.enclosing.reverse fun outer member =>
        enclosing_keeps pop start here outer (List.mem_reverse.mp member)
  have reached : Job.Ensures (fun _ => True)
      (checkConditions (retokenize depth) (lineText line) (lineStart start isFirst)
        start.enclosing.reverse)
      fun progress _ => grammar.Admits progress.stack ∧
        progress.stack.frames.length ≤ start.frames.length :=
    fun work _ => ⟨conditions grammar.Admits (fun _ => Admits.pop) admits work,
      conditions (·.frames.length ≤ start.frames.length) shallow le_rfl work⟩
  unfold lineJob
  refine Job.Ensures.bind reached fun progress => ?_
  refine Job.Ensures.given fun ⟨now, less⟩ => ?_
  have enough : progress.potential grammar.graph.rules.size (lineSize line) <
      Job.rounds grammar (lineSize line) start := by
    refine (progress.potential_lt_rounds grammar (lineSize line)).trans_le ?_
    exact Nat.mul_le_mul_left _ (Nat.add_le_add_right less _)
  refine Job.Ensures.bind (Job.read_filled (retokenize depth) (lineText line) forward rooted
    checks _ progress now enough) ?_
  rintro ⟨stack, stopped⟩
  cases stopped with
  | false => exact Job.Ensures.pure _ fun _ filled => filled rfl
  | true =>
    intro work _
    exact Job.emit_reaches stack.contentScopes (lineSize line) work trivial

theorem lineJob_tiles (depth : Nat) (line : String) (start : Stack) (isFirst : Bool)
    (checks : Option Nat) (resolves : ∀ frame ∈ start.frames, grammar.Resolves frame)
    (ready : Caches grammar) :
    Job.Tiled (lineSize line) ((grammar.lineJob depth line start isFirst checks).run
      ⟨ready, Emitted.none false, 0, false⟩).2 := by
  have nothing : Job.Tiled (lineSize line) (⟨ready, Emitted.none false, 0, false⟩ : Work grammar) :=
    ⟨[], rfl, rfl, Nat.zero_le _⟩
  have both := lineJob_relates (Job.tiledTwice_steady (lineSize line)) depth line le_rfl
    (Stack.Agrees.refl resolves) (.inl rfl) isFirst checks _ _ ⟨rfl, rfl, nothing⟩
  exact both.2.2.2

theorem covers_tokenize (library : Library) (grammar : Grammar)
    (compiled : grammar.graph = RuleGraph.compile library) (forward : grammar.SearchesForward)
    (prior : Option Stack)
    (earlier : ∀ stack, prior = some stack →
      Returned (fun other => ∃ theme, other = grammar.withTheme theme) stack)
    (depth : Nat) (line : String) (checks : Option Nat) (caches : Caches grammar) :
    Covers ((tokenize depth line prior checks false).run caches).1.emitted.tokens
      (Text.byteLength line.toList) := by
  have rooted : grammar.graph.IsRooted := compiled ▸ RuleGraph.compile_isRooted library
  have admits : grammar.Admits (grammar.startOfLine prior) := by
    cases prior with
    | none => exact Admits.firstStack grammar
    | some stack => exact (earlier stack rfl).admits
  obtain ⟨ready, same⟩ := tokenize_eq depth line prior checks false caches
  rw [same]
  obtain ⟨tokens, emitted, tiles, within⟩ :=
    lineJob_tiles depth line _ prior.isNone checks admits.resolves ready
  have filled := lineJob_fills forward rooted depth line _ prior.isNone checks admits
    ⟨ready, Emitted.none false, 0, false⟩ trivial
  have whole := le_antisymm within filled
  have size := lineSize_eq line
  rw [whole, size] at tiles
  simp only [lineResult, size, Nat.add_sub_cancel]
  rw [emitted]
  exact Emitted.finish_covers tokens _ tiles _ _

end Grammar

end Highlighter
