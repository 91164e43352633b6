import Highlighter.Proofs.Line.Lockstep

set_option autoImplicit false

namespace Highlighter

namespace Frame

variable {grammar : Grammar} {a b : Frame}

theorem sameEnd_iff (first : grammar.Resolves a) (second : grammar.Resolves b) :
    sameEnd a.resolved b.resolved = true ↔ a.resolved = b.resolved := by
  simp only [sameEnd, beq_iff_eq]
  refine ⟨fun same => ?_, congrArg _⟩
  cases left : a.resolved with
  | none => simpa [left, eq_comm] using same
  | some x =>
    cases right : b.resolved with
    | none => simp [left, right] at same
    | some y =>
      obtain ⟨_, _, _, compiledFirst⟩ := first x left
      obtain ⟨_, _, _, compiledSecond⟩ := second y right
      have sources : x.source = y.source := by simpa [left, right] using same
      rw [Pattern.ofSource_unique _ _ x y compiledFirst compiledSecond sources]

theorem sameNames_iff {x y : ScopePath} (first : grammar.Paints x) (second : grammar.Paints y) :
    x.sameNames y = true ↔ x = y := by
  refine ⟨Grammar.paints_unique x y first second, ?_⟩
  rintro rfl
  exact beq_self_eq_true _

end Frame

namespace Stack

variable {grammar : Grammar} {a b : Stack}

theorem same_iff (first : grammar.Makes a) (second : grammar.Makes b) :
    a.same b = true ↔ a.Agrees grammar 0 b := by
  unfold Stack.same Stack.Agrees
  unfold Grammar.Makes at first second
  generalize a.frames = as, b.frames = bs at first second
  induction as generalizing bs with
  | nil =>
    cases bs with
    | nil => exact iff_of_true rfl (.nil 0)
    | cons y bs => exact iff_of_false (by simp [sameFrames]) nofun
  | cons x as ih =>
    cases bs with
    | nil => exact iff_of_false (by simp [sameFrames]) nofun
    | cons y bs =>
      obtain ⟨resolvesFirst, namedFirst, contentFirst⟩ := first x (by simp)
      obtain ⟨resolvesSecond, namedSecond, contentSecond⟩ := second y (by simp)
      have rest := ih bs (fun frame member => first frame (List.mem_cons_of_mem _ member))
        fun frame member => second frame (List.mem_cons_of_mem _ member)
      simp only [sameFrames, Frame.same, Bool.and_eq_true, beq_iff_eq,
        Frame.sameEnd_iff resolvesFirst resolvesSecond, Frame.sameNames_iff namedFirst namedSecond,
        Frame.sameNames_iff contentFirst contentSecond, rest]
      constructor
      · rintro ⟨⟨⟨⟨⟨depth, rule⟩, resolved⟩, named⟩, content⟩, others⟩
        exact .cons ⟨depth, rule, resolved, named, content, resolvesFirst⟩
          (fun some => absurd some (by simp)) others
      · intro agree
        cases agree with
        | cons agrees _ others =>
          exact ⟨⟨⟨⟨⟨agrees.depth, agrees.rule⟩, agrees.resolved⟩, agrees.nameScopes⟩,
            agrees.contentScopes⟩, others⟩

end Stack

namespace Job

def EmittedAlike {grammar : Grammar} (first second : Work grammar) : Prop :=
  first.emitted = second.emitted ∧ first.lastStop = second.lastStop ∧
    first.tooDeep = second.tooDeep

theorem emittedAlike_steady (grammar : Grammar) (limit : Nat) :
    Steady (EmittedAlike : Work grammar → Work grammar → Prop) limit where
  emit := by
    intro scopes stop _ first second ⟨emitted, places, deep⟩
    refine ⟨trivial, ?_⟩
    unfold EmittedAlike
    rw [run_emit, run_emit, places]
    split <;> simp [emitted, places, deep]
  overflow := fun _ _ ⟨emitted, places, _⟩ => ⟨trivial, emitted, places, rfl⟩
  caches := fun _ _ _ _ same => same

end Job

structure LineResult.Alike (a b : LineResult) : Prop where
  emitted : a.emitted = b.emitted
  stoppedEarly : a.stoppedEarly = b.stoppedEarly
  stack : a.stack.same b.stack = true
  tooDeep : a.tooDeep = b.tooDeep

namespace Grammar

variable {grammar : Grammar}

-- The anchor is at the start of the next line for both stacks or for neither, or it is never looked
-- for.
def AnchorsAlike (grammar : Grammar) (a b : Stack) : Prop :=
  a.top.tookLineEnd = b.top.tookLineEnd ∨ grammar.IgnoresAnchor

theorem tokenize_agrees (a b : Option Stack) (blank : a.isNone = b.isNone)
    (first : grammar.Makes (grammar.startOfLine a)) (second : grammar.Makes (grammar.startOfLine b))
    (agrees : (grammar.startOfLine a).Agrees grammar 0 (grammar.startOfLine b))
    (anchors : grammar.AnchorsAlike (grammar.startOfLine a) (grammar.startOfLine b))
    (depth : Nat) (line : String) (checks : Option Nat) (isPacked : Bool)
    (one other : Caches grammar) :
    ((tokenize depth line a checks isPacked).run one).1.Alike
      ((tokenize depth line b checks isPacked).run other).1 := by
  have madeFirst := (makes_keeps grammar).tokenize depth line a checks isPacked one first
  have madeSecond := (makes_keeps grammar).tokenize depth line b checks isPacked other second
  obtain ⟨ready, left⟩ := tokenize_eq depth line a checks isPacked one
  obtain ⟨set, right⟩ := tokenize_eq depth line b checks isPacked other
  rw [left] at madeFirst ⊢
  rw [right] at madeSecond ⊢
  rw [← blank] at madeSecond ⊢
  obtain ⟨⟨ended, stopped⟩, emitted, _, deep⟩ :=
    lineJob_relates (Job.emittedAlike_steady grammar (lineSize line)) depth line le_rfl agrees
      anchors a.isNone checks ⟨ready, Emitted.none isPacked, 0, false⟩
      ⟨set, Emitted.none isPacked, 0, false⟩ ⟨rfl, rfl, rfl⟩
  refine ⟨?_, stopped, (Stack.same_iff madeFirst madeSecond).mpr ?_, deep⟩
  · simp only [lineResult, emitted, ended.scopes]
  · simp only [lineResult]
    rw [stopped]
    split
    · exact agrees
    · exact ended

/-- Stacks that are equal, and that do not differ in where the next line has its anchor, read every
line alike. -/
theorem tokenize_alike (a b : Stack) (first : Returned (· = grammar) a)
    (second : Returned (· = grammar) b) (same : a.same b = true) (anchors : grammar.AnchorsAlike a b)
    (depth : Nat) (line : String) (checks : Option Nat) (isPacked : Bool)
    (one other : Caches grammar) :
    ((tokenize depth line (some a) checks isPacked).run one).1.Alike
      ((tokenize depth line (some b) checks isPacked).run other).1 :=
  tokenize_agrees (some a) (some b) rfl first.makes second.makes
    ((Stack.same_iff first.makes second.makes).mp same) anchors depth line checks isPacked one other

end Grammar

-- The rule opens with `x` or with the end of a line, and has a rule that only matches at the anchor.
def Library.anchored : Library :=
  ⟨⟨some "t", none, [⟨none, none, none, none, none, some "\n|x", none, some "z", none, none, none,
    some [⟨none, some "s", none, some "\\Ga", none, none, none, none, none, none, none, none, none,
      false⟩], none, false⟩], [], [], none, [], [], none⟩, Repository.empty⟩

def RuleGraph.anchored : RuleGraph :=
  let letter (c : Char) : Regex.Expr := .set (.char c)
  let marked : Option Regex := some ⟨.seq (.anchor .searchStart) (letter 'a'), []⟩
  let never : Option Regex := some ⟨.seq (letter '\uffff') (letter 'a'), []⟩
  ⟨#[.held 0 [1],
    ⟨1, none, none, .spanning (.unanchored "\n|x" (.alt (letter '\n') (letter 'x'))) []
      (.unanchored "z" (letter 'z')) [] false [2]⟩,
    ⟨2, some [.plain 's'], none, .matching ⟨"\\Ga", false, ⟨marked, never, marked, never⟩⟩ []⟩], 0, []⟩

namespace Grammar

def anchored : Grammar :=
  ofGraph Library.anchored Configuration.default (RuleGraph.compile Library.anchored)

theorem anchored_eq :
    anchored = ⟨Library.anchored.base, RuleGraph.anchored, ⟨0, []⟩, [], none, none⟩ := by
  cbv

def anchoredStack (entered : Nat) (tookLineEnd : Bool) : Stack :=
  let path := anchored.pathAfter ScopePath.empty (some "t")
  ⟨⟨2, 1, some entered, none, tookLineEnd, none, path, path⟩,
    [⟨1, 0, none, none, false, none, path, path⟩]⟩

def anchoredLine (depth : Nat) (line : String) (prior : Option Stack) : LineResult :=
  ((tokenize depth line prior none false).run (Caches.empty anchored)).1

theorem anchoredLine_returned (line : String) :
    Returned (· = anchored) (anchoredLine 0 line none).stack :=
  @Returned.line (· = anchored) anchored rfl 0 line none (fun _ => nofun) none false
    (Caches.empty anchored)

theorem anchored_x : (anchoredLine 0 "x" none).stack = anchoredStack 0 false := by
  rw [anchoredLine, anchoredStack, anchored_eq]
  cbv

theorem anchored_later : (anchoredLine 0 " x" none).stack = anchoredStack 1 false := by
  rw [anchoredLine, anchoredStack, anchored_eq]
  cbv

theorem anchored_blank : (anchoredLine 0 "" none).stack = anchoredStack 0 true := by
  rw [anchoredLine, anchoredStack, anchored_eq]
  cbv

theorem anchored_found (depth : Nat) :
    anchoredLine depth "a" (some (anchoredStack 0 true)) =
      ⟨.plain [⟨0, 1, ["t", "s"], 0⟩], anchoredStack 0 true, false, false⟩ := by
  rw [anchoredLine, anchoredStack, anchored_eq]
  cbv

theorem anchored_missed (depth : Nat) :
    anchoredLine depth "a" (some (anchoredStack 0 false)) =
      ⟨.plain [⟨0, 1, ["t"], 0⟩], anchoredStack 0 false, false, false⟩ := by
  rw [anchoredLine, anchoredStack, anchored_eq]
  cbv

theorem tokenize_alike_anchored :
    ((tokenize 9 "a" (some (anchoredStack 0 false)) none false).run (Caches.empty anchored)).1.Alike
      ((tokenize 9 "a" (some (anchoredStack 1 false)) none false).run (Caches.empty anchored)).1 :=
  tokenize_alike (anchoredStack 0 false) (anchoredStack 1 false)
    (anchored_x ▸ anchoredLine_returned "x") (anchored_later ▸ anchoredLine_returned " x") (by cbv)
    (.inl rfl) 9 "a" none false (Caches.empty anchored) (Caches.empty anchored)

theorem same_not_alike :
    ∃ a b : Stack, Returned (· = anchored) a ∧ Returned (· = anchored) b ∧ a.same b = true ∧
      ∀ depth, (anchoredLine depth "a" (some a)).emitted.tokens ≠
        (anchoredLine depth "a" (some b)).emitted.tokens := by
  refine ⟨anchoredStack 0 true, anchoredStack 0 false, anchored_blank ▸ anchoredLine_returned "",
    anchored_x ▸ anchoredLine_returned "x", by cbv, fun depth => ?_⟩
  rw [anchored_found, anchored_missed]
  decide

end Grammar

end Highlighter
