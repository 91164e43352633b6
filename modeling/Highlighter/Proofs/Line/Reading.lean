import Highlighter.Proofs.Line.Nesting

set_option autoImplicit false

namespace Highlighter

namespace Grammar

open Job (Lays Encloses)

variable {grammar : Grammar}

def lineText (line : String) : List Char := line.toList ++ ['\n']

def lineSize (line : String) : Nat := Text.byteLength (lineText line)

theorem lineSize_eq (line : String) : lineSize line = Text.byteLength line.toList + 1 := by
  simp [lineSize, lineText, Text.byteLength_append, Text.byteLength]
  rfl

def lineStart (start : Stack) (isFirst : Bool) : Progress :=
  ⟨0, start, 0, if start.top.tookLineEnd then some 0 else none, isFirst⟩

def lineJob (grammar : Grammar) (depth : Nat) (line : String) (start : Stack) (isFirst : Bool)
    (checks : Option Nat) : Job grammar (Stack × Bool) := do
  let progress ← checkConditions (retokenize depth) (lineText line) (lineStart start isFirst)
    start.enclosing.reverse
  let (stack, stopped) ← Job.read (retokenize depth) (lineText line) (lineSize line) checks
    (Job.rounds grammar (lineSize line) start) progress
  if stopped then Job.emit stack.contentScopes (lineSize line)
  return (stack, stopped)

def startOfLine (grammar : Grammar) (prior : Option Stack) : Stack := prior.getD grammar.firstStack

def lineResult (grammar : Grammar) (line : String) (start : Stack)
    (final : (Stack × Bool) × Work grammar) : LineResult :=
  ⟨final.2.emitted.finish (lineSize line - 1) final.1.1.contentScopes
      (grammar.tokenMetadata final.1.1.contentScopes),
    if final.1.2 then start else final.1.1, final.1.2, final.2.tooDeep⟩

theorem tokenize_eq (depth : Nat) (line : String) (prior : Option Stack) (checks : Option Nat)
    (isPacked : Bool) (caches : Caches grammar) :
    ∃ ready, ((tokenize depth line prior checks isPacked).run caches).1 =
      grammar.lineResult line (grammar.startOfLine prior)
        ((grammar.lineJob depth line (grammar.startOfLine prior) prior.isNone checks).run
          ⟨ready, Emitted.none isPacked, 0, false⟩) := by
  cases prior with
  | some stack => exact ⟨caches, rfl⟩
  | none =>
    refine ⟨((initialStack : StateM (Caches grammar) Stack).run caches).2, ?_⟩
    rw [startOfLine, Option.getD_none, ← initialStack_value caches]
    rfl

variable {onto : ScopePath → Prop} {holds : Stack → Prop}

theorem enclosing_keeps (pop : ∀ stack, holds stack → holds stack.pop) (stack : Stack)
    (here : holds stack) : ∀ outer ∈ stack.enclosing, holds outer := by
  obtain ⟨top, below⟩ := stack
  simp only [Stack.enclosing]
  induction below generalizing top with
  | nil =>
    intro outer member
    obtain rfl := List.mem_singleton.mp member
    exact here
  | cons frame rest ih =>
    intro outer member
    rcases List.mem_cons.mp member with rfl | inner
    · exact here
    · exact ih frame (pop _ here) outer inner

section

variable {fair : Work grammar → Prop} (lasts : Job.Lasts onto fair) {admits : RuleId → Prop}
  {good inner : Stack → Prop} (carries : Job.Carries grammar onto admits good inner)
  (turns : ∀ before after : Stack, before.Turns grammar after → holds before → holds after)
  (on : ∀ stack, holds stack → good stack)

include lasts carries turns on

theorem checkConditions_lays {retokenize : Retokenize grammar}
    (nested : Encloses fair inner retokenize) (text : List Char) (progress : Progress)
    (here : holds progress.stack) (outer : List Stack) (all : ∀ stack ∈ outer, holds stack) :
    Lays fair (checkConditions retokenize text progress outer) (holds ·.stack) := by
  induction outer generalizing progress with
  | nil => exact Lays.pure _ here
  | cons stack rest ih =>
    have others (stack : Stack) (member : stack ∈ rest) := all stack (List.mem_cons_of_mem _ member)
    unfold checkConditions
    split
    · rename_i known
      have now := all stack List.mem_cons_self
      have content := carries.content (on stack now)
      dsimp only
      split
      · exact Lays.pure _ (turns _ _ .closes now)
      · refine Lays.bind (Lays.emit lasts content _) fun _ _ => ?_
        refine Lays.bind (Job.captures_lays lasts carries nested text _ (on stack now) _
          (carries.captures (carries.top (on stack now)) known (by simp [Rule.linked])) _)
          fun _ _ => ?_
        refine Lays.bind (Lays.emit lasts content _) fun _ _ => ih _ ?_ others
        exact (progress.moveTo_stack _).symm ▸ here
    · exact ih progress here others

theorem lineJob_lays {depth : Nat} (nested : Encloses fair inner (retokenize depth)) (line : String)
    {start : Stack} (isFirst : Bool) (checks : Option Nat) (here : holds start) :
    Lays fair (grammar.lineJob depth line start isFirst checks) (holds ·.1) := by
  have pop (stack : Stack) : holds stack → holds stack.pop := turns _ _ .closes
  unfold lineJob
  refine Lays.bind (checkConditions_lays lasts carries turns on nested _ (lineStart start isFirst)
    here _ fun outer member => ?_) fun progress now => ?_
  · exact enclosing_keeps pop start here outer (List.mem_reverse.mp member)
  · refine Lays.bind (Job.read_lays lasts carries nested _ _ (on _ now) turns now checks _)
      fun (stack, stopped) last => ?_
    cases stopped with
    | false => exact Lays.pure _ last
    | true =>
      exact Lays.bind (Lays.emit lasts (carries.content (on _ last)) _) fun _ _ => Lays.pure _ last

end

namespace Grounds

variable (grounds : grammar.Grounds onto holds)

include grounds

theorem tokenize (depth : Nat) (line : String) (prior : Option Stack) (checks : Option Nat)
    (isPacked : Bool) (caches : Caches grammar) (here : holds (grammar.startOfLine prior)) :
    let result := ((Grammar.tokenize depth line prior checks isPacked).run caches).1
    holds result.stack ∧ ∀ token ∈ result.emitted.tokens, grammar.Places onto token := by
  obtain ⟨ready, same⟩ := tokenize_eq depth line prior checks isPacked caches
  have nothing : Job.Placed onto (⟨ready, Emitted.none isPacked, 0, false⟩ : Work grammar) := by
    cases isPacked <;> exact fun _ => nofun
  have carries := Job.onPaths_carries grounds.grows
  have encloses := retokenize_encloses (Job.placed_lasts onto) (fun _ placed => placed) carries depth
  obtain ⟨ended, placed⟩ := lineJob_lays (Job.placed_lasts onto) carries grounds.turns grounds.on
    encloses line prior.isNone checks here _ nothing
  dsimp only
  rw [same]
  refine ⟨?_, fun token member => ?_⟩
  · unfold lineResult
    dsimp only
    split
    · exact here
    · exact ended
  · obtain ⟨old, rfl | known, rfl⟩ := Emitted.mem_finish member
    · exact ⟨_, (grounds.on _ ended).content, rfl, rfl⟩
    · exact placed old known

end Grounds

structure Keeps (grammar : Grammar) (holds : Stack → Prop) : Prop where
  pop : ∀ stack, holds stack → holds stack.pop
  push : ∀ stack frame, holds stack → grammar.Opens stack.contentScopes frame →
    holds (stack.push frame)

theorem checkConditions_keeps (pop : ∀ stack, holds stack → holds stack.pop)
    (retokenize : Retokenize grammar) (text : List Char) (progress : Progress)
    (here : holds progress.stack) (outer : List Stack) (all : ∀ stack ∈ outer, holds stack) :
    Job.Yields (checkConditions retokenize text progress outer) (holds ·.stack) := by
  induction outer generalizing progress with
  | nil => exact Job.Yields.pure _ here
  | cons stack rest ih =>
    have others (stack : Stack) (member : stack ∈ rest) := all stack (List.mem_cons_of_mem _ member)
    unfold checkConditions
    split
    · dsimp only
      split
      · exact Job.Yields.pure _ (pop _ (all stack (by simp)))
      · refine Job.Yields.skip fun _ => Job.Yields.skip fun _ => Job.Yields.skip fun _ => ?_
        refine ih _ ?_ others
        exact (progress.moveTo_stack _).symm ▸ here
    · exact ih progress here others

namespace Keeps

variable (keeps : grammar.Keeps holds)

include keeps

theorem grounds : grammar.Grounds (fun _ => True) holds where
  grows := fun _ _ _ => trivial
  on := fun _ _ _ _ => ⟨trivial, trivial⟩
  pop := keeps.pop
  push := fun stack frame here nests => keeps.push stack frame here nests.opens

theorem tokenize (depth : Nat) (line : String) (prior : Option Stack) (checks : Option Nat)
    (isPacked : Bool) (caches : Caches grammar) (here : holds (grammar.startOfLine prior)) :
    holds ((Grammar.tokenize depth line prior checks isPacked).run caches).1.stack :=
  (keeps.grounds.tokenize depth line prior checks isPacked caches here).1

end Keeps

end Grammar

inductive Reached (usable : Grammar → Prop) : Stack → Prop
  | first {grammar : Grammar} (used : usable grammar) (caches : Caches grammar) :
    Reached usable ((Grammar.initialStack : StateM (Caches grammar) Stack).run caches).1
  | line {grammar : Grammar} (used : usable grammar) (depth : Nat) (line : String)
    (prior : Option Stack) (earlier : ∀ stack, prior = some stack → Reached usable stack)
    (checks : Option Nat) (isPacked : Bool) (caches : Caches grammar) :
    Reached usable ((Grammar.tokenize depth line prior checks isPacked).run caches).1.stack

section

variable {usable : Grammar → Prop} {onto : ScopePath → Prop} {holds : Stack → Prop}
  (grounds : ∀ grammar, usable grammar → grammar.Grounds onto holds)
  (first : ∀ grammar, usable grammar → holds grammar.firstStack)

include grounds first

theorem Reached.keeps {stack : Stack} (reached : Reached usable stack) : holds stack := by
  induction reached with
  | @first grammar used caches => exact Grammar.initialStack_value caches ▸ first grammar used
  | @line grammar used depth line prior earlier checks isPacked caches ih =>
    refine ((grounds grammar used).tokenize depth line prior checks isPacked caches ?_).1
    cases prior with
    | none => exact first grammar used
    | some prior => exact ih prior rfl

theorem Grammar.tokenize_grounded {grammar : Grammar} (used : usable grammar) (depth : Nat)
    (line : String) {prior : Option Stack}
    (earlier : ∀ stack, prior = some stack → Reached usable stack) (checks : Option Nat)
    (isPacked : Bool) (caches : Caches grammar) :
    let result := ((tokenize depth line prior checks isPacked).run caches).1
    holds result.stack ∧ ∀ token ∈ result.emitted.tokens, grammar.Places onto token := by
  refine (grounds grammar used).tokenize depth line prior checks isPacked caches ?_
  cases prior with
  | none => exact first grammar used
  | some prior => exact (earlier prior rfl).keeps grounds first

end

inductive Returned (usable : Grammar → Prop) : Stack → Prop
  | line {grammar : Grammar} (used : usable grammar) (depth : Nat) (line : String)
    (prior : Option Stack) (earlier : ∀ stack, prior = some stack → Returned usable stack)
    (checks : Option Nat) (isPacked : Bool) (caches : Caches grammar) :
    Returned usable ((Grammar.tokenize depth line prior checks isPacked).run caches).1.stack

namespace Returned

variable {usable : Grammar → Prop} {holds : Stack → Prop} {stack : Stack}

theorem keeps (returned : Returned usable stack)
    (keep : ∀ grammar, usable grammar → grammar.Keeps holds)
    (first : ∀ grammar, usable grammar → holds grammar.firstStack) : holds stack := by
  induction returned with
  | @line grammar used depth line prior earlier checks isPacked caches ih =>
    refine (keep grammar used).tokenize depth line prior checks isPacked caches ?_
    cases prior with
    | none => exact first grammar used
    | some prior => exact ih prior rfl

end Returned

namespace Grammar

variable {grammar : Grammar}

def Makes (grammar : Grammar) (stack : Stack) : Prop :=
  ∀ frame ∈ stack.frames, grammar.Resolves frame ∧ grammar.Paints frame.nameScopes ∧
    grammar.Paints frame.contentScopes

theorem makes_keeps (grammar : Grammar) : grammar.Keeps grammar.Makes where
  pop := fun stack makes frame member => makes frame (stack.pop_subset frame member)
  push := by
    intro stack frame makes opens other member
    rcases List.mem_cons.mp member with rfl | old
    · obtain ⟨name, named⟩ := opens.named
      obtain ⟨content, within⟩ := opens.content
      have outer := (makes stack.top (by simp [Stack.frames])).2.2
      have inner : grammar.Paints other.nameScopes := named ▸ paints_pathAfter _ name outer
      exact ⟨opens.resolves, inner, within ▸ paints_pathAfter _ content inner⟩
    · exact makes other old

theorem firstStack_makes (grammar : Grammar) : grammar.Makes grammar.firstStack := by
  intro frame member
  have resolves := (Admits.firstStack grammar).resolves frame member
  obtain rfl := List.mem_singleton.mp member
  have painted := paints_pathAfter _ (some grammar.scopeName) (paints_empty grammar)
  exact ⟨resolves, painted, painted⟩

theorem Resolves.withTheme {frame : Frame} {theme : Option Theme}
    (resolves : (grammar.withTheme theme).Resolves frame) : grammar.Resolves frame := by
  intro pattern stored
  obtain ⟨known, follows, refers, compiled⟩ := resolves pattern stored
  exact ⟨known, follows, refers, compiled⟩

theorem Admits.withTheme {stack : Stack} {theme : Option Theme}
    (admits : (grammar.withTheme theme).Admits stack) : grammar.Admits stack where
  rooted := admits.rooted
  resolves := fun frame member => (admits.resolves frame member).withTheme

end Grammar

theorem Returned.admits {grammar : Grammar} {stack : Stack}
    (returned : Returned (fun other => ∃ theme, other = grammar.withTheme theme) stack) :
    grammar.Admits stack := by
  refine returned.keeps ?_ ?_
  · rintro _ ⟨theme, rfl⟩
    exact ⟨fun _ admits => admits.pop, fun _ _ admits opens => admits.push opens.resolves.withTheme⟩
  · rintro _ ⟨theme, rfl⟩
    exact (Grammar.Admits.firstStack (grammar.withTheme theme)).withTheme

theorem Returned.makes {grammar : Grammar} {stack : Stack}
    (returned : Returned (· = grammar) stack) : grammar.Makes stack := by
  refine returned.keeps ?_ ?_
  · rintro _ rfl
    exact Grammar.makes_keeps _
  · rintro _ rfl
    exact Grammar.firstStack_makes _

end Highlighter
