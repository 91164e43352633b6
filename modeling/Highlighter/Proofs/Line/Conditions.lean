import Highlighter.Proofs.Line.Reading

set_option autoImplicit false

namespace Highlighter

open Regex (Match)

namespace Regex

variable {text : List Char}

theorem firstMatch_here_or_later (attempt : Text.Cursor text → Option Match)
    (cursor : Text.Cursor text) (found : Match)
    (searched : firstMatch? attempt cursor = some found) :
    attempt cursor = some found ∨
      ∃ place : Text.Cursor text, cursor.offset < place.offset ∧ attempt place = some found := by
  unfold firstMatch? at searched
  split at searched
  · rename_i result here
    exact .inl (here.trans searched)
  · split at searched
    · rename_i c next step
      obtain ⟨place, later, here⟩ := firstMatch_some attempt next found searched
      have moved := Text.Cursor.offset_of_next? step
      have wide := Char.utf8Size_pos c
      exact .inr ⟨place, by omega, here⟩
    · cases searched

theorem matchAt_forward (regex : Regex) (fixed : regex.expr.keeps = false) (groups depth : Nat)
    (origin place : Text.Cursor text) (found : Match)
    (matched : regex.matchAt? groups depth origin place = some found) :
    found.whole.start = place.offset := by
  obtain ⟨state, ran, rfl⟩ := matchAt_some regex groups depth origin place found matched
  obtain ⟨next, ⟨ahead, kept⟩, last⟩ :=
    run_onward regex fixed origin depth regex.expr fixed some _ state ran
  obtain rfl := Option.some.inj last
  simp only [State.start] at ahead kept
  simp [State.found, kept, ahead]

theorem search_here_iff (regex : Regex) (fixed : regex.expr.keeps = false)
    (cursor : Text.Cursor text) (found : Match) :
    regex.search? cursor = some found ∧ found.whole.start = cursor.offset ↔
      regex.matchAt? regex.groupCount (regex.callDepth text) cursor cursor = some found := by
  constructor
  · rintro ⟨searched, here⟩
    rcases firstMatch_here_or_later _ cursor found searched with now | ⟨place, later, there⟩
    · exact now
    · have start := matchAt_forward regex fixed _ _ cursor place found there
      omega
  · intro now
    have searched : regex.search? cursor = some found := by
      unfold search? firstMatch?
      rw [now]
    exact ⟨searched, matchAt_forward regex fixed _ _ cursor cursor found now⟩

end Regex

namespace Frame

def condition? (grammar : Grammar) (frame : Frame) : Option Pattern :=
  match grammar.graph.rule? frame.rule with
  | some ⟨_, _, _, .continuing _ _ condition _ _⟩ => some (frame.resolved.getD condition)
  | _ => none

variable {grammar : Grammar} {frame : Frame}

theorem condition?_eq_some {condition : Pattern} (here : frame.condition? grammar = some condition) :
    ∃ id name contentName opening before own rules nested,
      grammar.graph.rule? frame.rule =
        some ⟨id, name, contentName, .continuing opening before own rules nested⟩ ∧
      frame.resolved.getD own = condition := by
  unfold condition? at here
  split at here
  · rename_i known
    exact ⟨_, _, _, _, _, _, _, _, known, Option.some.inj here⟩
  · exact nomatch here

end Frame

namespace Progress

variable (text : List Char) (progress : Progress)

def Meets (condition : Pattern) (found : Match) : Prop :=
  found.whole.start = progress.offset ∧
    ∃ cursor, Text.Cursor.at? text progress.offset = some cursor ∧
      condition.search? cursor progress.onFirstLine (progress.anchor == some progress.offset) =
        some found

theorem meets_iff (condition : Pattern) (found : Match) :
    ((Text.Cursor.at? text progress.offset).bind fun cursor =>
      condition.search? cursor progress.onFirstLine
        (progress.anchor == some progress.offset)).filter
          (fun found => found.whole.start == progress.offset) = some found ↔
      progress.Meets text condition found := by
  simp [Meets, Option.filter_eq_some_iff, Option.bind_eq_some_iff, and_comm]

def past (found : Match) : Progress :=
  { progress with
    offset := found.whole.stop
    anchor := some found.whole.stop
    onFirstLine := progress.onFirstLine && found.whole.stop == progress.offset }

end Progress

inductive Grammar.Upholds (grammar : Grammar) (text : List Char) :
    List Frame → Progress → Progress → Prop
  | nil (progress : Progress) : Upholds grammar text [] progress progress
  | free {frame : Frame} {inner : List Frame} {progress last : Progress}
    (none : frame.condition? grammar = none) (rest : Upholds grammar text inner progress last) :
    Upholds grammar text (frame :: inner) progress last
  | met {frame : Frame} {inner : List Frame} {progress last : Progress} {condition : Pattern}
    {found : Match} (here : frame.condition? grammar = some condition)
    (meets : progress.Meets text condition found)
    (rest : Upholds grammar text inner (progress.past found) last) :
    Upholds grammar text (frame :: inner) progress last

def Grammar.FailsAt (grammar : Grammar) (text : List Char) (outside : List Frame) (failing : Frame)
    (progress last : Progress) : Prop :=
  grammar.Upholds text outside.reverse progress last ∧
    ∃ condition, failing.condition? grammar = some condition ∧
      ∀ found, ¬ last.Meets text condition found

namespace Grammar

variable {grammar : Grammar} {text : List Char}

theorem Upholds.stack {frames : List Frame} {progress last : Progress}
    (upholds : grammar.Upholds text frames progress last) : last.stack = progress.stack := by
  induction upholds with
  | nil => rfl
  | free _ _ ih => exact ih
  | met _ _ _ ih => exact ih

variable (grammar text) in
theorem upholds_or_fails (frames : List Frame) (progress : Progress) :
    (∃ last, grammar.Upholds text frames.reverse progress last) ∨
      ∃ inside failing outside last, frames = inside ++ failing :: outside ∧
        grammar.FailsAt text outside failing progress last := by
  -- From the outermost frame on, as the conditions are tried.
  suffices tried : ∀ frames : List Frame, (∃ last, grammar.Upholds text frames progress last) ∨
      ∃ outside failing inside last, frames = outside ++ failing :: inside ∧
        grammar.FailsAt text outside.reverse failing progress last by
    apply (tried frames.reverse).imp_right
    rintro ⟨outside, failing, inside, last, split, fails⟩
    exact ⟨inside.reverse, failing, outside.reverse, last,
      by simpa using congrArg List.reverse split, fails⟩
  intro frames
  induction frames generalizing progress with
  | nil => exact .inl ⟨progress, .nil progress⟩
  | cons frame inner ih =>
    cases here : frame.condition? grammar with
    | none =>
      rcases ih progress with ⟨last, all⟩ | ⟨outside, failing, inside, last, rfl, upholds, fails⟩
      · exact .inl ⟨last, .free here all⟩
      · rw [List.reverse_reverse] at upholds
        exact .inr ⟨frame :: outside, failing, inside, last, rfl, by simpa using .free here upholds,
          fails⟩
    | some condition =>
      by_cases meets : ∃ found, progress.Meets text condition found
      · obtain ⟨found, meets⟩ := meets
        rcases ih (progress.past found) with
          ⟨last, all⟩ | ⟨outside, failing, inside, last, rfl, upholds, fails⟩
        · exact .inl ⟨last, .met here meets all⟩
        · rw [List.reverse_reverse] at upholds
          exact .inr ⟨frame :: outside, failing, inside, last, rfl,
            by simpa using .met here meets upholds, fails⟩
      · exact .inr ⟨[], frame, inner, progress, rfl, .nil progress, condition, here,
          fun found now => meets ⟨found, now⟩⟩

variable {retokenize : Retokenize grammar}

theorem checkConditions_free {stack : Stack} (inside : List Stack) (progress : Progress)
    (free : stack.top.condition? grammar = none) :
    checkConditions retokenize text progress (stack :: inside) =
      checkConditions retokenize text progress inside := by
  rw [checkConditions]
  split
  · rename_i known
    simp [Frame.condition?, known] at free
  · rfl

theorem checkConditions_met {stack : Stack} (inside : List Stack) {progress : Progress}
    {condition : Pattern} {found : Match} (here : stack.top.condition? grammar = some condition)
    (meets : progress.Meets text condition found) :
    ∃ tokens : Job grammar Unit, checkConditions retokenize text progress (stack :: inside) = (do
      tokens
      checkConditions retokenize text (progress.past found) inside) := by
  obtain ⟨_, _, _, _, _, _, rules, _, known, own⟩ := Frame.condition?_eq_some here
  have ordered : progress.offset ≤ found.whole.stop := by
    obtain ⟨start, cursor, -, searched⟩ := meets
    exact start ▸ (Pattern.search_within condition _ _ _ _ searched).ordered
  have moved : { progress.moveTo found.whole.stop with anchor := some found.whole.stop } =
      progress.past found := by
    by_cases later : progress.offset < found.whole.stop
    · have other : found.whole.stop ≠ progress.offset := by omega
      simp [Progress.moveTo, Progress.past, later, other]
    · have same : found.whole.stop = progress.offset := by omega
      simp [Progress.moveTo, Progress.past, same]
  refine ⟨do
    Job.emit stack.contentScopes found.whole.start
    Job.captures retokenize text progress.onFirstLine stack rules found
    Job.emit stack.contentScopes found.whole.stop, ?_⟩
  simp only [checkConditions, known, own, (progress.meets_iff text condition found).mpr meets, moved]
  rfl

theorem checkConditions_fails {stack : Stack} (inside : List Stack) {progress : Progress}
    {condition : Pattern} (here : stack.top.condition? grammar = some condition)
    (fails : ∀ found, ¬ progress.Meets text condition found) :
    checkConditions retokenize text progress (stack :: inside) =
      return { progress with stack := stack.pop } := by
  obtain ⟨_, _, _, _, _, _, _, _, known, own⟩ := Frame.condition?_eq_some here
  have missed := Option.eq_none_iff_forall_ne_some.mpr fun found taken =>
    fails found ((progress.meets_iff text condition found).mp taken)
  simp only [checkConditions, known, own, missed]

theorem checkConditions_onward {outside inside : List Stack} {progress last : Progress}
    {after : Progress → Prop}
    (upholds : grammar.Upholds text (outside.map (·.top)) progress last)
    (rest : Job.Yields (checkConditions retokenize text last inside) after) :
    Job.Yields (checkConditions retokenize text progress (outside ++ inside)) after := by
  induction outside generalizing progress with
  | nil =>
    cases upholds
    exact rest
  | cons stack outside ih =>
    rw [List.cons_append]
    cases upholds with
    | free none upholds =>
      rw [checkConditions_free _ _ none]
      exact ih upholds
    | met here meets upholds =>
      obtain ⟨tokens, same⟩ := checkConditions_met (outside ++ inside) here meets
      rw [same]
      exact Job.Yields.skip fun _ => ih upholds

end Grammar

namespace Stack

theorem tops_enclosing (stack : Stack) : stack.enclosing.map (·.top) = stack.frames := by
  obtain ⟨top, below⟩ := stack
  simp only [enclosing, frames]
  induction below generalizing top with
  | nil => rfl
  | cons frame rest ih => rw [stacksFrom, List.map_cons, ih]

theorem enclosing_of_frames {stack : Stack} {inside outside : List Frame} {frame : Frame}
    (split : stack.frames = inside ++ frame :: outside) :
    ∃ inner outer, stack.enclosing = inner ++ ⟨frame, outside⟩ :: outer ∧
      inner.map (·.top) = inside ∧ outer.map (·.top) = outside := by
  obtain ⟨top, below⟩ := stack
  simp only [enclosing, frames] at split ⊢
  induction inside generalizing top below with
  | nil =>
    obtain ⟨rfl, rfl⟩ := List.cons.inj split
    have tops := tops_enclosing ⟨top, below⟩
    cases below with
    | nil => exact ⟨[], [], rfl, rfl, rfl⟩
    | cons next rest => exact ⟨[], stacksFrom next rest, rfl, rfl, (List.cons.inj tops).2⟩
  | cons first inside ih =>
    obtain ⟨rfl, rest⟩ := List.cons.inj split
    cases below with
    | nil => exact absurd rest.symm (by simp)
    | cons next below =>
      obtain ⟨inner, outer, enclosed, tops, others⟩ := ih next below rest
      refine ⟨⟨top, next :: below⟩ :: inner, outer, ?_, by simp [tops], others⟩
      rw [stacksFrom, enclosed, List.cons_append]

end Stack

namespace Grammar

theorem Admits.condition?_outermost {grammar : Grammar} {stack : Stack} {frame : Frame}
    (admits : grammar.Admits stack) (rooted : grammar.graph.IsRooted)
    (outermost : stack.frames.getLast? = some frame) :
    frame.condition? grammar = none := by
  obtain ⟨⟨id, name, contentName, kind⟩, nested, known, holds⟩ := rooted
  have root : frame.rule = grammar.graph.root := by simpa [outermost] using admits.rooted
  simp only at holds
  simp [Frame.condition?, root, known, holds]

/-- If all conditions of the rules that a line starts in hold, the outermost first and each one where
the last one ended, the stack stays as it is. Otherwise the first one that fails closes its rule: the
frames outside it stay, those inside it go, and reading starts where the conditions before it
ended. A condition that does not move the start of a match is one that is matched right there. -/
theorem checkConditions_cuts (library : Library) (grammar : Grammar)
    (compiled : grammar.graph = RuleGraph.compile library) (prior : Option Stack)
    (earlier : ∀ stack, prior = some stack →
      Returned (fun other => ∃ theme, other = grammar.withTheme theme) stack)
    (retokenize : Retokenize grammar) (line : String) (work : Work grammar) :
    let start := grammar.startOfLine prior
    let first := lineStart start prior.isNone
    let result := ((checkConditions retokenize (lineText line) first
      start.enclosing.reverse).run work).1
    (∀ last, grammar.Upholds (lineText line) start.frames.reverse first last →
      result = last ∧ result.stack = start) ∧
    (∀ inside failing outside last, start.frames = inside ++ failing :: outside →
      grammar.FailsAt (lineText line) outside failing first last →
        result.stack.frames = outside ∧ result = { last with stack := result.stack }) ∧
    ((∃ last, grammar.Upholds (lineText line) start.frames.reverse first last) ∨
      ∃ inside failing outside last, start.frames = inside ++ failing :: outside ∧
        grammar.FailsAt (lineText line) outside failing first last) ∧
    ∀ (progress : Progress) (condition : Pattern) (regex : Regex)
      (cursor : Text.Cursor (lineText line)) (found : Match),
      Text.Cursor.at? (lineText line) progress.offset = some cursor →
      condition.variants.get progress.onFirstLine (progress.anchor == some progress.offset) =
        some regex → regex.expr.keeps = false →
      (progress.Meets (lineText line) condition found ↔
        regex.matchAt? regex.groupCount (regex.callDepth (lineText line)) cursor cursor =
          some found) := by
  intro start first result
  have admits : grammar.Admits start := by
    cases prior with
    | none => exact Admits.firstStack grammar
    | some stack => exact (earlier stack rfl).admits
  have tops : start.enclosing.reverse.map (·.top) = start.frames.reverse := by
    rw [List.map_reverse, start.tops_enclosing]
  refine ⟨fun last upholds => ?_, fun inside failing outside last split fails => ?_,
    upholds_or_fails grammar (lineText line) start.frames first, ?_⟩
  · have same : result = last := by
      rw [← tops] at upholds
      have done : Job.Yields (checkConditions retokenize (lineText line) last [])
          (· = last) := Job.Yields.pure _ rfl
      have onward := checkConditions_onward upholds done work
      rwa [List.append_nil] at onward
    exact ⟨same, same ▸ upholds.stack⟩
  · obtain ⟨upholds, condition, here, fails⟩ := fails
    obtain ⟨inner, outer, enclosed, -, others⟩ := Stack.enclosing_of_frames split
    have order : start.enclosing.reverse = outer.reverse ++ ⟨failing, outside⟩ :: inner.reverse := by
      simp [enclosed]
    have same : result = { last with stack := (⟨failing, outside⟩ : Stack).pop } := by
      rw [← others, ← List.map_reverse] at upholds
      have cut : Job.Yields (checkConditions retokenize (lineText line) last
          (⟨failing, outside⟩ :: inner.reverse))
          (· = { last with stack := (⟨failing, outside⟩ : Stack).pop }) := by
        rw [checkConditions_fails _ here fails]
        exact Job.Yields.pure _ rfl
      have onward := checkConditions_onward upholds cut work
      rwa [← order] at onward
    -- The outermost rule has no condition, so the failing one is not alone on the stack.
    have nested : outside ≠ [] := by
      rintro rfl
      have outermost : start.frames.getLast? = some failing := by simp [split]
      have free := admits.condition?_outermost (compiled ▸ RuleGraph.compile_isRooted library)
        outermost
      exact nomatch here.symm.trans free
    rw [same]
    exact ⟨Stack.frames_pop _ nested, rfl⟩
  · intro progress condition regex cursor found reached variant fixed
    rw [← Regex.search_here_iff regex fixed cursor found, Text.Cursor.at?_offset reached]
    simp [Progress.Meets, Pattern.search?, reached, variant, and_comm]

end Grammar

-- A rule that goes on for as long as lines start with `>`, and in it one from `x` to `z`.
def Library.quoted : Library :=
  ⟨⟨some "t", none, [⟨none, some "q", none, none, none, some ">", none, none, none, some ">", none,
    some [⟨none, some "s", none, none, none, some "x", none, some "z", none, none, none, none, none,
      false⟩], none, false⟩], [], [], none, [], [], none⟩, Repository.empty⟩

def RuleGraph.quoted : RuleGraph :=
  let letter (c : Char) : Pattern := .unanchored (String.singleton c) (.set (.char c))
  ⟨#[.held 0 [1], ⟨1, some [.plain 'q'], none, .continuing (letter '>') [] (letter '>') [] [2]⟩,
    ⟨2, some [.plain 's'], none, .spanning (letter 'x') [] (letter 'z') [] false []⟩], 0, []⟩

namespace Grammar

def quoted : Grammar :=
  ofGraph Library.quoted Configuration.default (RuleGraph.compile Library.quoted)

theorem quoted_eq : quoted = ⟨Library.quoted.base, RuleGraph.quoted, ⟨0, []⟩, [], none, none⟩ := by
  cbv

def quotedFrame (rule : RuleId) (entered anchor : Option Nat) (scopes : List String) : Frame :=
  let path := scopes.foldl quoted.scopeAfter ScopePath.empty
  ⟨scopes.length, rule, entered, anchor, false, none, path, path⟩

def quotedBottom : Frame := quotedFrame 0 none none ["t"]

def quotedLine : Frame := quotedFrame 1 (some 0) none ["t", "q"]

def quotedWord : Frame := quotedFrame 2 (some 1) (some 1) ["t", "q", "s"]

def quotedStack : Stack := ⟨quotedWord, [quotedLine, quotedBottom]⟩

theorem quoted_first :
    ((tokenize 0 ">" none none false).run (Caches.empty quoted)).1.stack =
      ⟨quotedLine, [quotedBottom]⟩ := by
  rw [quotedLine, quotedBottom, quotedFrame, quotedFrame, quoted_eq]
  cbv

theorem quoted_second :
    ((tokenize 0 ">x" (some ⟨quotedLine, [quotedBottom]⟩) none false).run
      (Caches.empty quoted)).1.stack = quotedStack := by
  rw [quotedStack, quotedWord, quotedLine, quotedBottom, quotedFrame, quotedFrame, quotedFrame,
    quoted_eq]
  cbv

theorem quoted_fails :
    quoted.FailsAt (lineText "a") [quotedBottom] quotedLine (lineStart quotedStack false)
      (lineStart quotedStack false) := by
  have free : quotedBottom.condition? quoted = none := by
    rw [quotedBottom, quotedFrame, quoted_eq]
    cbv
  have own : quotedLine.condition? quoted = some (.unanchored ">" (.set (.char '>'))) := by
    rw [quotedLine, quotedFrame, quoted_eq]
    cbv
  have place : Text.Cursor.at? (lineText "a") 0 = some (Text.Cursor.first _) := by cbv
  have missed : (Pattern.unanchored ">" (.set (.char '>'))).search?
      (Text.Cursor.first (lineText "a")) false false = none := by
    cbv
  refine ⟨.free free (.nil _), _, own, ?_⟩
  rintro found ⟨-, cursor, reached, searched⟩
  obtain rfl := Option.some.inj (place.symm.trans reached)
  cases missed.symm.trans searched

theorem checkConditions_cuts_quoted :
    quotedStack.frames = [quotedWord, quotedLine, quotedBottom] ∧
      ((checkConditions (retokenize 9) (lineText "a") (lineStart quotedStack false)
        quotedStack.enclosing.reverse).run
          ⟨Caches.empty quoted, .plain [], 0, false⟩).1.stack.frames = [quotedBottom] := by
  have first : Returned (fun other => ∃ theme, other = quoted.withTheme theme)
      ⟨quotedLine, [quotedBottom]⟩ :=
    quoted_first ▸ .line ⟨none, rfl⟩ 0 ">" none (fun _ => nofun) none false (Caches.empty quoted)
  have second : Returned (fun other => ∃ theme, other = quoted.withTheme theme) quotedStack :=
    quoted_second ▸ .line ⟨none, rfl⟩ 0 ">x" _ (by rintro _ ⟨⟩; exact first) none false
      (Caches.empty quoted)
  obtain ⟨-, cuts, -⟩ := checkConditions_cuts Library.quoted quoted rfl (some quotedStack)
    (by rintro _ ⟨⟩; exact second) (retokenize 9) "a" ⟨Caches.empty quoted, .plain [], 0, false⟩
  exact ⟨rfl, (cuts [quotedWord] quotedLine [quotedBottom] _ rfl quoted_fails).1⟩

end Grammar

end Highlighter
