import Highlighter.Proofs.Line.Agreement
import Highlighter.Proofs.Line.Reading

set_option autoImplicit false

namespace Highlighter

open Regex (Match Region)

namespace Job

variable {grammar : Grammar} {alike : Work grammar → Work grammar → Prop} {limit : Nat}

structure Steady (alike : Work grammar → Work grammar → Prop) (limit : Nat) : Prop where
  emit : ∀ scopes stop, stop ≤ limit →
    Relates alike (emit scopes stop) (emit scopes stop) fun _ _ => True
  overflow : Relates alike overflow overflow fun _ _ => True
  caches : ∀ first second one other, alike first second →
    alike { first with caches := one } { second with caches := other }

theorem Steady.cached {α : Type} (steady : Steady alike limit)
    (action : StateM (Caches grammar) α) (value : α)
    (answers : ∀ caches, (action.run caches).1 = value) :
    Relates alike (cached action) (cached action) fun x y => x = value ∧ y = value := by
  intro first second same
  refine ⟨⟨answers _, answers _⟩, ?_⟩
  rw [run_cached, run_cached]
  exact steady.caches first second _ _ same

theorem Steady.emit_of_eq (steady : Steady alike limit) {a b : ScopePath} (same : a = b)
    {stop : Nat} (bound : stop ≤ limit) :
    Relates alike (Job.emit a stop) (Job.emit b stop) fun _ _ => True :=
  same ▸ steady.emit a stop bound

def EndBy (limit : Nat) (groups : List OpenGroup) : Prop := ∀ group ∈ groups, group.stop ≤ limit

variable (steady : Steady alike limit)

include steady

theorem closeUpTo_relates (start : Nat) (groups : List OpenGroup) (ends : EndBy limit groups) :
    Relates alike (closeUpTo start groups) (closeUpTo start groups)
      fun x y => x = y ∧ EndBy limit x := by
  induction groups with
  | nil => exact Relates.pure _ _ _ ⟨rfl, ends⟩
  | cons group rest ih =>
    unfold closeUpTo
    split
    · refine Relates.bind (steady.emit _ _ (ends group (by simp))) fun _ _ _ => ?_
      exact ih fun other member => ends other (List.mem_cons_of_mem _ member)
    · exact Relates.pure _ _ _ ⟨rfl, ends⟩

theorem closeAll_relates (groups : List OpenGroup) (ends : EndBy limit groups) :
    Relates alike (closeAll groups) (closeAll groups) fun _ _ => True := by
  induction groups with
  | nil => exact Relates.pure _ _ _ trivial
  | cons group rest ih =>
    unfold closeAll
    refine Relates.bind (steady.emit _ _ (ends group (by simp))) fun _ _ _ => ?_
    exact ih fun other member => ends other (List.mem_cons_of_mem _ member)

omit steady in
theorem innerScopes_agree {a b : Stack} (agrees : a.Agrees grammar 0 b)
    (groups : List OpenGroup) : innerScopes a groups = innerScopes b groups := by
  cases groups with
  | nil => exact agrees.scopes
  | cons group rest => rfl

def Blind (alike : Work grammar → Work grammar → Prop) (limit : Nat)
    (retokenize : Retokenize grammar) : Prop :=
  ∀ (text : List Char) (onFirstLine : Bool) (start : Nat) (a b : Stack) (frame : Frame),
    Text.byteLength text ≤ limit → a.Agrees grammar 0 b → grammar.Resolves frame →
    Relates alike (retokenize text onFirstLine start (a.push frame))
      (retokenize text onFirstLine start (b.push frame)) fun _ _ => True

variable {retokenize : Retokenize grammar} (blind : Blind alike limit retokenize)
  (text : List Char) (onFirstLine : Bool)

include blind

theorem enterGroup_relates {a b : Stack} (agrees : a.Agrees grammar 0 b) (found : Match)
    (groups : List OpenGroup) (ends : EndBy limit groups) (rule : Rule) (region : Region)
    (bound : region.stop ≤ limit) :
    Relates alike (enterGroup retokenize text onFirstLine a found groups rule region)
      (enterGroup retokenize text onFirstLine b found groups rule region)
      fun x y => x = y ∧ EndBy limit x := by
  unfold enterGroup
  dsimp only
  split
  · rw [agrees.scopes, agrees.depth]
    refine Relates.bind (steady.cached _ _ (Grammar.pushName_value _ _)) ?_
    rintro _ _ ⟨rfl, rfl⟩
    refine Relates.bind (steady.cached _ _ (Grammar.pushName_value _ _)) ?_
    rintro _ _ ⟨rfl, rfl⟩
    have inside : Text.byteLength ((Text.takeBytes? region.stop text).getD []) ≤ limit := by
      cases cut : Text.takeBytes? region.stop text with
      | none => exact Nat.zero_le _
      | some taken => exact (Text.byteLength_takeBytes? cut).trans_le bound
    refine Relates.bind (blind _ _ _ a b _ inside agrees fun _ => nofun) fun _ _ _ => ?_
    exact Relates.pure _ _ _ ⟨rfl, ends⟩
  · split
    · exact Relates.pure _ _ _ ⟨rfl, ends⟩
    · rw [innerScopes_agree agrees]
      refine Relates.bind (steady.cached _ _ (Grammar.pushName_value _ _)) ?_
      rintro _ _ ⟨rfl, rfl⟩
      refine Relates.pure _ _ _ ⟨rfl, ?_⟩
      intro group member
      rcases List.mem_cons.mp member with rfl | old
      · exact bound
      · exact ends group old

theorem readGroups_relates {a b : Stack} (agrees : a.Agrees grammar 0 b) (found : Match)
    (groups : List OpenGroup) (ends : EndBy limit groups)
    (parts : List (Option RuleId × Option Region))
    (within : ∀ id region, (id, some region) ∈ parts → region.start ≤ limit ∧ region.stop ≤ limit) :
    Relates alike (readGroups retokenize text onFirstLine a found groups parts)
      (readGroups retokenize text onFirstLine b found groups parts) fun _ _ => True := by
  induction parts generalizing groups with
  | nil => exact closeAll_relates steady groups ends
  | cons part rest ih =>
    have next (groups : List OpenGroup) (ends : EndBy limit groups) :=
      ih groups ends fun id region member => within id region (List.mem_cons_of_mem _ member)
    obtain ⟨id, region⟩ := part
    cases id with
    | none => exact next groups ends
    | some id =>
      cases region with
      | none => exact next groups ends
      | some region =>
        have bounds := within (some id) region (by simp)
        unfold readGroups
        split
        · exact next groups ends
        · split
          · exact closeAll_relates steady groups ends
          · refine Relates.bind (closeUpTo_relates steady region.start groups ends) ?_
            rintro groups _ ⟨rfl, ends⟩
            rw [innerScopes_agree agrees]
            refine Relates.bind (steady.emit _ _ bounds.1) fun _ _ _ => ?_
            split
            · exact next groups ends
            · refine Relates.bind (enterGroup_relates steady blind text onFirstLine agrees found
                groups ends _ region bounds.2) ?_
              rintro groups _ ⟨rfl, ends⟩
              exact next groups ends

theorem captures_relates {a b : Stack} (agrees : a.Agrees grammar 0 b) (rules : CaptureRules)
    (found : Match) (within : found.Within limit) :
    Relates alike (captures retokenize text onFirstLine a rules found)
      (captures retokenize text onFirstLine b rules found) fun _ _ => True := by
  refine readGroups_relates steady blind text onFirstLine agrees found [] (by simp [EndBy]) _ ?_
  intro id region member
  rcases List.mem_cons.mp (List.of_mem_zip member).2 with same | inner
  · obtain rfl := Option.some.inj same
    exact ⟨within.ordered.trans within.stop_le, within.stop_le⟩
  · exact within.groups region inner

variable {text} (fits : Text.byteLength text ≤ limit)

omit blind in
include fits in
theorem stepPast_relates {a b : Progress} (agrees : a.Agrees grammar b) :
    Relates alike (stepPast text (Text.byteLength text) a)
      (stepPast text (Text.byteLength text) b) (Outcome.Agrees grammar) := by
  unfold stepPast
  dsimp only
  rw [agrees.offset, agrees.stack.scopes]
  split
  · rename_i next _
    refine Relates.bind (steady.emit _ _ (next.offset_le.trans fits)) fun _ _ _ => ?_
    exact Relates.pure _ _ _ (.more ⟨rfl, agrees.stack, agrees.fresh, agrees.anchor, rfl⟩)
  · refine Relates.bind (steady.emit _ _ fits) fun _ _ _ => ?_
    exact Relates.pure _ _ _ (.done (agrees.stack.fewer (Nat.zero_le _)))

include fits

theorem close_relates {a b : Progress} (agrees : a.Agrees grammar b) (found : Match)
    (within : found.Within (Text.byteLength text)) :
    Relates alike (close retokenize text (Text.byteLength text) a found)
      (close retokenize text (Text.byteLength text) b found) (Outcome.Agrees grammar) := by
  have named := agrees.stack.withContent
  have anchors : grammar.AnchorsAgree (if 0 < a.fresh then a.stack.top.anchor else none)
      (if 0 < b.fresh then b.stack.top.anchor else none) := by
    rw [← agrees.fresh]
    split
    · rename_i some
      exact (agrees.stack.here some).anchor
    · exact .inl rfl
  have forced : (decide (found.whole.stop ≤ a.offset) && decide (0 < a.fresh) &&
      a.stack.top.entered == some found.whole.start) =
      (decide (found.whole.stop ≤ b.offset) && decide (0 < b.fresh) &&
        b.stack.top.entered == some found.whole.start) := by
    rw [← agrees.fresh, ← agrees.offset]
    by_cases some : 0 < a.fresh
    · rw [(agrees.stack.here some).entered]
    · simp [some]
  unfold close
  dsimp only
  rw [agrees.stack.top.rule, agrees.onFirstLine, forced]
  refine Relates.bind (steady.emit_of_eq agrees.stack.scopes
    (within.ordered.trans (within.stop_le.trans fits))) fun _ _ _ => ?_
  refine Relates.bind (captures_relates steady blind text _ (named.fewer (Nat.zero_le _)) _ found
    (within.mono fits)) fun _ _ _ => ?_
  refine Relates.bind (steady.emit_of_eq named.scopes (within.stop_le.trans fits)) fun _ _ _ => ?_
  split
  · exact stepPast_relates steady fits
      ⟨agrees.offset, agrees.stack, agrees.fresh, anchors, rfl⟩
  · have moved := agrees.moveTo found.whole.stop
    refine Relates.pure _ _ _ (.more ⟨moved.offset, agrees.stack.pop, ?_, anchors, moved.onFirstLine⟩)
    exact congrArg (· - 1) agrees.fresh

omit steady blind fits in
variable (text) in
theorem frameFor_agree {a b : Progress} (agrees : a.Agrees grammar b) (id : RuleId) (found : Match)
    (scopes : ScopePath) :
    (frameFor (Text.byteLength text) a id found scopes).Agrees grammar
        (frameFor (Text.byteLength text) b id found scopes) ∧
      (frameFor (Text.byteLength text) a id found scopes).AgreesHere grammar
        (frameFor (Text.byteLength text) b id found scopes) :=
  ⟨⟨congrArg (· + 1) agrees.stack.depth, rfl, rfl, rfl, rfl, fun _ => nofun⟩, ⟨rfl, agrees.anchor⟩⟩

theorem takeMatch_relates {a b : Progress} (agrees : a.Agrees grammar b) (id : RuleId)
    (rules : CaptureRules) (found : Match) (within : found.Within (Text.byteLength text))
    (nameScopes : ScopePath) :
    Relates alike (takeMatch retokenize text (Text.byteLength text) a id rules found nameScopes)
      (takeMatch retokenize text (Text.byteLength text) b id rules found nameScopes)
      (Outcome.Agrees grammar) := by
  obtain ⟨frames, here⟩ := frameFor_agree text agrees id found nameScopes
  unfold takeMatch
  dsimp only
  rw [agrees.onFirstLine, agrees.offset]
  refine Relates.bind (captures_relates steady blind text _
    ((agrees.stack.push frames here).fewer (Nat.zero_le _)) _ found (within.mono fits))
    fun _ _ _ => ?_
  refine Relates.bind (steady.emit _ _ (within.stop_le.trans fits)) fun _ _ _ => ?_
  split
  · exact Relates.pure _ _ _ (.more (agrees.moveTo _))
  · exact stepPast_relates steady fits agrees

omit steady blind fits in
theorem opened_agree {a b : Progress} (agrees : a.Agrees grammar b) (id : RuleId) (found : Match)
    (nameScopes contentScopes : ScopePath) (resolved : Option Pattern)
    (resolves : ∀ pattern, resolved = some pattern → grammar.Resolved pattern) :
    Progress.Agrees grammar
      { a.moveTo found.whole.stop with
        stack := a.stack.push
          { frameFor (Text.byteLength text) a id found nameScopes with contentScopes, resolved }
        fresh := a.fresh + 1
        anchor := some found.whole.stop }
      { b.moveTo found.whole.stop with
        stack := b.stack.push
          { frameFor (Text.byteLength text) b id found nameScopes with contentScopes, resolved }
        fresh := b.fresh + 1
        anchor := some found.whole.stop } where
  offset := (agrees.moveTo found.whole.stop).offset
  stack := agrees.stack.push
    ⟨congrArg (· + 1) agrees.stack.depth, rfl, rfl, rfl, rfl, resolves⟩ ⟨rfl, agrees.anchor⟩
  fresh := congrArg (· + 1) agrees.fresh
  anchor := .inl rfl
  onFirstLine := (agrees.moveTo found.whole.stop).onFirstLine

theorem openRule_relates {a b : Progress} (agrees : a.Agrees grammar b) (id : RuleId) (rule : Rule)
    (rules : CaptureRules) (follow : Pattern) (found : Match)
    (within : found.Within (Text.byteLength text)) (nameScopes : ScopePath)
    (known : grammar.graph.rule? id = some rule) (follows : rule.follow? = some follow) :
    Relates alike (openRule retokenize text (Text.byteLength text) a id rule rules follow found
        nameScopes)
      (openRule retokenize text (Text.byteLength text) b id rule rules follow found nameScopes)
      (Outcome.Agrees grammar) := by
  obtain ⟨frames, here⟩ := frameFor_agree text agrees id found nameScopes
  have unanchored : Progress.Agrees grammar
      { a with anchor := none, onFirstLine := b.onFirstLine } { b with anchor := none } :=
    ⟨agrees.offset, agrees.stack, agrees.fresh, .inl rfl, rfl⟩
  have forced : (decide (found.whole.stop ≤ a.offset) &&
      a.stack.hasOpened id (some found.whole.start) a.fresh) =
      (decide (found.whole.stop ≤ b.offset) &&
        b.stack.hasOpened id (some found.whole.start) b.fresh) := by
    rw [agrees.offset, agrees.stack.hasOpened, agrees.fresh]
  unfold openRule
  dsimp only
  rw [agrees.onFirstLine, forced]
  refine Relates.bind (captures_relates steady blind text _
    ((agrees.stack.push frames here).fewer (Nat.zero_le _)) _ found (within.mono fits))
    fun _ _ _ => ?_
  refine Relates.bind (steady.emit _ _ (within.stop_le.trans fits)) fun _ _ _ => ?_
  refine Relates.bind (steady.cached _ _ (Grammar.pushName_value _ _)) ?_
  rintro _ _ ⟨rfl, rfl⟩
  split
  · rename_i refers
    refine Relates.bind (steady.cached _ _ (Grammar.resolved_value _)) ?_
    rintro _ _ ⟨rfl, rfl⟩
    split
    · exact stepPast_relates steady fits unanchored
    · exact Relates.pure _ _ _ (.more (opened_agree agrees id found _ _ _
        fun _ compiled => ⟨known, follows, refers, compiled⟩))
  · refine Relates.bind (Relates.pure none none (fun x y => x = none ∧ y = none) ⟨rfl, rfl⟩) ?_
    rintro _ _ ⟨rfl, rfl⟩
    split
    · exact stepPast_relates steady fits unanchored
    · exact Relates.pure _ _ _ (.more (opened_agree agrees id found _ _ none fun _ => nofun))

theorem takeRule_relates {a b : Progress} (agrees : a.Agrees grammar b) (id : RuleId)
    (found : Match) (within : found.Within (Text.byteLength text)) :
    Relates alike (takeRule retokenize text (Text.byteLength text) a id found)
      (takeRule retokenize text (Text.byteLength text) b id found) (Outcome.Agrees grammar) := by
  unfold takeRule
  dsimp only
  rw [agrees.stack.scopes]
  refine Relates.bind (steady.emit _ _ (within.ordered.trans (within.stop_le.trans fits)))
    fun _ _ _ => ?_
  split
  · exact Relates.pure _ _ _ (.more (agrees.moveTo _))
  · rename_i rule known
    refine Relates.bind (steady.cached _ _ (Grammar.pushName_value _ _)) ?_
    rintro _ _ ⟨rfl, rfl⟩
    split
    · exact takeMatch_relates steady blind fits agrees id _ found within _
    · rename_i kind
      exact openRule_relates steady blind fits agrees id rule _ _ found within _ known
        (by simp [Rule.follow?, kind])
    · rename_i kind
      exact openRule_relates steady blind fits agrees id rule _ _ found within _ known
        (by simp [Rule.follow?, kind])
    · exact Relates.pure _ _ _ (.more (agrees.moveTo _))
    · exact Relates.pure _ _ _ (.more (agrees.moveTo _))

theorem advance_relates {a b : Progress} (agrees : a.Agrees grammar b) :
    Relates alike (advance retokenize text (Text.byteLength text) a)
      (advance retokenize text (Text.byteLength text) b) (Outcome.Agrees grammar) := by
  have same : ((Text.Cursor.at? text a.offset).bind fun cursor =>
        Candidate.best? grammar ⟨cursor, a.onFirstLine, a.anchor⟩ a.stack) =
      (Text.Cursor.at? text b.offset).bind fun cursor =>
        Candidate.best? grammar ⟨cursor, b.onFirstLine, b.anchor⟩ b.stack := by
    rw [agrees.offset, agrees.onFirstLine]
    congr 1
    funext cursor
    exact Candidate.best_agree cursor _ _ _ agrees.anchor _ _ agrees.stack.top
  unfold advance
  dsimp only
  rw [same]
  split
  · refine Relates.bind (steady.emit_of_eq agrees.stack.scopes fits) fun _ _ _ => ?_
    exact Relates.pure _ _ _ (.done (agrees.stack.fewer (Nat.zero_le _)))
  all_goals
    rename_i chosen
    obtain ⟨cursor, _, best⟩ := Option.bind_eq_some_iff.mp chosen
    have within := (Candidate.best_offered grammar _ _ _ best).within
  · exact close_relates steady blind fits agrees _ within
  · exact takeRule_relates steady blind fits agrees _ _ within

theorem read_relates (checks : Option Nat) (fuel : Nat) {a b : Progress}
    (agrees : a.Agrees grammar b) :
    Relates alike (read retokenize text (Text.byteLength text) checks fuel a)
      (read retokenize text (Text.byteLength text) checks fuel b)
      fun x y => x.1.Agrees grammar 0 y.1 ∧ x.2 = y.2 := by
  have ended := agrees.stack.fewer (Nat.zero_le _)
  induction fuel generalizing checks a b with
  | zero =>
    cases checks with
    | none => exact Relates.pure _ _ _ ⟨ended, rfl⟩
    | some left => cases left <;> exact Relates.pure _ _ _ ⟨ended, rfl⟩
  | succ fuel ih =>
    by_cases late : checks = some 0
    · subst late
      exact Relates.pure _ _ _ ⟨ended, rfl⟩
    · rw [read_succ _ _ _ _ _ _ late, read_succ _ _ _ _ _ _ late]
      refine Relates.bind (advance_relates steady blind fits agrees) fun x y outcomes => ?_
      cases outcomes with
      | more next => exact ih _ next (next.stack.fewer (Nat.zero_le _))
      | done same => exact Relates.pure _ _ _ ⟨same, rfl⟩

end Job

namespace Grammar

open Job (Relates Steady Blind)

variable {grammar : Grammar} {alike : Work grammar → Work grammar → Prop} {limit : Nat}
  (steady : Steady alike limit)

include steady

theorem retokenize_blind (depth : Nat) :
    Blind alike limit (retokenize depth : Retokenize grammar) := by
  induction depth with
  | zero => exact fun _ _ _ _ _ _ _ _ _ => steady.overflow
  | succ depth ih =>
    intro text onFirstLine start a b frame fits agrees resolves
    have pairs := agrees.push (Frame.Agrees.refl resolves) ⟨rfl, .inl rfl⟩
    have rounds : Job.rounds grammar (Text.byteLength text) (a.push frame) =
        Job.rounds grammar (Text.byteLength text) (b.push frame) := by
      simp only [Job.rounds, pairs.length_eq]
    simp only [retokenize, rounds]
    refine Relates.bind (Job.read_relates steady ih fits _ _ ⟨rfl, pairs, rfl, .inl rfl, rfl⟩)
      fun _ _ _ => ?_
    exact Relates.pure _ _ _ trivial

variable {retokenize : Retokenize grammar} (blind : Blind alike limit retokenize)
  {text : List Char} (fits : Text.byteLength text ≤ limit)

include blind fits

theorem checkConditions_relates {a b : Progress} (agrees : a.Agrees grammar b) (stale : a.fresh = 0)
    {outer other : List Stack} (pairs : List.Forall₂ (Stack.Agrees grammar 0) outer other) :
    Relates alike (checkConditions retokenize text a outer) (checkConditions retokenize text b other)
      fun x y => x.Agrees grammar y := by
  induction pairs generalizing a b with
  | nil => exact Relates.pure _ _ _ agrees
  | cons stack _ ih =>
    rename_i first second rest others _
    unfold checkConditions
    rw [← stack.top.rule]
    split
    · rename_i opening _ condition rules nested known
      have uses : grammar.Uses (first.top.resolved.getD condition) := by
        cases stored : first.top.resolved with
        | none => exact .follow known rfl
        | some pattern => exact .resolved (stack.top.resolves pattern stored)
      have same : ((Text.Cursor.at? text a.offset).bind fun cursor =>
            (first.top.resolved.getD condition).search? cursor a.onFirstLine
              (a.anchor == some a.offset)) =
          (Text.Cursor.at? text b.offset).bind fun cursor =>
            (second.top.resolved.getD condition).search? cursor b.onFirstLine
              (b.anchor == some b.offset) := by
        rw [← agrees.offset, ← agrees.onFirstLine, ← stack.top.resolved]
        congr 1
        funext cursor
        exact Pattern.search_agree _ uses cursor _ _ _ agrees.anchor _
      dsimp only
      rw [same, ← agrees.offset]
      split
      · refine Relates.pure _ _ _ ⟨rfl, ?_, agrees.fresh, agrees.anchor, agrees.onFirstLine⟩
        exact stale.symm ▸ stack.pop
      · rename_i found chosen
        have within : found.Within (Text.byteLength text) := by
          obtain ⟨cursor, _, searched⟩ :=
            Option.bind_eq_some_iff.mp (Option.filter_eq_some_iff.mp chosen).1
          exact Pattern.search_within _ _ _ _ _ searched
        rw [← agrees.onFirstLine]
        refine Relates.bind (steady.emit_of_eq stack.scopes
          (within.ordered.trans (within.stop_le.trans fits))) fun _ _ _ => ?_
        refine Relates.bind (Job.captures_relates steady blind text _ stack _ found
          (within.mono fits)) fun _ _ _ => ?_
        refine Relates.bind (steady.emit_of_eq stack.scopes (within.stop_le.trans fits))
          fun _ _ _ => ?_
        have moved := agrees.moveTo found.whole.stop
        refine ih ⟨moved.offset, moved.stack, moved.fresh, .inl rfl, moved.onFirstLine⟩ ?_
        exact (a.moveTo_fresh _).trans stale
    · exact ih agrees stale

omit blind fits in
theorem lineJob_relates (depth : Nat) (line : String) (fits : lineSize line ≤ limit) {a b : Stack}
    (agrees : a.Agrees grammar 0 b)
    (anchors : a.top.tookLineEnd = b.top.tookLineEnd ∨ grammar.IgnoresAnchor) (isFirst : Bool)
    (checks : Option Nat) :
    Relates alike (grammar.lineJob depth line a isFirst checks)
      (grammar.lineJob depth line b isFirst checks) fun x y => x.1.Agrees grammar 0 y.1 ∧ x.2 = y.2 := by
  have blind := retokenize_blind steady depth
  have start : (lineStart a isFirst).Agrees grammar (lineStart b isFirst) := by
    refine ⟨rfl, agrees, rfl, anchors.imp_left fun same => ?_, rfl⟩
    simp only [lineStart, same]
  have rounds : Job.rounds grammar (lineSize line) a = Job.rounds grammar (lineSize line) b := by
    simp only [Job.rounds, agrees.length_eq]
  unfold lineJob
  rw [rounds]
  refine Relates.bind (checkConditions_relates steady blind fits start rfl
    (List.rel_reverse agrees.enclosing)) fun x y progress => ?_
  refine Relates.bind (Job.read_relates steady blind fits checks _ progress) ?_
  rintro ⟨first, late⟩ ⟨second, _⟩ ⟨ended, rfl⟩
  cases late with
  | false => exact Relates.pure _ _ _ ⟨ended, rfl⟩
  | true =>
    refine Relates.bind (steady.emit_of_eq ended.scopes fits) fun _ _ _ => ?_
    exact Relates.pure _ _ _ ⟨ended, rfl⟩

end Grammar

end Highlighter
