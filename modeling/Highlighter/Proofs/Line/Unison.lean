import Highlighter.Proofs.Line.Congruence

set_option autoImplicit false

namespace Highlighter

open Regex (Match Region)

namespace Job

variable {grammar : Grammar} {α β : Type} {alike : Work grammar → Work grammar → Prop}
  {limit : Nat}

def Unison (alike : Work grammar → Work grammar → Prop) (a b : Job grammar α) : Prop :=
  Relates alike a b Eq

namespace Unison

theorem pure (value : α) :
    Unison alike (Pure.pure value : Job grammar α) (Pure.pure value) :=
  Relates.pure _ _ _ rfl

theorem bind {a b : Job grammar α} {nextA nextB : α → Job grammar β} (first : Unison alike a b)
    (rest : ∀ value, Unison alike (nextA value) (nextB value)) :
    Unison alike (a >>= nextA) (b >>= nextB) := by
  refine Relates.bind first ?_
  rintro value _ rfl
  exact rest value

end Unison

def OnTop (base : List Token) (first second : Work grammar) : Prop :=
  first.lastStop = second.lastStop ∧
    ∃ added, first.emitted = .plain (added ++ base) ∧ second.emitted = .plain added

theorem onTop_cleared {work : Work grammar} {base : List Token} (plain : work.emitted = .plain base) :
    OnTop base work { work with emitted := .plain [] } :=
  ⟨rfl, [], plain, rfl⟩

theorem onTop_steady (base : List Token) (limit : Nat) :
    Steady (OnTop base : Work grammar → Work grammar → Prop) limit where
  emit := by
    intro scopes stop _ first second ⟨places, added, above, apart⟩
    refine ⟨trivial, ?_⟩
    rw [run_emit, run_emit, ← places]
    by_cases late : stop ≤ first.lastStop
    · simp only [late, if_true]
      exact ⟨places, added, above, apart⟩
    · let token : Token := ⟨first.lastStop, stop, scopes.names, grammar.tokenMetadata scopes⟩
      simp only [late, if_false]
      exact ⟨rfl, token :: added, by simp [above, Emitted.add, token],
        by simp [apart, Emitted.add, token]⟩
  overflow := fun _ _ same => ⟨trivial, same⟩
  caches := fun _ _ _ _ same => same

theorem Steady.emits (steady : Steady alike limit) (scopes : ScopePath) {stop : Nat}
    (bound : stop ≤ limit) : Unison alike (Job.emit scopes stop) (Job.emit scopes stop) :=
  (steady.emit scopes stop bound).mono fun _ _ _ => rfl

theorem Steady.asks (steady : Steady alike limit) (action : StateM (Caches grammar) α) (value : α)
    (answers : ∀ caches, (action.run caches).1 = value) :
    Unison alike (Job.cached action) (Job.cached action) :=
  (steady.cached action value answers).mono fun _ _ same => same.1.trans same.2.symm

def Nested (alike : Work grammar → Work grammar → Prop) (limit : Nat)
    (retokenize other : Retokenize grammar) : Prop :=
  ∀ (text : List Char) (onFirstLine : Bool) (start : Nat) (stack : Stack),
    Text.byteLength text ≤ limit →
      Unison alike (retokenize text onFirstLine start stack) (other text onFirstLine start stack)

variable (steady : Steady alike limit) {retokenize other : Retokenize grammar}
  (nested : Nested alike limit retokenize other) (text : List Char) (onFirstLine : Bool)

include steady nested

theorem enterGroup_unison (stack : Stack) (found : Match) (groups : List OpenGroup)
    (ends : EndBy limit groups) (rule : Rule) (region : Region) (bound : region.stop ≤ limit) :
    Relates alike (enterGroup retokenize text onFirstLine stack found groups rule region)
      (enterGroup other text onFirstLine stack found groups rule region)
      fun x y => x = y ∧ EndBy limit x := by
  unfold enterGroup
  dsimp only
  split
  · refine Relates.bind (steady.asks _ _ (Grammar.pushName_value _ _)) ?_
    rintro names _ rfl
    refine Relates.bind (steady.asks _ _ (Grammar.pushName_value _ _)) ?_
    rintro contents _ rfl
    have inside : Text.byteLength ((Text.takeBytes? region.stop text).getD []) ≤ limit := by
      cases cut : Text.takeBytes? region.stop text with
      | none => exact Nat.zero_le _
      | some taken => exact (Text.byteLength_takeBytes? cut).trans_le bound
    refine Relates.bind (nested _ _ _ _ inside) fun _ _ _ => ?_
    exact Relates.pure _ _ _ ⟨rfl, ends⟩
  · split
    · exact Relates.pure _ _ _ ⟨rfl, ends⟩
    · refine Relates.bind (steady.asks _ _ (Grammar.pushName_value _ _)) ?_
      rintro scopes _ rfl
      refine Relates.pure _ _ _ ⟨rfl, fun group member => ?_⟩
      rcases List.mem_cons.mp member with rfl | old
      · exact bound
      · exact ends group old

theorem readGroups_unison (stack : Stack) (found : Match) (groups : List OpenGroup)
    (ends : EndBy limit groups) (parts : List (Option RuleId × Option Region))
    (within : ∀ id region, (id, some region) ∈ parts → region.start ≤ limit ∧ region.stop ≤ limit) :
    Unison alike (readGroups retokenize text onFirstLine stack found groups parts)
      (readGroups other text onFirstLine stack found groups parts) := by
  have closed (groups : List OpenGroup) (ends : EndBy limit groups) :
      Unison alike (closeAll groups) (closeAll groups) :=
    (closeAll_relates steady groups ends).mono fun _ _ _ => rfl
  induction parts generalizing groups with
  | nil => exact closed groups ends
  | cons part rest ih =>
    have next (groups : List OpenGroup) (ends : EndBy limit groups) :=
      ih groups ends fun id region member => within id region (List.mem_cons_of_mem _ member)
    match part with
    | (none, _) => exact next groups ends
    | (some _, none) => exact next groups ends
    | (some id, some region) =>
      have bounds := within (some id) region (by simp)
      unfold readGroups
      split
      · exact next groups ends
      · split
        · exact closed groups ends
        · refine Relates.bind (closeUpTo_relates steady region.start groups ends) ?_
          rintro groups _ ⟨rfl, ends⟩
          refine Unison.bind (steady.emits _ bounds.1) fun _ => ?_
          split
          · exact next groups ends
          · refine Relates.bind (enterGroup_unison steady nested text onFirstLine stack found groups
              ends _ region bounds.2) ?_
            rintro groups _ ⟨rfl, ends⟩
            exact next groups ends

theorem captures_unison (stack : Stack) (rules : CaptureRules) (found : Match)
    (within : found.Within limit) :
    Unison alike (captures retokenize text onFirstLine stack rules found)
      (captures other text onFirstLine stack rules found) := by
  refine readGroups_unison steady nested text onFirstLine stack found [] (by simp [EndBy]) _ ?_
  intro id region member
  rcases List.mem_cons.mp (List.of_mem_zip member).2 with same | inner
  · obtain rfl := Option.some.inj same
    exact ⟨within.ordered.trans within.stop_le, within.stop_le⟩
  · exact within.groups region inner

variable {text} (fits : Text.byteLength text ≤ limit)

omit nested in
include fits in
theorem stepPast_unison (progress : Progress) :
    Unison alike (stepPast text (Text.byteLength text) progress)
      (stepPast text (Text.byteLength text) progress) := by
  unfold stepPast
  dsimp only
  split
  · rename_i next _
    exact Unison.bind (steady.emits _ (next.offset_le.trans fits)) fun _ => Unison.pure _
  · exact Unison.bind (steady.emits _ fits) fun _ => Unison.pure _

include fits

theorem close_unison (progress : Progress) (found : Match)
    (within : found.Within (Text.byteLength text)) :
    Unison alike (close retokenize text (Text.byteLength text) progress found)
      (close other text (Text.byteLength text) progress found) := by
  have bounds := within.mono fits
  unfold close
  refine Unison.bind (steady.emits _ (bounds.ordered.trans bounds.stop_le)) fun _ => ?_
  refine Unison.bind (captures_unison steady nested text _ _ _ found bounds) fun _ => ?_
  refine Unison.bind (steady.emits _ bounds.stop_le) fun _ => ?_
  dsimp only
  split
  · exact stepPast_unison steady fits _
  · exact Unison.pure _

theorem takeMatch_unison (progress : Progress) (id : RuleId) (rules : CaptureRules) (found : Match)
    (within : found.Within (Text.byteLength text)) (nameScopes : ScopePath) :
    Unison alike
      (takeMatch retokenize text (Text.byteLength text) progress id rules found nameScopes)
      (takeMatch other text (Text.byteLength text) progress id rules found nameScopes) := by
  have bounds := within.mono fits
  unfold takeMatch
  refine Unison.bind (captures_unison steady nested text _ _ _ found bounds) fun _ => ?_
  refine Unison.bind (steady.emits _ bounds.stop_le) fun _ => ?_
  split
  · exact Unison.pure _
  · exact stepPast_unison steady fits _

theorem openRule_unison (progress : Progress) (id : RuleId) (rule : Rule) (rules : CaptureRules)
    (follow : Pattern) (found : Match) (within : found.Within (Text.byteLength text))
    (nameScopes : ScopePath) :
    Unison alike
      (openRule retokenize text (Text.byteLength text) progress id rule rules follow found
        nameScopes)
      (openRule other text (Text.byteLength text) progress id rule rules follow found
        nameScopes) := by
  have bounds := within.mono fits
  unfold openRule
  refine Unison.bind (captures_unison steady nested text _ _ _ found bounds) fun _ => ?_
  refine Unison.bind (steady.emits _ bounds.stop_le) fun _ => ?_
  refine Unison.bind (steady.asks _ _ (Grammar.pushName_value _ _)) fun _ => ?_
  let opened (resolved : Option Pattern) (contentScopes : ScopePath) : Job grammar Outcome :=
    if found.whole.stop ≤ progress.offset &&
        progress.stack.hasOpened id (some found.whole.start) progress.fresh then
      stepPast text (Text.byteLength text) { progress with anchor := none }
    else
      return .more { progress.moveTo found.whole.stop with
        stack := progress.stack.push
          { frameFor (Text.byteLength text) progress id found nameScopes with
            contentScopes, resolved }
        fresh := progress.fresh + 1
        anchor := some found.whole.stop }
  have after (resolved : Option Pattern) (contentScopes : ScopePath) :
      Unison alike (opened resolved contentScopes) (opened resolved contentScopes) := by
    simp only [opened]
    split
    · exact stepPast_unison steady fits _
    · exact Unison.pure _
  dsimp only
  split
  · exact Unison.bind (steady.asks _ _ (Grammar.resolved_value _)) fun resolved => after resolved _
  · exact after none _

theorem takeRule_unison (progress : Progress) (id : RuleId) (found : Match)
    (within : found.Within (Text.byteLength text)) :
    Unison alike (takeRule retokenize text (Text.byteLength text) progress id found)
      (takeRule other text (Text.byteLength text) progress id found) := by
  have bounds := within.mono fits
  unfold takeRule
  refine Unison.bind (steady.emits _ (bounds.ordered.trans bounds.stop_le)) fun _ => ?_
  split
  · exact Unison.pure _
  · refine Unison.bind (steady.asks _ _ (Grammar.pushName_value _ _)) fun _ => ?_
    split
    · exact takeMatch_unison steady nested fits progress id _ found within _
    · exact openRule_unison steady nested fits progress id _ _ _ found within _
    · exact openRule_unison steady nested fits progress id _ _ _ found within _
    · exact Unison.pure _
    · exact Unison.pure _

theorem advance_unison (progress : Progress) :
    Unison alike (advance retokenize text (Text.byteLength text) progress)
      (advance other text (Text.byteLength text) progress) := by
  unfold advance
  dsimp only
  split
  · exact Unison.bind (steady.emits _ fits) fun _ => Unison.pure _
  all_goals
    rename_i chosen
    obtain ⟨cursor, _, best⟩ := Option.bind_eq_some_iff.mp chosen
    have within := (Candidate.best_offered grammar _ _ _ best).within
  · exact close_unison steady nested fits progress _ within
  · exact takeRule_unison steady nested fits progress _ _ within

theorem read_unison (checks : Option Nat) (fuel : Nat) (progress : Progress) :
    Unison alike (read retokenize text (Text.byteLength text) checks fuel progress)
      (read other text (Text.byteLength text) checks fuel progress) := by
  induction fuel generalizing checks progress with
  | zero =>
    cases checks with
    | none => exact Unison.pure _
    | some left => cases left <;> exact Unison.pure _
  | succ fuel ih =>
    by_cases late : checks = some 0
    · subst late
      exact Unison.pure _
    · rw [read_succ _ _ _ _ _ _ late, read_succ _ _ _ _ _ _ late]
      refine Unison.bind (advance_unison steady nested fits progress) fun outcome => ?_
      cases outcome with
      | more next => exact ih _ next
      | done stack => exact Unison.pure _

end Job

namespace Grammar

open Job (Unison Steady Nested)

variable {grammar : Grammar} {alike : Work grammar → Work grammar → Prop} {limit : Nat}
  (steady : Steady alike limit)

include steady

theorem retokenize_nested (depth : Nat) :
    Nested alike limit (retokenize depth : Retokenize grammar) (retokenize depth) := by
  induction depth with
  | zero => exact fun _ _ _ _ _ => steady.overflow.mono fun _ _ _ => rfl
  | succ depth ih =>
    intro text onFirstLine start stack fits
    simp only [retokenize]
    exact Unison.bind (Job.read_unison steady ih fits _ _ _) fun _ => Unison.pure _

variable {retokenize other : Retokenize grammar} (nested : Nested alike limit retokenize other)
  {text : List Char} (fits : Text.byteLength text ≤ limit)

include nested fits

theorem checkConditions_unison (progress : Progress) (outer : List Stack) :
    Unison alike (checkConditions retokenize text progress outer)
      (checkConditions other text progress outer) := by
  induction outer generalizing progress with
  | nil => exact Unison.pure _
  | cons stack rest ih =>
    unfold checkConditions
    split
    · dsimp only
      split
      · exact Unison.pure _
      · rename_i found chosen
        obtain ⟨cursor, _, searched⟩ :=
          Option.bind_eq_some_iff.mp (Option.filter_eq_some_iff.mp chosen).1
        have bounds := (Pattern.search_within _ _ _ _ _ searched).mono fits
        refine Unison.bind (steady.emits _ (bounds.ordered.trans bounds.stop_le)) fun _ => ?_
        refine Unison.bind (Job.captures_unison steady nested text _ stack _ found bounds)
          fun _ => ?_
        exact Unison.bind (steady.emits _ bounds.stop_le) fun _ => ih _
    · exact ih progress

omit nested fits in
theorem lineJob_nested {depth deeper : Nat}
    (nested : Nested alike limit (Grammar.retokenize depth : Retokenize grammar)
      (Grammar.retokenize deeper))
    (line : String) (fits : lineSize line ≤ limit) (start : Stack) (isFirst : Bool)
    (checks : Option Nat) :
    Unison alike (grammar.lineJob depth line start isFirst checks)
      (grammar.lineJob deeper line start isFirst checks) := by
  unfold lineJob
  refine Unison.bind (checkConditions_unison steady nested fits _ _) fun progress => ?_
  refine Unison.bind (Job.read_unison steady nested fits checks _ progress) fun (stack, late) => ?_
  cases late with
  | false => exact Unison.pure _
  | true => exact Unison.bind (steady.emits _ fits) fun _ => Unison.pure _

omit nested fits in
theorem lineJob_unison (depth : Nat) (line : String) (fits : lineSize line ≤ limit) (start : Stack)
    (isFirst : Bool) (checks : Option Nat) :
    Unison alike (grammar.lineJob depth line start isFirst checks)
      (grammar.lineJob depth line start isFirst checks) :=
  lineJob_nested steady (retokenize_nested steady depth) line fits start isFirst checks

omit steady nested fits in
theorem tokenize_unison (depth : Nat) (line : String) (prior : Option Stack) (checks : Option Nat)
    (isPacked : Bool) (one other : Caches grammar) :
    ((tokenize depth line prior checks isPacked).run one).1 =
      ((tokenize depth line prior checks isPacked).run other).1 := by
  obtain ⟨ready, left⟩ := tokenize_eq depth line prior checks isPacked one
  obtain ⟨set, right⟩ := tokenize_eq depth line prior checks isPacked other
  obtain ⟨ended, emitted, _, deep⟩ :=
    lineJob_unison (Job.emittedAlike_steady grammar (lineSize line)) depth line le_rfl
      (grammar.startOfLine prior) prior.isNone checks ⟨ready, Emitted.none isPacked, 0, false⟩
      ⟨set, Emitted.none isPacked, 0, false⟩ ⟨rfl, rfl, rfl⟩
  rw [left, right]
  simp only [lineResult, ended, emitted, deep]

end Grammar

end Highlighter
