import Highlighter.Proofs.Line.Termination

set_option autoImplicit false

namespace Highlighter

open Regex (Match Region)

def Frame.Spans (graph : RuleGraph) (frame : Frame) : Prop :=
  ∃ rule follow, graph.rule? frame.rule = some rule ∧ rule.follow? = some follow ∧
    (frame.resolved.isSome = true → follow.refersBack = true)

structure Grammar.Nests (grammar : Grammar) (outer : Stack) (frame : Frame) : Prop where
  spans : frame.Spans grammar.graph
  resolves : grammar.Resolves frame
  deeper : frame.depth = outer.depth + 1
  named : ∃ name, frame.nameScopes = grammar.pathAfter outer.contentScopes name
  content : ∃ name, frame.contentScopes = grammar.pathAfter frame.nameScopes name

theorem Grammar.Nests.opens {grammar : Grammar} {outer : Stack} {frame : Frame}
    (nests : grammar.Nests outer frame) : grammar.Opens outer.contentScopes frame := by
  obtain ⟨rule, follow, known, _⟩ := nests.spans
  exact ⟨RuleGraph.lt_size known, nests.resolves, nests.named, nests.content⟩

def Grammar.Places (grammar : Grammar) (onto : ScopePath → Prop) (token : Token) : Prop :=
  ∃ path, onto path ∧ token.scopes = path.names ∧ token.metadata = grammar.tokenMetadata path

inductive Stack.Turns (grammar : Grammar) (before : Stack) : Stack → Prop
  | stays : Turns grammar before before
  | closes : Turns grammar before before.pop
  | opens (frame : Frame) (nests : grammar.Nests before frame) :
    Turns grammar before (before.push frame)

def Outcome.stack : Outcome → Stack
  | .more progress => progress.stack
  | .done stack => stack

def Stack.OnPaths (onto : ScopePath → Prop) (stack : Stack) : Prop :=
  ∀ frame ∈ stack.frames, onto frame.nameScopes ∧ onto frame.contentScopes

namespace Stack.OnPaths

variable {onto : ScopePath → Prop} {stack : Stack}

theorem name (on : stack.OnPaths onto) : onto stack.top.nameScopes :=
  (on stack.top List.mem_cons_self).1

theorem content (on : stack.OnPaths onto) : onto stack.contentScopes :=
  (on stack.top List.mem_cons_self).2

theorem pop (on : stack.OnPaths onto) : stack.pop.OnPaths onto :=
  fun frame member => on frame (stack.pop_subset frame member)

theorem push (on : stack.OnPaths onto) {frame : Frame} (name : onto frame.nameScopes)
    (content : onto frame.contentScopes) : (stack.push frame).OnPaths onto := by
  intro other member
  rcases List.mem_cons.mp member with rfl | old
  · exact ⟨name, content⟩
  · exact on other old

theorem withName (on : stack.OnPaths onto) :
    (stack.withContent stack.top.nameScopes).OnPaths onto := by
  intro other member
  rcases List.mem_cons.mp member with rfl | old
  · exact ⟨on.name, on.name⟩
  · exact on other (List.mem_cons_of_mem _ old)

end Stack.OnPaths

namespace Emitted

variable {emitted : Emitted} {start stop size : Nat} {scopes : ScopePath} {metadata : Metadata}
  {token : Token}

theorem mem_add (member : token ∈ (emitted.add start stop scopes metadata).tokens) :
    token = ⟨start, stop, scopes.names, metadata⟩ ∨ token ∈ emitted.tokens := by
  cases emitted with
  | plain tokens => exact List.mem_cons.mp member
  | packed tokens =>
    cases tokens with
    | nil => exact nomatch member
    | cons last rest =>
      simp only [add] at member
      split at member <;> exact nomatch member

-- The end of a line adds a token only where there is none.
theorem mem_finish (member : token ∈ (emitted.finish size scopes metadata).tokens) :
    ∃ old, (old = ⟨0, size + 1, scopes.names, metadata⟩ ∨ old ∈ emitted.tokens) ∧
      token = old.clip size := by
  cases emitted with
  | packed tokens => exact nomatch member
  | plain found =>
    obtain ⟨old, kept, rfl⟩ := List.mem_map.mp member
    refine ⟨old, ?_, rfl⟩
    have kept := List.mem_reverse.mp kept
    cases found with
    | nil => exact .inl (List.mem_singleton.mp kept)
    | cons last rest =>
      by_cases feed : last.start = size
      · simp only [feed, if_true] at kept
        split at kept
        · exact .inl (List.mem_singleton.mp kept)
        · exact .inr (List.mem_cons_of_mem _ kept)
      · simp only [feed, if_false] at kept
        exact .inr kept

end Emitted

namespace Job

variable {grammar : Grammar} {α β : Type} {onto : ScopePath → Prop} {fair : Work grammar → Prop}

structure Lasts (onto : ScopePath → Prop) (fair : Work grammar → Prop) : Prop where
  emit : ∀ scopes stop work, onto scopes → fair work → fair ((Job.emit scopes stop).run work).2
  caches : ∀ work caches, fair work → fair { work with caches }

def Lays (fair : Work grammar → Prop) (job : Job grammar α) (after : α → Prop) : Prop :=
  Ensures fair job fun value work => after value ∧ fair work

namespace Lays

theorem pure {after : α → Prop} (value : α) (holds : after value) :
    Lays fair (Pure.pure value : Job grammar α) after := fun _ now => ⟨holds, now⟩

theorem bind {job : Job grammar α} {next : α → Job grammar β} {between : α → Prop}
    {after : β → Prop} (first : Lays fair job between)
    (rest : ∀ value, between value → Lays fair (next value) after) :
    Lays fair (job >>= next) after := by
  intro work now
  obtain ⟨value, later⟩ := first work now
  exact rest _ value _ later

theorem emit (lasts : Lasts onto fair) {scopes : ScopePath} (here : onto scopes) (stop : Nat) :
    Lays fair (Job.emit scopes stop) fun _ => True :=
  fun work now => ⟨trivial, lasts.emit scopes stop work here now⟩

theorem cached (lasts : Lasts onto fair) (action : StateM (Caches grammar) α) {value : α}
    (answers : ∀ caches, (action.run caches).1 = value) :
    Lays fair (Job.cached action) (· = value) :=
  fun work now => ⟨answers work.caches, lasts.caches work _ now⟩

end Lays

def Placed (onto : ScopePath → Prop) (work : Work grammar) : Prop :=
  ∀ token ∈ work.emitted.tokens, grammar.Places onto token

theorem placed_lasts (onto : ScopePath → Prop) :
    Lasts onto (Placed onto : Work grammar → Prop) where
  emit := by
    intro scopes stop work here placed
    rw [run_emit]
    split
    · exact placed
    · intro token member
      rcases Emitted.mem_add member with rfl | old
      · exact ⟨scopes, here, rfl, rfl⟩
      · exact placed token old
  caches := fun _ _ placed => placed

structure Carries (grammar : Grammar) (onto : ScopePath → Prop) (admits : RuleId → Prop)
    (good inner : Stack → Prop) : Prop where
  grows : ∀ path name, onto path → onto (grammar.pathAfter path name)
  content : ∀ {stack}, good stack → onto stack.contentScopes
  top : ∀ {stack}, good stack → admits stack.top.rule
  comes : ∀ {stack id}, good stack → Candidate.Comes grammar stack.top id → admits id
  linked : ∀ {id rule other}, admits id → grammar.graph.rule? id = some rule →
    other ∈ rule.linked → admits other
  push : ∀ {stack frame}, good stack → admits frame.rule → onto frame.nameScopes →
    onto frame.contentScopes → good (stack.push frame)
  enter : ∀ {stack frame id rule}, good stack → admits id → grammar.graph.rule? id = some rule →
    rule.kind = .capturing (some frame.rule) → onto frame.nameScopes → onto frame.contentScopes →
    inner (stack.push frame)
  -- Only a rule with a closing pattern is ever closed.
  name : ∀ {stack}, good stack → (Candidate.closing? grammar stack.top).isSome = true →
    onto stack.top.nameScopes
  named : ∀ {stack}, good stack → (Candidate.closing? grammar stack.top).isSome = true →
    good (stack.withContent stack.top.nameScopes)
  pop : ∀ {stack}, good stack → (Candidate.closing? grammar stack.top).isSome = true →
    good stack.pop

section

variable {admits : RuleId → Prop} {good inner : Stack → Prop}

theorem Carries.opens (carries : Carries grammar onto admits good inner) {stack : Stack}
    (here : good stack) {frame : Frame} (admitted : admits frame.rule)
    (nests : grammar.Nests stack frame) : good (stack.push frame) := by
  obtain ⟨name, named⟩ := nests.named
  obtain ⟨inner, content⟩ := nests.content
  have outer : onto frame.nameScopes := named ▸ carries.grows _ name (carries.content here)
  exact carries.push here admitted outer (content ▸ carries.grows _ inner outer)

theorem Carries.captures (carries : Carries grammar onto admits good inner) {id : RuleId}
    (admitted : admits id) {rule : Rule} (known : grammar.graph.rule? id = some rule)
    {rules : CaptureRules} (linked : CaptureRules.declared rules ⊆ rule.linked) :
    ∀ other, some other ∈ rules → admits other :=
  fun _ member => carries.linked admitted known
    (linked (List.mem_filterMap.mpr ⟨_, member, rfl⟩))

end

theorem onPaths_carries (grows : ∀ path name, onto path → onto (grammar.pathAfter path name)) :
    Carries grammar onto (fun _ => True) (·.OnPaths onto) (·.OnPaths onto) where
  grows := grows
  content := fun on => on.content
  top := fun _ => trivial
  comes := fun _ _ => trivial
  linked := fun _ _ _ => trivial
  push := fun on _ name content => on.push name content
  enter := fun on _ _ _ name content => on.push name content
  name := fun on _ => on.name
  named := fun on _ => on.withName
  pop := fun on _ => on.pop

def Encloses (fair : Work grammar → Prop) (inner : Stack → Prop)
    (retokenize : Retokenize grammar) : Prop :=
  ∀ (text : List Char) (onFirstLine : Bool) (start : Nat) (stack : Stack),
    inner stack → Lays fair (retokenize text onFirstLine start stack) fun _ => True

def GroupsOn (onto : ScopePath → Prop) (groups : List OpenGroup) : Prop :=
  ∀ group ∈ groups, onto group.scopes

variable (lasts : Lasts onto fair)

include lasts

theorem closeUpTo_lays (start : Nat) (groups : List OpenGroup) (on : GroupsOn onto groups) :
    Lays fair (closeUpTo start groups : Job grammar _) (GroupsOn onto) := by
  induction groups with
  | nil => exact Lays.pure _ on
  | cons group rest ih =>
    unfold closeUpTo
    split
    · refine Lays.bind (Lays.emit lasts (on group List.mem_cons_self) _) fun _ _ => ?_
      exact ih fun other member => on other (List.mem_cons_of_mem _ member)
    · exact Lays.pure _ on

theorem closeAll_lays (groups : List OpenGroup) (on : GroupsOn onto groups) :
    Lays fair (closeAll groups : Job grammar _) fun _ => True := by
  induction groups with
  | nil => exact Lays.pure _ trivial
  | cons group rest ih =>
    unfold closeAll
    refine Lays.bind (Lays.emit lasts (on group List.mem_cons_self) _) fun _ _ => ?_
    exact ih fun other member => on other (List.mem_cons_of_mem _ member)

omit lasts in
theorem innerScopes_on {stack : Stack} (content : onto stack.contentScopes)
    {groups : List OpenGroup} (grouped : GroupsOn onto groups) :
    onto (innerScopes stack groups) := by
  cases groups with
  | nil => exact content
  | cons group rest => exact grouped group List.mem_cons_self

variable {admits : RuleId → Prop} {good inner : Stack → Prop}
  (carries : Carries grammar onto admits good inner) {retokenize : Retokenize grammar}
  (nested : Encloses fair inner retokenize) (text : List Char) (onFirstLine : Bool)

include carries nested

theorem enterGroup_lays {stack : Stack} (here : good stack) (found : Match)
    {groups : List OpenGroup} (grouped : GroupsOn onto groups) {id : RuleId} (admitted : admits id)
    {rule : Rule} (known : grammar.graph.rule? id = some rule) (region : Region) :
    Lays fair (enterGroup retokenize text onFirstLine stack found groups rule region)
      (GroupsOn onto) := by
  unfold enterGroup
  dsimp only
  split
  · rename_i kind
    refine Lays.bind (Lays.cached lasts _ (Grammar.pushName_value _ _)) ?_
    rintro names rfl
    refine Lays.bind (Lays.cached lasts _ (Grammar.pushName_value _ _)) ?_
    rintro contents rfl
    have named := carries.grows _ (rule.name.map (·.resolve text found.group?))
      (carries.content here)
    refine Lays.bind (nested _ _ _ _ (carries.enter here admitted known kind named
      (carries.grows _ _ named))) fun _ _ => ?_
    exact Lays.pure _ grouped
  · split
    · exact Lays.pure _ grouped
    · rename_i name _
      refine Lays.bind (Lays.cached lasts _ (Grammar.pushName_value _ _)) ?_
      rintro scopes rfl
      refine Lays.pure _ fun group member => ?_
      rcases List.mem_cons.mp member with rfl | old
      · exact carries.grows _ (some name) (innerScopes_on (carries.content here) grouped)
      · exact grouped group old

theorem readGroups_lays {stack : Stack} (here : good stack) (found : Match)
    (groups : List OpenGroup) (grouped : GroupsOn onto groups)
    (parts : List (Option RuleId × Option Region))
    (admitted : ∀ id region, (some id, region) ∈ parts → admits id) :
    Lays fair (readGroups retokenize text onFirstLine stack found groups parts)
      fun _ => True := by
  induction parts generalizing groups with
  | nil => exact closeAll_lays lasts groups grouped
  | cons part rest ih =>
    have next (groups : List OpenGroup) (grouped : GroupsOn onto groups) :=
      ih groups grouped fun id region member => admitted id region (List.mem_cons_of_mem _ member)
    match part with
    | (none, _) => exact next groups grouped
    | (some _, none) => exact next groups grouped
    | (some id, some region) =>
      unfold readGroups
      split
      · exact next groups grouped
      · split
        · exact closeAll_lays lasts groups grouped
        · refine Lays.bind (closeUpTo_lays lasts region.start groups grouped) fun left leftOn => ?_
          refine Lays.bind (Lays.emit lasts (innerScopes_on (carries.content here) leftOn) _) fun _ _ => ?_
          split
          · exact next left leftOn
          · rename_i known
            refine Lays.bind (enterGroup_lays lasts carries nested text onFirstLine here found leftOn
              (admitted id _ List.mem_cons_self) known region) fun now nowOn => ?_
            exact next now nowOn

theorem captures_lays {stack : Stack} (here : good stack) (rules : CaptureRules)
    (admitted : ∀ id, some id ∈ rules → admits id) (found : Match) :
    Lays fair (captures retokenize text onFirstLine stack rules found) fun _ => True :=
  readGroups_lays lasts carries nested text onFirstLine here found [] (by simp [GroupsOn]) _
    fun id _ member => admitted id (List.of_mem_zip member).1

def Goes (grammar : Grammar) (good : Stack → Prop) (stack : Stack) (outcome : Outcome) : Prop :=
  stack.Turns grammar outcome.stack ∧ good outcome.stack

variable (size : Nat) {progress : Progress} (here : good progress.stack)

include here

omit lasts carries nested in
theorem Goes.on (stop : Nat) : Goes grammar good progress.stack (.more (progress.moveTo stop)) := by
  have same : (Outcome.more (progress.moveTo stop)).stack = progress.stack := progress.moveTo_stack _
  rw [Goes, same]
  exact ⟨.stays, here⟩

omit nested in
theorem stepPast_lays (anchor : Option Nat) :
    Lays fair (stepPast text size { progress with anchor } : Job grammar Outcome)
      (Goes grammar good progress.stack) := by
  unfold stepPast
  dsimp only
  split <;>
  exact Lays.bind (Lays.emit lasts (carries.content here) _) fun _ _ => Lays.pure _ ⟨.stays, here⟩

theorem close_lays (found : Match)
    (closes : (Candidate.closing? grammar progress.stack.top).isSome = true) :
    Lays fair (close retokenize text size progress found)
      (Goes grammar good progress.stack) := by
  have admitted : ∀ id, some id ∈ closingCaptures grammar progress.stack.top.rule → admits id := by
    intro id member
    simp only [closingCaptures] at member
    split at member
    · rename_i known
      exact carries.captures (carries.top here) known (by simp [Rule.linked]) id member
    · exact nomatch member
  unfold close
  refine Lays.bind (Lays.emit lasts (carries.content here) _) fun _ _ => ?_
  refine Lays.bind (captures_lays lasts carries nested text _ (carries.named here closes) _ admitted
    found) fun _ _ => ?_
  refine Lays.bind (Lays.emit lasts (carries.name here closes) _) fun _ _ => ?_
  dsimp only
  split
  · exact stepPast_lays lasts carries text size here _
  · exact Lays.pure _ ⟨.closes, carries.pop here closes⟩

theorem takeMatch_lays {id : RuleId} (own : admits id) (rules : CaptureRules)
    (admitted : ∀ id, some id ∈ rules → admits id) (found : Match) {nameScopes : ScopePath}
    (named : onto nameScopes) :
    Lays fair (takeMatch retokenize text size progress id rules found nameScopes)
      (Goes grammar good progress.stack) := by
  unfold takeMatch
  refine Lays.bind (captures_lays lasts carries nested text _ (carries.push here own named named)
    rules admitted found) fun _ _ => ?_
  refine Lays.bind (Lays.emit lasts named _) fun _ _ => ?_
  split
  · exact Lays.pure _ (.on here _)
  · exact stepPast_lays lasts carries text size here _

theorem openRule_lays {id : RuleId} (own : admits id) {rule : Rule} (rules : CaptureRules)
    (admitted : ∀ id, some id ∈ rules → admits id) {follow : Pattern} (found : Match)
    (known : grammar.graph.rule? id = some rule)
    (follows : rule.follow? = some follow) {name : Option String}
    (named : onto (grammar.pathAfter progress.stack.contentScopes name)) :
    Lays fair (openRule retokenize text size progress id rule rules follow found
      (grammar.pathAfter progress.stack.contentScopes name))
      (Goes grammar good progress.stack) := by
  unfold openRule
  refine Lays.bind (captures_lays lasts carries nested text _ (carries.push here own named named)
    rules admitted found) fun _ _ => ?_
  refine Lays.bind (Lays.emit lasts named _) fun _ _ => ?_
  refine Lays.bind (Lays.cached lasts _ (Grammar.pushName_value _ _)) ?_
  rintro contentScopes rfl
  have nests (resolved : Option Pattern)
      (uses : ∀ pattern, resolved = some pattern →
        follow.refersBack = true ∧ grammar.Resolved pattern) :
      grammar.Nests progress.stack
        { frameFor size progress id found (grammar.pathAfter progress.stack.contentScopes name) with
          contentScopes := grammar.pathAfter (grammar.pathAfter progress.stack.contentScopes name)
            (rule.contentName.map (·.resolve text found.group?))
          resolved } := by
    refine ⟨⟨rule, follow, known, follows, fun own => ?_⟩, fun pattern here => ?_, rfl,
      ⟨name, rfl⟩, ⟨_, rfl⟩⟩
    · obtain ⟨pattern, here⟩ := Option.isSome_iff_exists.mp own
      exact (uses pattern here).1
    · exact (uses pattern here).2
  dsimp only
  split
  · rename_i refers
    refine Lays.bind (Lays.cached lasts _ (Grammar.resolved_value _)) fun resolved compiled => ?_
    split
    · exact stepPast_lays lasts carries text size here _
    · have opened := nests resolved fun pattern own =>
        ⟨refers, known, follows, refers, compiled.symm.trans own⟩
      exact Lays.pure _ ⟨.opens _ opened, carries.opens here own opened⟩
  · refine Lays.bind (Lays.pure none rfl : Lays fair _ (· = none)) fun resolved absent => ?_
    subst absent
    split
    · exact stepPast_lays lasts carries text size here _
    · have opened := nests none fun _ => nofun
      exact Lays.pure _ ⟨.opens _ opened, carries.opens here own opened⟩

theorem takeRule_lays {id : RuleId} (own : admits id) (found : Match) :
    Lays fair (takeRule retokenize text size progress id found)
      (Goes grammar good progress.stack) := by
  unfold takeRule
  refine Lays.bind (Lays.emit lasts (carries.content here) _) fun _ _ => ?_
  split
  · exact Lays.pure _ (.on here _)
  · rename_i rule known
    refine Lays.bind (Lays.cached lasts _ (Grammar.pushName_value _ _)) ?_
    rintro nameScopes rfl
    have named := carries.grows _ (rule.name.map (·.resolve text found.group?))
      (carries.content here)
    split
    · rename_i kind
      exact takeMatch_lays lasts carries nested text size here own _
        (carries.captures own known (by simp [Rule.linked, kind])) found named
    · rename_i kind
      exact openRule_lays lasts carries nested text size here own _
        (carries.captures own known (by simp [Rule.linked, kind])) found known
        (by simp [Rule.follow?, kind]) named
    · rename_i kind
      exact openRule_lays lasts carries nested text size here own _
        (carries.captures own known (by simp [Rule.linked, kind])) found known
        (by simp [Rule.follow?, kind]) named
    · exact Lays.pure _ (.on here _)
    · exact Lays.pure _ (.on here _)

theorem advance_lays :
    Lays fair (advance retokenize text size progress) (Goes grammar good progress.stack) := by
  unfold advance
  dsimp only
  split
  · exact Lays.bind (Lays.emit lasts (carries.content here) _) fun _ _ => Lays.pure _ ⟨.stays, here⟩
  · rename_i chosen
    obtain ⟨cursor, _, best⟩ := Option.bind_eq_some_iff.mp chosen
    obtain ⟨_, offers, -⟩ := Candidate.best_offered grammar _ _ _ best
    cases offers with
    | closing closes => exact close_lays lasts carries nested text size here _ (closes ▸ rfl)
  · rename_i chosen
    obtain ⟨cursor, _, best⟩ := Option.bind_eq_some_iff.mp chosen
    obtain ⟨_, offers, -⟩ := Candidate.best_offered grammar _ _ _ best
    cases offers with
    | rule comes => exact takeRule_lays lasts carries nested text size here (carries.comes here comes) _

theorem read_lays {holds : Stack → Prop}
    (turns : ∀ before after : Stack, before.Turns grammar after → holds before → holds after)
    (start : holds progress.stack) (checks : Option Nat) (fuel : Nat) :
    Lays fair (read retokenize text size checks fuel progress) (holds ·.1) := by
  induction fuel generalizing checks progress with
  | zero =>
    cases checks with
    | none => exact Lays.pure _ start
    | some left => cases left <;> exact Lays.pure _ start
  | succ fuel ih =>
    by_cases late : checks = some 0
    · subst late
      exact Lays.pure _ start
    · rw [read_succ _ _ _ _ _ _ late]
      refine Lays.bind (advance_lays lasts carries nested text size here) fun outcome ⟨turned, now⟩ => ?_
      have kept := turns _ _ turned start
      cases outcome with
      | done stack => exact Lays.pure _ kept
      | more next => exact ih now kept _

end Job

namespace Grammar

open Job (Lays Encloses)

variable {grammar : Grammar} {onto : ScopePath → Prop} {holds : Stack → Prop}

structure Grounds (grammar : Grammar) (onto : ScopePath → Prop) (holds : Stack → Prop) : Prop where
  grows : ∀ path name, onto path → onto (grammar.pathAfter path name)
  on : ∀ stack, holds stack → stack.OnPaths onto
  pop : ∀ stack, holds stack → holds stack.pop
  push : ∀ stack frame, holds stack → grammar.Nests stack frame → holds (stack.push frame)

theorem onPaths_grounds (grows : ∀ path name, onto path → onto (grammar.pathAfter path name)) :
    grammar.Grounds onto (·.OnPaths onto) where
  grows := grows
  on := fun _ on => on
  pop := fun _ on => on.pop
  push := by
    intro stack frame on nests
    obtain ⟨name, named⟩ := nests.named
    obtain ⟨inner, content⟩ := nests.content
    have outer : onto frame.nameScopes := named ▸ grows _ name on.content
    exact on.push outer (content ▸ grows _ inner outer)

namespace Grounds

variable (grounds : grammar.Grounds onto holds)

include grounds

theorem turns (before after : Stack) (turns : before.Turns grammar after) (here : holds before) :
    holds after := by
  cases turns with
  | stays => exact here
  | closes => exact grounds.pop _ here
  | opens frame nests => exact grounds.push _ frame here nests

end Grounds

theorem retokenize_encloses {fair : Work grammar → Prop} (lasts : Job.Lasts onto fair)
    (overflow : ∀ work, fair work → fair { work with tooDeep := true }) {admits : RuleId → Prop}
    {good : Stack → Prop} (carries : Job.Carries grammar onto admits good good) (depth : Nat) :
    Encloses fair good (retokenize depth : Retokenize grammar) := by
  induction depth with
  | zero => exact fun _ _ _ _ _ work now => ⟨trivial, overflow work now⟩
  | succ depth ih =>
    intro text onFirstLine start stack here
    simp only [retokenize]
    have entered : good (⟨start, stack, 1, none, onFirstLine⟩ : Progress).stack := here
    exact Lays.bind (Job.read_lays lasts carries ih text _ entered
      (fun _ _ _ _ => trivial) trivial none _) fun _ _ => Lays.pure _ trivial

end Grammar

end Highlighter
