import Highlighter.Proofs.Grammar.Holders
import Highlighter.Proofs.Line.Captures

set_option autoImplicit false

namespace Highlighter

open Regex (Match Region)

def ScopePath.IsWithin (outer path : ScopePath) : Prop := outer.names <+: path.names

theorem ScopePath.IsWithin.pathAfter {outer : ScopePath} {grammar : Grammar} (path : ScopePath)
    (name : Option String) (within : outer.IsWithin path) :
    outer.IsWithin (grammar.pathAfter path name) :=
  List.IsPrefix.trans within (Grammar.names_pathAfter path name)

def Stack.Over (each : Frame → Prop) (base : Frame) (below : List Frame) (stack : Stack) : Prop :=
  ∃ above, stack.frames = above ++ base :: below ∧ ∀ frame ∈ above, each frame

namespace Stack.Over

variable {each : Frame → Prop} {base : Frame} {below : List Frame} {stack : Stack}

theorem cases (lies : stack.Over each base below) :
    stack.top = base ∨ each stack.top ∧
      ∃ above, stack.below = above ++ base :: below ∧ ∀ frame ∈ above, each frame := by
  obtain ⟨above, frames, on⟩ := lies
  cases above with
  | nil => exact .inl (List.cons.inj frames).1
  | cons top rest =>
    obtain ⟨same, under⟩ := List.cons.inj frames
    obtain ⟨first, others⟩ := List.forall_mem_cons.mp on
    exact .inr ⟨same ▸ first, rest, under, others⟩

theorem push (lies : stack.Over each base below) {frame : Frame} (here : each frame) :
    (stack.push frame).Over each base below := by
  obtain ⟨above, frames, on⟩ := lies
  exact ⟨frame :: above, congrArg (frame :: ·) frames, List.forall_mem_cons.mpr ⟨here, on⟩⟩

variable {grammar : Grammar}

theorem covered (stays : Candidate.closing? grammar base = none) (lies : stack.Over each base below)
    (closes : (Candidate.closing? grammar stack.top).isSome = true) :
    each stack.top ∧
      ∃ above, stack.below = above ++ base :: below ∧ ∀ frame ∈ above, each frame := by
  rcases lies.cases with bottom | above
  · simp [bottom, stays] at closes
  · exact above

theorem pop (stays : Candidate.closing? grammar base = none) (lies : stack.Over each base below)
    (closes : (Candidate.closing? grammar stack.top).isSome = true) :
    stack.pop.Over each base below := by
  obtain ⟨_, above, under, on⟩ := covered stays lies closes
  exact ⟨above, (Stack.frames_pop _ (by simp [under])).trans under, on⟩

end Stack.Over

namespace Job

variable {grammar : Grammar} {α : Type} {onto : ScopePath → Prop}

theorem over_carries (grows : ∀ path name, onto path → onto (grammar.pathAfter path name))
    {base : Frame} (content : onto base.contentScopes)
    (stays : Candidate.closing? grammar base = none) (below : List Frame) :
    let good (stack : Stack) : Prop :=
      stack.Over (fun frame => onto frame.nameScopes ∧ onto frame.contentScopes) base below
    Carries grammar onto (fun _ => True) good good where
  grows := grows
  content := by
    intro stack lies
    rcases lies.cases with bottom | ⟨above, _⟩
    · exact (congrArg onto (congrArg Frame.contentScopes bottom)).mpr content
    · exact above.2
  top := fun _ => trivial
  comes := fun _ _ => trivial
  linked := fun _ _ _ => trivial
  push := fun lies _ name content => lies.push ⟨name, content⟩
  enter := fun lies _ _ _ name content => lies.push ⟨name, content⟩
  name := fun lies closes => (lies.covered stays closes).1.1
  named := by
    intro stack lies closes
    obtain ⟨⟨name, _⟩, above, under, on⟩ := lies.covered stays closes
    exact ⟨_ :: above, congrArg (_ :: ·) under, List.forall_mem_cons.mpr ⟨⟨name, name⟩, on⟩⟩
  pop := fun lies closes => lies.pop stays closes

theorem Lays.adds {job : Job grammar α} {after : α → Prop} (lays : Lays (Placed onto) job after)
    {base : List Token} {work : Work grammar} (plain : work.emitted = .plain base)
    (unison : Relates (OnTop base) job job fun _ _ => True) :
    ∃ added, (job.run work).2.emitted = .plain (added ++ base) ∧
      ∀ token ∈ added, grammar.Places onto token := by
  obtain ⟨-, -, added, above, apart⟩ := unison _ _ (onTop_cleared plain)
  obtain ⟨-, placed⟩ := lays { work with emitted := .plain [] } (fun _ => nofun)
  rw [Placed, apart] at placed
  exact ⟨added, above, placed⟩

end Job

namespace Grammar

open Job (Lays Steady Unison)

section

variable (grammar : Grammar) (text : List Char) (found : Match)

def groupContentName (id : RuleId) : Option String :=
  (grammar.graph.rule? id).bind fun rule => rule.contentName.map (·.resolve text found.group?)

def groupPath (outer : ScopePath) (id : RuleId) : ScopePath :=
  grammar.pathAfter (grammar.pathAfter outer (grammar.groupName text found id))
    (grammar.groupContentName text found id)

def groupScopes (id : RuleId) : List String :=
  scopesOf (grammar.groupName text found id) ++ scopesOf (grammar.groupContentName text found id)

theorem names_groupPath (outer : ScopePath) (id : RuleId) :
    (grammar.groupPath text found outer id).names =
      outer.names ++ grammar.groupScopes text found id := by
  rw [groupPath, names_pathAfter_eq, names_pathAfter_eq, List.append_assoc, groupScopes]

def enclosingScopes (parts : List (Option RuleId × Option Region)) (region : Region) : List String :=
  parts.flatMap fun part =>
    match part with
    | (some id, some outer) =>
      if outer.start ≤ region.start ∧ region.stop ≤ outer.stop then
        scopesOf (grammar.groupName text found id)
      else []
    | _ => []

end

section

variable {grammar : Grammar} {id : RuleId} {rule : Rule} {inner : RuleId}
  (known : grammar.graph.rule? id = some rule) (kind : rule.kind = .capturing (some inner))

include known kind

theorem enter_eq (retokenize : Retokenize grammar) (text : List Char) (onFirstLine : Bool)
    (stack : Stack) (found : Match) (groups : List Job.OpenGroup) (region : Region) :
    Job.enter retokenize text onFirstLine stack found groups id region = (do
      let nameScopes ← Job.cached (pushName stack.contentScopes (grammar.groupName text found id))
      let contentScopes ← Job.cached (pushName nameScopes (grammar.groupContentName text found id))
      retokenize ((Text.takeBytes? region.stop text).getD []) (onFirstLine && region.start == 0)
        region.start (stack.push
          ⟨stack.depth + 1, inner, some region.start, none, false, none, nameScopes, contentScopes⟩)
      return groups) := by
  obtain ⟨_, name, contentName, _⟩ := rule
  subst kind
  simp only [Job.enter, groupName, groupContentName, known]
  rfl

theorem enter_lays (held : ∃ nested, grammar.graph.rule? inner = some (Rule.held inner nested))
    (depth : Nat) (text : List Char) (onFirstLine : Bool) (stack : Stack) (found : Match)
    (groups : List Job.OpenGroup) (region : Region) :
    Lays (Job.Placed (grammar.groupPath text found stack.contentScopes id).IsWithin)
      (Job.enter (retokenize depth : Retokenize grammar) text onFirstLine stack found groups id
        region) fun _ => True := by
  rw [enter_eq known kind]
  refine Lays.bind (Lays.cached (Job.placed_lasts _) _ (pushName_value _ _)) ?_
  rintro nameScopes rfl
  refine Lays.bind (Lays.cached (Job.placed_lasts _) _ (pushName_value _ _)) ?_
  rintro contentScopes rfl
  -- The rule at the bottom only holds others, so no match closes it.
  obtain ⟨nested, held⟩ := held
  let path := grammar.groupPath text found stack.contentScopes id
  let base : Frame := ⟨stack.depth + 1, inner, some region.start, none, false, none,
    grammar.pathAfter stack.contentScopes (grammar.groupName text found id), path⟩
  have stays : Candidate.closing? grammar base = none := by
    simp [Candidate.closing?, base, held, Rule.held]
  have within : path.IsWithin base.contentScopes := List.prefix_rfl
  have carries := Job.over_carries ScopePath.IsWithin.pathAfter within stays stack.frames
  have encloses := retokenize_encloses (Job.placed_lasts _) (fun _ placed => placed) carries depth
  exact Lays.bind (encloses _ _ _ _ ⟨[], rfl, by simp⟩) fun _ _ => Lays.pure _ trivial

theorem enter_unison (depth : Nat) (text : List Char) (onFirstLine : Bool) (stack : Stack)
    (found : Match) (groups : List Job.OpenGroup) (region : Region) (base : List Token) :
    Unison (Job.OnTop base)
      (Job.enter (retokenize depth : Retokenize grammar) text onFirstLine stack found groups id
        region)
      (Job.enter (retokenize depth) text onFirstLine stack found groups id region) := by
  have steady : Steady (Job.OnTop base : Work grammar → Work grammar → Prop)
      (Text.byteLength ((Text.takeBytes? region.stop text).getD [])) :=
    Job.onTop_steady _ _
  rw [enter_eq known kind]
  refine Unison.bind (steady.asks _ _ (pushName_value _ _)) fun nameScopes => ?_
  refine Unison.bind (steady.asks _ _ (pushName_value _ _)) fun contentScopes => ?_
  exact Unison.bind (retokenize_nested steady depth _ _ _ _ le_rfl) fun _ => Unison.pure _

theorem enter_extends (held : ∃ nested, grammar.graph.rule? inner = some (Rule.held inner nested))
    (depth : Nat) (text : List Char) (onFirstLine : Bool) (stack : Stack) (found : Match)
    (groups : List Job.OpenGroup) (region : Region) {work : Work grammar} {tokens : List Token}
    (plain : work.emitted = .plain tokens) :
    ∃ added, ((Job.enter (retokenize depth) text onFirstLine stack found groups id region).run
        work).2.emitted = .plain (added ++ tokens) ∧
      ∀ token ∈ added,
        (grammar.groupPath text found stack.contentScopes id).names <+: token.scopes := by
  have lays := enter_lays known kind held depth text onFirstLine stack found groups region
  have unison := enter_unison known kind depth text onFirstLine stack found groups region tokens
  obtain ⟨added, emitted, placed⟩ := lays.adds plain (unison.mono fun _ _ _ => trivial)
  refine ⟨added, emitted, fun token member => ?_⟩
  obtain ⟨path, on, scopes, -⟩ := placed token member
  exact scopes ▸ on

end

/-- The text of a group with rules of its own is read where the group comes to be opened. All tokens
that this adds lie within what the stack and the group itself give, whatever groups are open. So they
lie within the scopes of the groups around it when these have none. -/
theorem captures_retokenize (library : Library) (grammar : Grammar)
    (compiled : grammar.graph = .compile library) (depth : Nat) (text : List Char)
    (onFirstLine : Bool) (stack : Stack) (rules : CaptureRules) (found : Match)
    (nested : found.Nested) (before after : List (Option RuleId × Option Region)) (id : RuleId)
    (region : Region) (filled : region.start ≠ region.stop)
    (split : rules.zip (some found.whole :: found.groups) =
      before ++ (some id, some region) :: after)
    (rule : Rule) (inner : RuleId) (known : grammar.graph.rule? id = some rule)
    (kind : rule.kind = .capturing (some inner)) :
    let read : List Job.OpenGroup → _ → Job grammar (List Job.OpenGroup) :=
      Job.readGroup (retokenize depth) text onFirstLine stack found
    let enter (groups : List Job.OpenGroup) : Job grammar (List Job.OpenGroup) :=
      Job.enter (retokenize depth) text onFirstLine stack found groups id region
    let around := grammar.enclosingScopes text found before region
    (Job.captures (retokenize depth) text onFirstLine stack rules found = do
      let groups ← Job.approach stack region.start (← before.foldlM read [])
      Job.closeAll (← after.foldlM read (← enter groups))) ∧
    ∀ (groups : List Job.OpenGroup) (work : Work grammar) (tokens : List Token),
      work.emitted = .plain tokens →
        ∃ added, ((enter groups).run work).2.emitted = .plain (added ++ tokens) ∧
          ∀ token ∈ added,
            stack.contentScopes.names ++ grammar.groupScopes text found id <+: token.scopes ∧
              (around = [] → stack.contentScopes.names ++ around ++
                grammar.groupScopes text found id <+: token.scopes) := by
  have laminar := nested.laminar rules
  constructor
  · unfold Job.captures
    rw [Job.readGroups_eq _ _ _ _ _ _ _ fun part member region here =>
      (laminar.ordered part member region here).1.trans (laminar.ordered part member region here).2,
      split, List.foldlM_append, bind_assoc]
    simp [Job.readGroup, filled]
  · intro groups work tokens plain
    have held := compiled ▸ RuleGraph.compile_held library id rule (compiled ▸ known) inner kind
    obtain ⟨added, emitted, within⟩ :=
      enter_extends known kind held depth text onFirstLine stack found groups region plain
    refine ⟨added, emitted, fun token member => ?_⟩
    have lies := within token member
    rw [names_groupPath] at lies
    exact ⟨lies, fun none => by rwa [none, List.append_nil]⟩

end Grammar

def Library.retokenizing : Library :=
  let decl (name pattern : Option String) (captures : Option (List (String × RuleDecl)))
      (nested : Option (List RuleDecl)) : RuleDecl :=
    ⟨none, name, none, pattern, captures, none, none, none, none, none, none, nested, none, false⟩
  let inner : RuleDecl := decl (some "i") none none (some [decl (some "p") (some "a") none none])
  ⟨⟨some "t", none,
    [decl none (some "<(a)>") (some [("0", decl (some "o") none none none), ("1", inner)]) none,
      decl none (some "a") (some [("0", inner)]) none],
    [], [], none, [], [], none⟩, Repository.empty⟩

def RuleGraph.retokenizing : RuleGraph :=
  let letter (c : Char) : Regex.Expr := .set (.char c)
  let single (captures : CaptureRules) : RuleKind :=
    .matching (.unanchored "a" (letter 'a')) captures
  let named (id : RuleId) (c : Char) (kind : RuleKind) : Rule := ⟨id, some [.plain c], none, kind⟩
  ⟨#[.held 0 [1, 6],
    ⟨1, none, none, .matching (.unanchored "<(a)>"
      (.seq (letter '<') (.seq (.group 1 (letter 'a')) (letter '>')))) [some 2, some 3]⟩,
    named 2 'o' (.capturing none), named 3 'i' (.capturing (some 4)), .held 4 [5],
    named 5 'p' (single []), ⟨6, none, none, single [some 7]⟩, named 7 'i' (.capturing (some 8)),
    .held 8 [9], named 9 'p' (single [])], 0, []⟩

namespace Grammar

def retokenizing : Grammar :=
  ofGraph Library.retokenizing Configuration.default (RuleGraph.compile Library.retokenizing)

theorem retokenizing_eq :
    retokenizing =
      ⟨Library.retokenizing.base, RuleGraph.retokenizing, ⟨0, []⟩, [], none, none⟩ := by
  cbv

def retokenizingStack (id : RuleId) : Stack :=
  let path := retokenizing.firstStack.contentScopes
  retokenizing.firstStack.push ⟨2, id, some 0, none, false, none, path, path⟩

def retokenizingStart : Work retokenizing := ⟨Caches.empty retokenizing, .plain [], 0, false⟩

theorem retokenizing_single :
    ((Job.enter (retokenize 1) (lineText "a") true (retokenizingStack 6) ⟨⟨0, 1⟩, []⟩
      [] 7 ⟨0, 1⟩).run retokenizingStart).2.emitted = .plain [⟨0, 1, ["t", "i", "p"], 0⟩] := by
  rw [retokenizingStart, retokenizingStack, retokenizing_eq]
  cbv

theorem captures_retokenize_single :
    ∃ added, ((Job.enter (retokenize 1) (lineText "a") true (retokenizingStack 6)
        ⟨⟨0, 1⟩, []⟩ [] 7 ⟨0, 1⟩).run retokenizingStart).2.emitted = .plain (added ++ []) ∧
      added = [⟨0, 1, ["t", "i", "p"], 0⟩] ∧
      ∀ token ∈ added, (retokenizingStack 6).contentScopes.names ++
        retokenizing.enclosingScopes (lineText "a") ⟨⟨0, 1⟩, []⟩ [] ⟨0, 1⟩ ++
          retokenizing.groupScopes (lineText "a") ⟨⟨0, 1⟩, []⟩ 7 <+: token.scopes := by
  have nested : Match.Nested ⟨⟨0, 1⟩, []⟩ := ⟨by decide, fun _ => nofun, .nil⟩
  have known : retokenizing.graph.rule? 7 = some ⟨7, some [.plain 'i'], none, .capturing (some 8)⟩ := by
    rw [retokenizing_eq]
    rfl
  have each := (captures_retokenize Library.retokenizing retokenizing rfl 1 (lineText "a") true
    (retokenizingStack 6) [some 7] ⟨⟨0, 1⟩, []⟩ nested [] [] 7 ⟨0, 1⟩ (by decide) rfl _ 8 known
    rfl).2
  obtain ⟨added, emitted, lies⟩ := each [] retokenizingStart [] rfl
  beta_reduce at emitted
  have alone : retokenizing.enclosingScopes (lineText "a") ⟨⟨0, 1⟩, []⟩ [] ⟨0, 1⟩ = [] := rfl
  have same := retokenizing_single.symm.trans emitted
  rw [List.append_nil] at same
  exact ⟨added, emitted, (Emitted.plain.inj same).symm, fun token member =>
    (lies token member).2 alone⟩

def retokenizingMatch : Match := ⟨⟨0, 3⟩, [some ⟨1, 2⟩]⟩

def retokenizingArrived : List Job.OpenGroup × Work retokenizing :=
  (do
    let groups ← Job.readGroup (retokenize 9) (lineText "<a>") true (retokenizingStack 1)
      retokenizingMatch [] (some 2, some ⟨0, 3⟩)
    Job.approach (retokenizingStack 1) 1 groups : Job retokenizing _).run retokenizingStart

theorem retokenizing_entered :
    ((Job.enter (retokenize 9) (lineText "<a>") true (retokenizingStack 1)
      retokenizingMatch retokenizingArrived.1 3 ⟨1, 2⟩).run retokenizingArrived.2).2.emitted =
        .plain [⟨1, 2, ["t", "i", "p"], 0⟩, ⟨0, 1, ["t", "o"], 0⟩] := by
  rw [retokenizingArrived, retokenizingStart, retokenizingStack, retokenizing_eq]
  cbv

theorem retokenizing_scopes :
    (retokenizingStack 1).contentScopes.names ++
      retokenizing.enclosingScopes (lineText "<a>") retokenizingMatch
        [(some 2, some ⟨0, 3⟩)] ⟨1, 2⟩ ++
          retokenizing.groupScopes (lineText "<a>") retokenizingMatch 3 = ["t", "o", "i"] := by
  rw [retokenizingStack, retokenizing_eq]
  cbv

theorem retokenizing_leaves :
    ((Text.Cursor.at? (lineText "<a>") 0).bind fun cursor =>
      Candidate.best? retokenizing ⟨cursor, true, none⟩ retokenizing.firstStack) =
        some ⟨.rule 1, retokenizingMatch⟩ ∧
    retokenizingMatch.Nested ∧
    ([some 2, some 3] : CaptureRules).zip
      (some retokenizingMatch.whole :: retokenizingMatch.groups) =
        [(some 2, some ⟨0, 3⟩)] ++ [(some 3, some ⟨1, 2⟩)] ∧
    ((Job.enter (retokenize 9) (lineText "<a>") true (retokenizingStack 1)
      retokenizingMatch retokenizingArrived.1 3 ⟨1, 2⟩).run retokenizingArrived.2).2.emitted =
        .plain [⟨1, 2, ["t", "i", "p"], 0⟩, ⟨0, 1, ["t", "o"], 0⟩] ∧
    ¬ (retokenizingStack 1).contentScopes.names ++
      retokenizing.enclosingScopes (lineText "<a>") retokenizingMatch
        [(some 2, some ⟨0, 3⟩)] ⟨1, 2⟩ ++
          retokenizing.groupScopes (lineText "<a>") retokenizingMatch 3 <+: ["t", "i", "p"] := by
  refine ⟨?_, ?_, rfl, retokenizing_entered, ?_⟩
  · rw [retokenizing_eq]
    cbv
  · exact Regex.Match.nested_of_group (by decide) (by decide) (by decide)
  · rw [retokenizing_scopes]
    decide

end Grammar

end Highlighter
