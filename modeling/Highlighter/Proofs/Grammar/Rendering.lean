import Highlighter.Grammar.Compilation
import Highlighter.Proofs.Grammar.Lexical

set_option autoImplicit false

namespace Highlighter

abbrev Numbering := Site → Option (Option RuleId)

def Place.isGroup (place : Place) : Bool :=
  match place.steps with
  | .capture _ _ :: _ => true
  | _ => false

theorem Library.Means.isGroup {library : Library} {place other : Place}
    (means : library.Means place (.rule other)) (plain : place.isGroup = false) :
    other.isGroup = false := by
  obtain ⟨trail, leads⟩ := means
  generalize arrived : Site.rule other = site at leads
  induction leads with
  | arrive turn =>
    subst arrived
    exact eq_of_turn? turn ▸ plain
  | go turn _ ih =>
    refine ih ?_ arrived
    rcases next_of_turn? turn with ⟨_, _, _, rfl⟩ | ⟨_, _, rfl⟩ <;> rfl

def Library.Answers (library : Library) (number : Numbering) (place : Place)
    (found : Option RuleId) : Prop :=
  (∃ site, library.Means place site ∧ number site = some found) ∨
    found = none ∧ ∀ site, ¬ library.Means place site

def Library.Lists (library : Library) (number : Numbering) (items : List (Place × RuleDecl))
    (nested : List RuleId) : Prop :=
  ∃ founds, List.Forall₂ (fun item found => library.Answers number item.1 found) items founds ∧
    nested = founds.flatMap Option.toList

namespace Numbering

variable (number : Numbering) (place : Place)

def Groups (field : CaptureField) (declared : Option (List (String × RuleDecl)))
    (captures : CaptureRules) : Prop :=
  ∃ ids, List.Forall₂ (fun group found => found.1 = group.1 ∧
      number (.rule (place.into (.capture field group.2.1))) = some (some found.2))
    (Compile.groups (declared.getD [])) ids ∧
      captures = Compile.spread ((Compile.tableLength? (declared.getD [])).getD 0) ids

def GroupsOr (rule : RuleDecl) (field : CaptureField) (captures : CaptureRules) : Prop :=
  match rule.captured field with
  | some _ => number.Groups place field (rule.captured field) captures
  | none => number.Groups place .all rule.captures captures

inductive HasKind (rule : RuleDecl) (nested : List RuleId) : RulePatterns → RuleKind → Prop where
  | matching {pattern : Pattern} {captures : CaptureRules}
      (groups : number.Groups place .all rule.captures captures) :
      HasKind rule nested (.matching pattern) (.matching pattern captures)
  | spanning {opening closing : Pattern} {before after : CaptureRules}
      (first : number.GroupsOr place rule .opening before)
      (last : number.GroupsOr place rule .closing after) :
      HasKind rule nested (.spanning opening closing)
        (.spanning opening before closing after rule.closingLast nested)
  | continuing {opening condition : Pattern} {before during : CaptureRules}
      (first : number.GroupsOr place rule .opening before)
      (next : number.GroupsOr place rule .continuing during) :
      HasKind rule nested (.continuing opening condition)
        (.continuing opening before condition during nested)
  | absent : HasKind rule nested .absent (.holding nested)

end Numbering

namespace Library

variable (library : Library) (number : Numbering) (filled : RuleId → Option Rule)

inductive Renders : Site → Rule → Prop where
  | whole {scope : String} {grammar : GrammarDecl} {nested : List RuleId} {id : RuleId}
      (stored : library.grammar? scope = some grammar)
      (lists : library.Lists number
        (Compile.numberedPlaces (Surroundings.root grammar) grammar.patterns) nested) :
      Renders (.whole scope) (Rule.held id nested)
  | rule {place : Place} {decl : RuleDecl} {patterns : RulePatterns} {nested : List RuleId}
      {kind : RuleKind} {id : RuleId} (declared : library.rule? place = some decl)
      (plain : place.isGroup = false)
      (formed : RulePatterns.ofDecl? decl = some patterns)
      (lists : library.Lists number (Compile.numberedPlaces place (decl.nested.getD [])) nested)
      (hasKind : number.HasKind place decl nested patterns kind) :
      Renders (.rule place) (Compile.templates decl kind id)
  | bareGroup {place : Place} {decl : RuleDecl} {id : RuleId}
      (declared : library.rule? place = some decl) (group : place.isGroup = true)
      (bare : (decl.nested.getD []).isEmpty) :
      Renders (.rule place) (Compile.templates decl (.capturing none) id)
  -- The rules to read a group's text by are held by a rule of their own.
  | group {place : Place} {decl : RuleDecl} {holder id : RuleId} {nested : List RuleId}
      (declared : library.rule? place = some decl) (group : place.isGroup = true)
      (nonempty : ¬ (decl.nested.getD []).isEmpty)
      (held : filled holder = some (Rule.held holder nested))
      (lists : library.Lists number (Compile.numberedPlaces place (decl.nested.getD [])) nested) :
      Renders (.rule place) (Compile.templates decl (.capturing (some holder)) id)

theorem Answers.of_means {library : Library} {number : Numbering} {place : Place} {site : Site}
    {found : Option RuleId} (answers : library.Answers number place found)
    (means : library.Means place site) : number site = some found := by
  rcases answers with ⟨other, also, here⟩ | ⟨-, none⟩
  · rwa [means.unique also]
  · exact absurd means (none site)

theorem Lists.answers {library : Library} {number : Numbering} {items : List (Place × RuleDecl)}
    {nested : List RuleId} (lists : library.Lists number items nested)
    (full : nested.length = items.length) :
    List.Forall₂ (fun item id => library.Answers number item.1 (some id)) items nested := by
  obtain ⟨founds, all, rfl⟩ := lists
  have shorter (founds : List (Option RuleId)) :
      (founds.flatMap Option.toList).length ≤ founds.length := by
    induction founds with
    | nil => exact le_rfl
    | cons found founds ih =>
      rw [List.flatMap_cons, List.length_append, List.length_cons, Nat.add_comm]
      exact Nat.add_le_add ih Option.length_toList_le
  induction all with
  | nil => exact .nil
  | cons answers rest ih =>
    rename_i found _ founds
    have tail := shorter founds
    rw [List.flatMap_cons, List.length_append, List.length_cons, rest.length_eq] at full
    cases found with
    | none =>
      simp only [Option.toList_none, List.length_nil] at full
      omega
    | some id =>
      refine .cons answers (ih ?_)
      rw [rest.length_eq]
      simp only [Option.toList_some, List.length_singleton] at full
      omega

namespace Renders

variable {library number filled}

theorem name {place : Place} {rule : Rule} (renders : library.Renders number filled (.rule place) rule) :
    ∃ decl, library.rule? place = some decl ∧ rule.name = decl.name.map Template.ofName := by
  cases renders <;> exact ⟨_, by assumption, rfl⟩

theorem nested {place : Place} {rule : Rule} (renders : library.Renders number filled (.rule place) rule)
    (nonempty : rule.nested ≠ []) :
    ∃ decl, library.rule? place = some decl ∧
      library.Lists number (Compile.numberedPlaces place (decl.nested.getD [])) rule.nested := by
  cases renders with
  | rule declared plain formed lists hasKind =>
    cases hasKind with
    | matching => exact absurd rfl nonempty
    | spanning | continuing | absent => exact ⟨_, declared, lists⟩
  | bareGroup | group => exact absurd rfl nonempty

theorem nested_whole {scope : String} {rule : Rule}
    (renders : library.Renders number filled (.whole scope) rule) :
    ∃ grammar, library.grammar? scope = some grammar ∧ library.Lists number
      (Compile.numberedPlaces (Surroundings.root grammar) grammar.patterns) rule.nested := by
  cases renders with
  | whole stored lists => exact ⟨_, stored, lists⟩

end Renders

def Settled (site : Site) : Option RuleId → Prop
  | some id => ∃ rule, filled id = some rule ∧ library.Renders number filled site rule
  | none => ∃ place decl, site = .rule place ∧ library.rule? place = some decl ∧
      place.isGroup = false ∧ RulePatterns.ofDecl? decl = none

def InjectsOwn (injection : String × RuleDecl) (found : List Injection) : Prop :=
  ∃ id, library.Answers number ((Surroundings.root library.base).into (.injection injection.1)) id ∧
    found = id.elim [] (Compile.injectionsOf injection.1)

def InjectsForeign (scope : String) (found : List Injection) : Prop :=
  match (library.grammar? scope).bind (·.injectionSelector) with
  | none => found = []
  | some selector => ∃ id, number (.whole scope) = some (some id) ∧
      found = Compile.injectionsOf selector id

end Library

/-- The compiled rules refer to one another as the declared ones do, by what is written around
them. -/
structure RuleGraph.IsLexical (graph : RuleGraph) (library : Library) (number : Numbering) : Prop where
  root : number (.whole library.base.scopeName) = some (some graph.root)
  distinct : ∀ site other id, number site = some (some id) → number other = some (some id) →
    site = other
  settled : ∀ site found, number site = some found → library.Settled number graph.rule? site found
  injections : ∃ own foreign,
    List.Forall₂ (library.InjectsOwn number) library.base.injections own ∧
      List.Forall₂ (library.InjectsForeign number) library.injectors foreign ∧
        graph.injections = Compile.byPriority (own.flatten ++ foreign.flatten)

section

variable {library : Library} {number more : Numbering} {filled fuller : RuleId → Option Rule}
  (numbers : ∀ site found, number site = some found → more site = some found)

include numbers

theorem Library.Answers.mono {place : Place} {found : Option RuleId}
    (answers : library.Answers number place found) : library.Answers more place found :=
  answers.imp_left fun ⟨site, means, here⟩ => ⟨site, means, numbers site found here⟩

theorem Library.Lists.mono {items : List (Place × RuleDecl)} {nested : List RuleId}
    (lists : library.Lists number items nested) : library.Lists more items nested :=
  let ⟨founds, each, same⟩ := lists
  ⟨founds, each.imp fun _ _ answers => answers.mono numbers, same⟩

theorem Library.InjectsOwn.mono {injection : String × RuleDecl} {found : List Injection}
    (injects : library.InjectsOwn number injection found) : library.InjectsOwn more injection found :=
  injects.imp fun _ ⟨answers, same⟩ => ⟨answers.mono numbers, same⟩

theorem Library.InjectsForeign.mono {scope : String} {found : List Injection}
    (injects : library.InjectsForeign number scope found) :
    library.InjectsForeign more scope found := by
  unfold InjectsForeign at injects ⊢
  split at injects
  · exact injects
  · exact injects.imp fun _ ⟨here, same⟩ => ⟨numbers _ _ here, same⟩

namespace Numbering

variable {place : Place} {rule : RuleDecl} {field : CaptureField} {captures : CaptureRules}

theorem Groups.mono {declared : Option (List (String × RuleDecl))}
    (groups : number.Groups place field declared captures) :
    Groups more place field declared captures :=
  let ⟨ids, each, same⟩ := groups
  ⟨ids, each.imp fun _ _ found => ⟨found.1, numbers _ _ found.2⟩, same⟩

theorem GroupsOr.mono (groups : number.GroupsOr place rule field captures) :
    GroupsOr more place rule field captures := by
  unfold GroupsOr at groups ⊢
  split at groups <;> exact groups.mono numbers

theorem HasKind.mono {nested : List RuleId} {patterns : RulePatterns} {kind : RuleKind}
    (hasKind : number.HasKind place rule nested patterns kind) :
    HasKind more place rule nested patterns kind := by
  cases hasKind with
  | matching groups => exact .matching (groups.mono numbers)
  | spanning first last => exact .spanning (first.mono numbers) (last.mono numbers)
  | continuing first next => exact .continuing (first.mono numbers) (next.mono numbers)
  | absent => exact .absent

end Numbering

variable (rules : ∀ id rule, filled id = some rule → fuller id = some rule)

include rules

namespace Library

theorem Renders.mono {site : Site} {rule : Rule}
    (renders : library.Renders number filled site rule) :
    library.Renders more fuller site rule := by
  cases renders with
  | whole stored lists => exact .whole stored (lists.mono numbers)
  | rule declared plain formed lists hasKind =>
    exact .rule declared plain formed (lists.mono numbers) (hasKind.mono numbers)
  | bareGroup declared group bare => exact .bareGroup declared group bare
  | group declared group nonempty held lists =>
    exact .group declared group nonempty (rules _ _ held) (lists.mono numbers)

theorem Settled.mono {site : Site} {found : Option RuleId}
    (settled : library.Settled number filled site found) : library.Settled more fuller site found := by
  cases found with
  | none => exact settled
  | some id =>
    obtain ⟨rule, here, renders⟩ := settled
    exact ⟨rule, rules id rule here, renders.mono numbers rules⟩

end Library

end

end Highlighter
