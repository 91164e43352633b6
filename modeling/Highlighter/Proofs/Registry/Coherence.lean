import Highlighter.Proofs.Grammar.Tables
import Highlighter.Registry

set_option autoImplicit false

namespace Highlighter

theorem GrammarDecl.isOk_validate_iff (decl : GrammarDecl) :
    decl.validate.isOk = true ↔ decl.validate = .ok () := by
  cases decl.validate <;> simp [Except.isOk, Except.toBool]

namespace Repository

theorem getD_withoutInjector (injectors : Table (List String)) (scope target : String) :
    ((withoutInjector injectors scope).get? target).getD [] =
      ((injectors.get? target).getD []).filter (· != scope) := by
  unfold withoutInjector
  rw [Table.get?_map]
  cases injectors.get? target <;> rfl

theorem getD_withInjectors (injectors : Table (List String)) (scope target : String)
    (targets : List String) :
    ((targets.foldl (fun injectors target => withInjector injectors scope target)
        injectors).get? target).getD [] =
      (injectors.get? target).getD [] ++ List.replicate (targets.count target) scope := by
  induction targets generalizing injectors with
  | nil => simp
  | cons other rest ih =>
    rw [List.foldl_cons, ih, withInjector, Table.get?_insert]
    by_cases same : target = other
    · subst same
      simp [List.replicate_succ]
    · simp [same, Ne.symm same]

def injectorsAmong (decls : List GrammarDecl) (target : String) : List String :=
  decls.flatMap fun decl => List.replicate (decl.injectsInto.count target) decl.scopeName

theorem injectorsAmong_without (decls : List GrammarDecl) (scope target : String) :
    injectorsAmong (decls.filter (·.scopeName != scope)) target =
      (injectorsAmong decls target).filter (· != scope) := by
  induction decls with
  | nil => rfl
  | cons decl rest ih =>
    simp only [injectorsAmong, List.flatMap_cons, List.filter_append, List.filter_cons,
      List.filter_replicate] at ih ⊢
    split <;> simp [ih]

theorem injectorsAmong_concat (decls : List GrammarDecl) (decl : GrammarDecl) (target : String) :
    injectorsAmong (decls ++ [decl]) target =
      injectorsAmong decls target ++
        List.replicate (decl.injectsInto.count target) decl.scopeName := by
  simp [injectorsAmong]

variable {repository next : Repository} {decl : GrammarDecl}

theorem add_eq_ok (added : repository.add decl = .ok next) :
    decl.validate = .ok () ∧
      next.grammars = repository.grammars.insert decl.scopeName decl ∧
      ∀ target, next.injectorsOf target =
        (repository.injectorsOf target).filter (· != decl.scopeName) ++
          List.replicate (decl.injectsInto.count target) decl.scopeName := by
  unfold add at added
  cases valid : decl.validate with
  | error error => simp [valid, Except.map] at added
  | ok _ =>
    simp only [valid, Except.map, Except.ok.injEq] at added
    subst added
    refine ⟨rfl, rfl, fun target => ?_⟩
    simp only [injectorsOf, getD_withInjectors, getD_withoutInjector]

theorem add_eq_error (error : DeclarationError) :
    repository.add decl = .error error ↔ decl.validate = .error error := by
  unfold add
  cases decl.validate <;> simp [Except.map]

end Repository

namespace Registry

inductive Operation where
  | add (decl : GrammarDecl)
  | configure (scope : String) (configuration : Configuration)
  | withTheme (theme : Option Theme)
  | use (scope : String)

def perform (registry : Registry) : Operation → Registry
  | .add decl =>
    match registry.add decl with
    | .ok next => next
    | .error _ => registry
  | .configure scope configuration => registry.configure scope configuration
  | .withTheme theme => registry.withTheme theme
  | .use scope =>
    match registry.grammar scope with
    | .grammar _ next => next
    | .unknown | .lost => registry

def after (operations : List Operation) : Registry := operations.foldl perform Registry.empty

namespace Operation

def accepted? : Operation → Option GrammarDecl
  | .add decl => if decl.validate.isOk then some decl else none
  | _ => none

def configuration? (scope : String) : Operation → Option Configuration
  | .configure other configuration => if scope = other then some configuration else none
  | _ => none

def theme? : Operation → Option (Option Theme)
  | .withTheme theme => some theme
  | _ => none

theorem accepted?_eq_some_iff {operation : Operation} {decl : GrammarDecl} :
    operation.accepted? = some decl ↔ operation = .add decl ∧ decl.validate = .ok () := by
  cases operation with
  | add other =>
    simp only [accepted?, Option.ite_none_right_eq_some, other.isOk_validate_iff,
      Option.some.injEq, add.injEq]
    constructor
    · rintro ⟨valid, rfl⟩
      exact ⟨rfl, valid⟩
    · rintro ⟨rfl, valid⟩
      exact ⟨valid, rfl⟩
  | configure _ _ | withTheme _ | use _ => simp [accepted?]

end Operation

def lastAccepted? (operations : List Operation) (scope : String) : Option GrammarDecl :=
  operations.reverse.findSome? fun operation => operation.accepted?.filter (·.scopeName = scope)

def lastConfiguration? (operations : List Operation) (scope : String) : Option Configuration :=
  operations.reverse.findSome? (·.configuration? scope)

def lastTheme (operations : List Operation) : Option Theme :=
  (operations.reverse.findSome? (·.theme?)).join

-- The accepted grammars without those that others of their scope have come after.
def standing (operations : List Operation) : List GrammarDecl :=
  operations.foldl (fun decls operation =>
    match operation.accepted? with
    | some decl => decls.filter (·.scopeName != decl.scopeName) ++ [decl]
    | none => decls) []

theorem lastAccepted?_concat (operations : List Operation) (operation : Operation)
    (scope : String) :
    lastAccepted? (operations ++ [operation]) scope =
      (operation.accepted?.filter (·.scopeName = scope) <|> lastAccepted? operations scope) := by
  simp only [lastAccepted?, List.reverse_concat, List.findSome?_cons]
  cases operation.accepted?.filter (·.scopeName = scope) <;> rfl

theorem lastConfiguration?_concat (operations : List Operation) (operation : Operation)
    (scope : String) :
    lastConfiguration? (operations ++ [operation]) scope =
      (operation.configuration? scope <|> lastConfiguration? operations scope) := by
  simp only [lastConfiguration?, List.reverse_concat, List.findSome?_cons]
  cases operation.configuration? scope <;> rfl

theorem lastTheme_concat (operations : List Operation) (operation : Operation) :
    lastTheme (operations ++ [operation]) = operation.theme?.getD (lastTheme operations) := by
  simp only [lastTheme, List.reverse_concat, List.findSome?_cons]
  cases operation.theme? <;> rfl

theorem standing_concat (operations : List Operation) (operation : Operation) :
    standing (operations ++ [operation]) =
      match operation.accepted? with
      | some decl => (standing operations).filter (·.scopeName != decl.scopeName) ++ [decl]
      | none => standing operations := by
  simp only [standing, List.foldl_append, List.foldl_cons, List.foldl_nil]

/-- What a registry holds is what has been done to it, and the grammars that it keeps compiled are
those that compiling now would give. -/
structure Coherent (operations : List Operation) (registry : Registry) : Prop where
  grammars : ∀ scope, registry.repository.grammars.get? scope = lastAccepted? operations scope
  injectors : ∀ target, registry.repository.injectorsOf target =
    Repository.injectorsAmong (standing operations) target
  configurations : ∀ scope,
    registry.configurations.get? scope = lastConfiguration? operations scope
  theme : registry.theme = lastTheme operations
  compiled : ∀ scope grammar, registry.compiled.get? scope = some grammar →
    ∃ decl, registry.repository.grammars.get? scope = some decl ∧
      registry.compile? scope decl = some grammar

namespace Coherent

variable {operations : List Operation} {registry : Registry}

theorem empty : Coherent [] Registry.empty where
  grammars := fun _ => rfl
  injectors := fun _ => rfl
  configurations := fun _ => rfl
  theme := rfl
  compiled := fun _ _ => nofun

theorem concat (coherent : Coherent operations registry) (operation : Operation) {next : Registry}
    (grammars : ∀ scope, next.repository.grammars.get? scope =
      (operation.accepted?.filter (·.scopeName = scope) <|>
        registry.repository.grammars.get? scope))
    (injectors : ∀ target, next.repository.injectorsOf target =
      operation.accepted?.elim (registry.repository.injectorsOf target) fun decl =>
        (registry.repository.injectorsOf target).filter (· != decl.scopeName) ++
          List.replicate (decl.injectsInto.count target) decl.scopeName)
    (configurations : ∀ scope, next.configurations.get? scope =
      (operation.configuration? scope <|> registry.configurations.get? scope))
    (theme : next.theme = operation.theme?.getD registry.theme)
    (compiled : ∀ scope grammar, next.compiled.get? scope = some grammar →
      ∃ decl, next.repository.grammars.get? scope = some decl ∧
        next.compile? scope decl = some grammar) :
    Coherent (operations ++ [operation]) next where
  grammars := fun scope => by rw [grammars, coherent.grammars, lastAccepted?_concat]
  injectors := fun target => by
    rw [injectors, coherent.injectors, standing_concat]
    cases operation.accepted? with
    | none => rfl
    | some decl =>
      simp only [Option.elim_some]
      rw [Repository.injectorsAmong_concat, Repository.injectorsAmong_without]
  configurations := fun scope => by
    rw [configurations, coherent.configurations, lastConfiguration?_concat]
  theme := by rw [theme, coherent.theme, lastTheme_concat]
  compiled := compiled

theorem add (coherent : Coherent operations registry) (decl : GrammarDecl) :
    Coherent (operations ++ [.add decl]) (registry.perform (.add decl)) := by
  simp only [perform, Registry.add]
  cases added : registry.repository.add decl with
  | error error =>
    have rejected : (Operation.add decl).accepted? = none := by
      simp [Operation.accepted?, (Repository.add_eq_error error).mp added, Except.isOk,
        Except.toBool]
    exact coherent.concat (.add decl) (fun _ => by rw [rejected]; rfl)
      (fun _ => by rw [rejected]; rfl) (fun _ => rfl) rfl coherent.compiled
  | ok repository =>
    obtain ⟨valid, grammars, injectors⟩ := Repository.add_eq_ok added
    have accepted := Operation.accepted?_eq_some_iff.mpr ⟨rfl, valid⟩
    refine coherent.concat (.add decl) (fun scope => ?_) (fun target => ?_) (fun _ => rfl) rfl
      fun _ _ => nofun
    · change repository.grammars.get? scope = _
      rw [accepted, grammars, Table.get?_insert]
      by_cases same : scope = decl.scopeName
      · simp [Option.filter, same]
      · simp [Option.filter, same, Ne.symm same]
    · rw [accepted]
      exact injectors target

theorem configure (coherent : Coherent operations registry) (scope : String)
    (configuration : Configuration) :
    Coherent (operations ++ [.configure scope configuration])
      (registry.configure scope configuration) := by
  refine coherent.concat (.configure scope configuration) (fun _ => rfl) (fun _ => rfl)
    (fun other => ?_) rfl fun other grammar kept => ?_
  · rw [Registry.configure, Table.get?_insert]
    simp only [Operation.configuration?]
    split <;> rfl
  · rw [Registry.configure, Table.get?_erase] at kept
    split at kept
    · exact nomatch kept
    · rename_i different
      obtain ⟨decl, known, same⟩ := coherent.compiled other grammar kept
      refine ⟨decl, known, Eq.trans ?_ same⟩
      simp only [Registry.compile?, Registry.configure, Table.get?_insert, if_neg different]

theorem withTheme (coherent : Coherent operations registry) (theme : Option Theme) :
    Coherent (operations ++ [.withTheme theme]) (registry.withTheme theme) := by
  refine coherent.concat (.withTheme theme) (fun _ => rfl) (fun _ => rfl) (fun _ => rfl) rfl
    fun scope grammar kept => ?_
  have restyled := (Table.get?_map registry.compiled (·.withTheme theme) scope).symm.trans kept
  obtain ⟨before, here, rfl⟩ := Option.map_eq_some_iff.mp restyled
  obtain ⟨decl, known, same⟩ := coherent.compiled scope before here
  obtain ⟨grammar, compiled, rfl⟩ := Option.map_eq_some_iff.mp same
  exact ⟨decl, known, Option.map_eq_some_iff.mpr ⟨grammar, compiled, rfl⟩⟩

theorem grammar_eq (coherent : Coherent operations registry) (scope : String) :
    match registry.repository.grammars.get? scope with
    | none => registry.grammar scope = .unknown
    | some decl =>
      match registry.compile? scope decl with
      | none => registry.grammar scope = .lost
      | some grammar => ∃ next, registry.grammar scope = .grammar grammar next := by
  unfold grammar
  cases kept : registry.compiled.get? scope with
  | some grammar =>
    obtain ⟨decl, known, same⟩ := coherent.compiled scope grammar kept
    simp [known, same]
  | none =>
    cases known : registry.repository.grammars.get? scope with
    | none => rfl
    | some decl =>
      simp only
      cases registry.compile? scope decl with
      | none => rfl
      | some grammar => exact ⟨_, rfl⟩

theorem use (coherent : Coherent operations registry) (scope : String) :
    Coherent (operations ++ [.use scope]) (registry.perform (.use scope)) := by
  have unchanged : Coherent (operations ++ [.use scope]) registry :=
    coherent.concat (.use scope) (fun _ => rfl) (fun _ => rfl) (fun _ => rfl) rfl coherent.compiled
  simp only [perform, grammar]
  cases registry.compiled.get? scope with
  | some grammar => exact unchanged
  | none =>
    cases known : registry.repository.grammars.get? scope with
    | none => exact unchanged
    | some decl =>
      cases compiles : registry.compile? scope decl with
      | none => simpa only [compiles] using unchanged
      | some grammar =>
        simp only [compiles]
        refine { unchanged with compiled := fun other found kept => ?_ }
        change (registry.compiled.insert scope grammar).get? other = _ at kept
        rw [Table.get?_insert] at kept
        split at kept
        · rename_i same
          obtain rfl := Option.some.inj kept
          subst same
          exact ⟨decl, known, compiles⟩
        · exact coherent.compiled other found kept

theorem perform (coherent : Coherent operations registry) (operation : Operation) :
    Coherent (operations ++ [operation]) (registry.perform operation) := by
  cases operation with
  | add decl => exact coherent.add decl
  | configure scope configuration => exact coherent.configure scope configuration
  | withTheme theme => exact coherent.withTheme theme
  | use scope => exact coherent.use scope

end Coherent

theorem after_coherent (operations : List Operation) :
    Coherent operations (after operations) := by
  induction operations using List.reverseRecOn with
  | nil => exact .empty
  | append_singleton operations operation ih =>
    rw [after, List.foldl_append]
    exact ih.perform operation

theorem of_lastAccepted? {operations : List Operation} {scope : String} {decl : GrammarDecl}
    (accepted : lastAccepted? operations scope = some decl) :
    .add decl ∈ operations ∧ decl.scopeName = scope ∧ decl.validate = .ok () := by
  obtain ⟨operation, member, found⟩ := List.exists_of_findSome?_eq_some accepted
  obtain ⟨taken, own⟩ := Option.filter_eq_some_iff.mp found
  obtain ⟨rfl, valid⟩ := Operation.accepted?_eq_some_iff.mp taken
  exact ⟨List.mem_reverse.mp member, of_decide_eq_true own, valid⟩

theorem validate_of_lastAccepted? {operations : List Operation} {scope : String}
    {decl : GrammarDecl} (accepted : lastAccepted? operations scope = some decl) :
    decl.validate = .ok () :=
  (of_lastAccepted? accepted).2.2

def fresh? (operations : List Operation) (scope : String) (decl : GrammarDecl) : Option Grammar :=
  (Grammar.compile? ⟨decl, (after operations).repository⟩
    ((lastConfiguration? operations scope).getD Configuration.default)).map
      (·.withTheme (lastTheme operations))

/-- A registry knows the scopes that a grammar has been accepted for. It gives what compiling the
last of them afresh gives, with what is set now and among the grammars that are registered now, where
that gives something: unless there is no room for some table, or references run in a circle. All
accepted grammars are valid. A declaration is rejected when it is not valid, and that changes
nothing. -/
theorem grammar_afresh (operations : List Operation) :
    let registry := after operations
    (∀ scope, registry.grammar scope = .unknown ↔ lastAccepted? operations scope = none) ∧
    (∀ scope decl, lastAccepted? operations scope = some decl →
      (∀ grammar, (∃ next, registry.grammar scope = .grammar grammar next) ↔
        fresh? operations scope decl = some grammar) ∧
      (registry.grammar scope = .lost ↔ fresh? operations scope decl = none) ∧
      let library : Library := ⟨decl, registry.repository⟩
      (library.Roomy → library.Straight → ∃ grammar next,
        registry.grammar scope = .grammar grammar next)) ∧
    (∀ scope, registry.repository.grammars.get? scope = lastAccepted? operations scope) ∧
    (∀ target, registry.repository.injectorsOf target =
      Repository.injectorsAmong (standing operations) target) ∧
    (∀ scope decl, lastAccepted? operations scope = some decl → decl.validate = .ok ()) ∧
    (∀ decl error, registry.add decl = .error error ↔ decl.validate = .error error) ∧
    ∀ decl error, registry.add decl = .error error →
      after (operations ++ [.add decl]) = registry := by
  have coherent := after_coherent operations
  have compiles (scope : String) (decl : GrammarDecl) :
      (after operations).compile? scope decl = fresh? operations scope decl := by
    rw [compile?, fresh?, coherent.configurations, coherent.theme]
  have supplies (scope : String) := coherent.grammar_eq scope
  simp only [coherent.grammars, compiles] at supplies
  refine ⟨fun scope => ?unknown, fun scope decl accepted => ?given, coherent.grammars,
    coherent.injectors, fun _ _ => validate_of_lastAccepted?, fun decl error => ?rejects,
    fun decl error rejected => ?unchanged⟩
  case unknown =>
    have supply := supplies scope
    cases accepted : lastAccepted? operations scope with
    | none => simpa [accepted] using supply
    | some decl =>
      cases fresh : fresh? operations scope decl with
      | none => simp_all
      | some grammar =>
        obtain ⟨next, given⟩ : ∃ next, (after operations).grammar scope = .grammar grammar next := by
          simpa [accepted, fresh] using supply
        simp [given]
  case given =>
    have supply := supplies scope
    cases fresh : fresh? operations scope decl with
    | none =>
      have lost : (after operations).grammar scope = .lost := by simpa [accepted, fresh] using supply
      refine ⟨fun grammar => by simp [lost], by simp [lost], fun roomy straight => ?_⟩
      have compiled := RuleGraph.compile?_of_roomy roomy straight
      rw [fresh?, Grammar.compile?, compiled] at fresh
      exact nomatch fresh
    | some grammar =>
      obtain ⟨next, given⟩ : ∃ next, (after operations).grammar scope = .grammar grammar next := by
        simpa [accepted, fresh] using supply
      exact ⟨fun other => by simp [given], by simp [given], fun _ _ => ⟨grammar, next, given⟩⟩
  case rejects =>
    have refused : (after operations).repository.add decl = .error error ↔
        decl.validate = .error error := Repository.add_eq_error error
    rw [← refused, Registry.add]
    cases (after operations).repository.add decl <;> simp [Except.map]
  case unchanged =>
    rw [after, List.foldl_append]
    change (after operations).perform (.add decl) = after operations
    simp only [Registry.perform, rejected]

def declaration (scope name : Option String) (injectsInto : List String) : GrammarDecl :=
  ⟨scope, name, [], [], [], none, injectsInto, [], none⟩

-- The grammar of a scope is in use when another one takes its place, which injects elsewhere.
def replacing : List Operation :=
  [.add (declaration (some "a") none ["b"]), .use "a", .configure "a" ⟨⟨1, []⟩, []⟩,
    .add (declaration (some "a") (some "new") ["c"]), .add (declaration none none [])]

theorem roomy_of_bare {library : Library} {scope name : Option String} {injectsInto : List String}
    (bare : ∀ decl ∈ library.decls, decl = declaration scope name injectsInto) : library.Roomy := by
  have none {rule : RuleDecl} (declared : library.Declares rule) : False := by
    induction declared with
    | pattern stored listed | entry stored listed | injection stored listed =>
      obtain rfl := bare _ stored
      exact nomatch listed
    | nested _ _ ih | inner _ _ ih | group _ _ _ ih => exact ih
  exact fun _ _ _ declared => (none declared).elim

theorem grammar_afresh_replacing :
    let decl := declaration (some "a") (some "new") ["c"]
    lastAccepted? replacing "a" = some decl ∧ decl.validate = .ok () ∧
      (∃ grammar next, (after replacing).grammar "a" = .grammar grammar next ∧
        (Grammar.compile? ⟨decl, (after replacing).repository⟩ ⟨⟨1, []⟩, []⟩).map (·.withTheme none) =
          some grammar) ∧
      (after replacing).repository.injectorsOf "b" = [] ∧
      (after replacing).repository.injectorsOf "c" = ["a"] ∧
      (after replacing).add (declaration none none []) = .error .missingScopeName ∧
      after (replacing ++ [.add (declaration none none [])]) = after replacing := by
  intro decl
  obtain ⟨_, given, _, injectors, valid, rejects, unchanged⟩ := grammar_afresh replacing
  have last : lastAccepted? replacing "a" = some decl := by cbv
  have nameless := (rejects (declaration none none []) .missingScopeName).mpr rfl
  refine ⟨last, valid "a" _ last, ?_, (injectors "b").trans (by cbv),
    (injectors "c").trans (by cbv), nameless, unchanged _ _ nameless⟩
  have configured : lastConfiguration? replacing "a" = some ⟨⟨1, []⟩, []⟩ := by cbv
  have unstyled : lastTheme replacing = none := by cbv
  obtain ⟨afresh, -, supplied⟩ := given "a" decl last
  have stored : Library.decls ⟨decl, (after replacing).repository⟩ = [decl, decl] := by cbv
  have same (other : GrammarDecl)
      (member : other ∈ Library.decls ⟨decl, (after replacing).repository⟩) : other = decl := by
    rw [stored] at member
    simpa using member
  obtain ⟨grammar, next, here⟩ := supplied (roomy_of_bare same) (by unfold Library.Straight; cbv)
  refine ⟨grammar, next, here, ?_⟩
  have fresh := (afresh grammar).mp ⟨next, here⟩
  rwa [fresh?, configured, unstyled] at fresh

open Library (grouped)

theorem grouped_not_given :
    let operations : List Operation := [.add (grouped ["18446744073709551615"]).base]
    ¬ ∀ decl, lastAccepted? operations "t" = some decl →
      ∃ grammar next, (after operations).grammar "t" = .grammar grammar next := by
  intro operations given
  obtain ⟨grammar, next, here⟩ := given _ (by cbv)
  have lost : (after operations).grammar "t" = .lost := by cbv
  cases here.symm.trans lost

end Registry

end Highlighter
