import Highlighter.Grammar.Reference
import Highlighter.Grammar.Rule
import Highlighter.Selector.Parser

set_option autoImplicit false

namespace Highlighter

inductive RulePatterns where
  | matching (pattern : Pattern)
  | spanning (opening closing : Pattern)
  | continuing (opening condition : Pattern)
  | absent

namespace RulePatterns

def ofDecl? (rule : RuleDecl) : Option RulePatterns :=
  match rule.pattern, rule.opening with
  | some pattern, _ => (Pattern.ofSource? pattern).map .matching
  | none, none => some .absent
  | none, some opening =>
    match Pattern.ofSource? opening with
    | none => none
    | some opening =>
      match rule.closing, rule.continuing with
      | some closing, _ => (Pattern.ofSource? closing).map (.spanning opening ·)
      | none, some condition => (Pattern.ofSource? condition).map (.continuing opening ·)
      | none, none => some .absent

end RulePatterns

/-- A table in the making: numbers are handed out before their rules are known. `numbered` holds the
rules reached so far by their places, `wholes` the grammars by their scopes. -/
structure Draft where
  rules : Array (Option Rule)
  numbered : List (Place × Option RuleId)
  wholes : List (String × RuleId)
  -- Whether a table of groups had no room, and whether references led round in a circle. Either way
  -- there is no result.
  gaveUp : Bool
  wentRound : Bool

def Draft.empty : Draft := ⟨#[], [], [], false, false⟩

abbrev Compile := StateM Draft

namespace Compile

def reserve : Compile RuleId :=
  modifyGet fun draft => (draft.rules.size, { draft with rules := draft.rules.push none })

def fill (id : RuleId) (rule : RuleId → Rule) : Compile Unit :=
  modify fun draft => { draft with rules := draft.rules.setIfInBounds id (some (rule id)) }

def numbered? (place : Place) : Compile (Option (Option RuleId)) :=
  return (← get).numbered.lookup place

def record (place : Place) (id : Option RuleId) : Compile Unit :=
  modify fun draft => { draft with numbered := (place, id) :: draft.numbered }

-- The number of a grammar's own rule, handed out if it has none, and whether it had one.
def whole (scope : String) : Compile (RuleId × Bool) := do
  match (← get).wholes.lookup scope with
  | some id => return (id, true)
  | none =>
    let id ← reserve
    modify fun draft => { draft with wholes := (scope, id) :: draft.wholes }
    return (id, false)

def each {α : Type} (compile : α → Compile (Option RuleId)) : List α → Compile (List RuleId)
  | [] => return []
  | item :: rest => do
    let id ← compile item
    return id.toList ++ (← each compile rest)

def templates (rule : RuleDecl) (kind : RuleKind) (id : RuleId) : Rule :=
  ⟨id, rule.name.map Template.ofName, rule.contentName.map Template.ofName, kind⟩

def goRound : Compile Unit := modify fun draft => { draft with wentRound := true }

def entry (library : Library) (grammar : GrammarDecl → Compile RuleId)
    (rule : Place → RuleDecl → Surroundings → Compile (Option RuleId))
    (around : Surroundings) (place : Place) (decl : RuleDecl) : Compile (Option RuleId) :=
  match decl.reference with
  | none => rule place decl around
  | some reference =>
    match library.lead around reference with
    | .nowhere => return none
    | .round => do
      goRound
      return none
    | .towards (.grammar found) => return some (← grammar found)
    | .towards (.rule place decl around) => rule place decl around

def indexed (captures : List (String × RuleDecl)) : List (Nat × String × RuleDecl) :=
  let found := captures.filterMap fun (key, rule) =>
    (Text.readIndex? key.toList).map fun n => (n, key, rule)
  found.mergeSort fun a b => a.1 ≤ b.1

-- The most entries of eight bytes that fit into half of the address space.
def tableRoom : Nat := 0xFFFFFFFFFFFFFFF

def tableLength? (captures : List (String × RuleDecl)) : Option Nat :=
  match (indexed captures).getLast? with
  | none => some 0
  | some (n, _) => (Text.nextIndex? n).filter fun length => length ≤ tableRoom

def groups (captures : List (String × RuleDecl)) : List (Nat × String × RuleDecl) :=
  if (tableLength? captures).isSome then indexed captures else []

def lay (captures : List (String × RuleDecl)) : Compile Unit :=
  modify fun draft => { draft with gaveUp := draft.gaveUp || (tableLength? captures).isNone }

-- A list with the rule of each group at the group's number. Of two groups of one number the later
-- one counts.
def spread (length : Nat) (ids : List (Nat × RuleId)) : CaptureRules :=
  ids.foldl (fun rules (n, id) => rules.set n (some id)) (List.replicate length none)

def captures (capture : Place → RuleDecl → Compile RuleId) (place : Place) (field : CaptureField)
    (declared : Option (List (String × RuleDecl))) : Compile CaptureRules := do
  lay (declared.getD [])
  let ids ← (groups (declared.getD [])).mapM fun (n, key, rule) => do
    return (n, ← capture (place.into (.capture field key)) rule)
  return spread ((tableLength? (declared.getD [])).getD 0) ids

def capturesOr (capture : Place → RuleDecl → Compile RuleId) (place : Place) (rule : RuleDecl)
    (field : CaptureField) (declared : Option (List (String × RuleDecl))) :
    Compile CaptureRules :=
  match declared with
  | some _ => captures capture place field declared
  | none => captures capture place .all rule.captures

def kindOf (capture : Place → RuleDecl → Compile RuleId) (place : Place) (rule : RuleDecl)
    (nested : List RuleId) : RulePatterns → Compile RuleKind
  | .matching pattern => do
    return .matching pattern (← captures capture place .all rule.captures)
  | .spanning opening closing => do
    let before ← capturesOr capture place rule .opening rule.openingCaptures
    let after ← capturesOr capture place rule .closing rule.closingCaptures
    return .spanning opening before closing after rule.closingLast nested
  | .continuing opening condition => do
    let before ← capturesOr capture place rule .opening rule.openingCaptures
    let during ← capturesOr capture place rule .continuing rule.continuingCaptures
    return .continuing opening before condition during nested
  | .absent => return .holding nested

def numberedPlaces (place : Place) (rules : List RuleDecl) : List (Place × RuleDecl) :=
  rules.zipIdx.map fun (rule, index) => (place.into (.pattern index), rule)

mutual

-- `fuel` bounds the rules and grammars inside one another, each of which is entered once.
def grammar (library : Library) : Nat → GrammarDecl → Compile RuleId
  | 0, _ => reserve
  | fuel + 1, decl => do
    let (id, known) ← whole decl.scopeName
    if known then return id
    else
      let around := Surroundings.ofGrammar decl
      let one := entry library (grammar library fuel) (rule library fuel) around
      let nested ← each (fun (place, decl) => one place decl)
        (numberedPlaces (Surroundings.root decl) decl.patterns)
      fill id (Rule.held · nested)
      return id

def rule (library : Library) :
    Nat → Place → RuleDecl → Surroundings → Compile (Option RuleId)
  | 0, _, _, _ => return none
  | fuel + 1, place, decl, around => do
    match ← numbered? place with
    | some known => return known
    | none =>
      match RulePatterns.ofDecl? decl with
      | none =>
        record place none
        return none
      | some patterns =>
        let id ← reserve
        record place (some id)
        let inside := around.within place decl
        let one := entry library (grammar library fuel) (rule library fuel) inside
        let nested ← each (fun (place, decl) => one place decl)
          (numberedPlaces place (decl.nested.getD []))
        let capture (place : Place) (decl : RuleDecl) := capturing library fuel place decl inside
        let kind ← kindOf capture place decl nested patterns
        fill id (templates decl kind)
        return some id

-- A group's rule. The rules to read the group's text by are held by a rule of their own.
def capturing (library : Library) : Nat → Place → RuleDecl → Surroundings → Compile RuleId
  | 0, _, _, _ => reserve
  | fuel + 1, place, decl, around => do
    match ← numbered? place with
    | some (some known) => return known
    | _ =>
      let id ← reserve
      record place (some id)
      let rules := decl.nested.getD []
      let inner ←
        if rules.isEmpty then pure none
        else do
          let inside := around.within place decl
          let one := entry library (grammar library fuel) (rule library fuel) inside
          let holder ← reserve
          let nested ← each (fun (place, decl) => one place decl) (numberedPlaces place rules)
          fill holder (Rule.held · nested)
          pure (some holder)
      fill id (templates decl (.capturing inner))
      return id

end

def fuel (library : Library) : Nat :=
  library.ruleCount + library.repository.grammars.length + 2

def injectionsOf (selector : String) (rule : RuleId) : List Injection :=
  match Selector.parse selector with
  | .ok parsed => parsed.alternatives.map fun alternative => ⟨alternative, rule⟩
  | .error _ => []

def ownInjections (library : Library) : List (String × RuleDecl) → Compile (List Injection)
  | [] => return []
  | (selector, decl) :: rest => do
    let base := library.base
    let place := (Surroundings.root base).into (.injection selector)
    let id ← entry library (grammar library (fuel library)) (rule library (fuel library))
      (Surroundings.ofGrammar base) place decl
    let found := match id with
      | some id => injectionsOf selector id
      | none => []
    return found ++ (← ownInjections library rest)

def foreignInjections (library : Library) : List String → Compile (List Injection)
  | [] => return []
  | scope :: rest => do
    let found ← match library.grammar? scope with
      | none => pure []
      | some decl =>
        match decl.injectionSelector with
        | none => pure []
        | some selector => do
          let id ← grammar library (fuel library) decl
          pure (injectionsOf selector id)
    return found ++ (← foreignInjections library rest)

-- Those of lower priority first, and otherwise in the order given.
def byPriority (injections : List Injection) : List Injection :=
  let ofPriority (priority : Priority) :=
    injections.filter fun injection => injection.alternative.priority == priority
  ofPriority .low ++ ofPriority .normal ++ ofPriority .high

def graph (library : Library) : Compile (RuleId × List Injection) := do
  let root ← grammar library (fuel library) library.base
  let own ← ownInjections library library.base.injections
  let foreign ← foreignInjections library library.injectors
  return (root, byPriority (own ++ foreign))

end Compile

namespace RuleGraph

def compile (library : Library) : RuleGraph :=
  let ((root, injections), draft) := (Compile.graph library).run Draft.empty
  ⟨draft.rules.mapIdx fun id rule => rule.getD (Rule.held id []), root, injections⟩

-- What comes of compiling, which is nothing where a table had no room and where references led round
-- in a circle.
def compile? (library : Library) : Option RuleGraph :=
  let draft := ((Compile.graph library).run Draft.empty).2
  if draft.gaveUp || draft.wentRound then none else some (compile library)

end RuleGraph

end Highlighter
