import Highlighter.Grammar.Repository

set_option autoImplicit false

namespace Highlighter

structure Library where
  base : GrammarDecl
  repository : Repository

namespace Library

def grammar? (library : Library) (scope : String) : Option GrammarDecl :=
  if scope = library.base.scopeName then some library.base
  else library.repository.grammars.get? scope

def injectors (library : Library) : List String :=
  library.repository.injectorsOf library.base.scopeName

def ruleCount (library : Library) : Nat :=
  library.repository.grammars.foldl (fun count (_, grammar) => count + grammar.ruleCount)
    library.base.ruleCount

end Library

inductive CaptureField where
  | all
  | opening
  | closing
  | continuing
  deriving DecidableEq, Repr

inductive PlaceStep where
  | pattern (index : Nat)
  | entry (name : String)
  | capture (field : CaptureField) (key : String)
  | injection (selector : String)
  deriving DecidableEq, Repr

structure Place where
  grammar : String
  steps : List PlaceStep
  deriving DecidableEq, Repr

def Place.into (place : Place) (step : PlaceStep) : Place :=
  { place with steps := step :: place.steps }

structure Surroundings where
  grammar : GrammarDecl
  repositories : List (Place × List (String × RuleDecl))

namespace Surroundings

def root (grammar : GrammarDecl) : Place := ⟨grammar.scopeName, []⟩

def ofGrammar (grammar : GrammarDecl) : Surroundings :=
  ⟨grammar, [(root grammar, grammar.repository)]⟩

def within (around : Surroundings) (place : Place) (rule : RuleDecl) : Surroundings :=
  match rule.repository with
  | some repository => { around with repositories := (place, repository) :: around.repositories }
  | none => around

def lookup? (around : Surroundings) (name : String) : Option (Place × RuleDecl) :=
  around.repositories.findSome? fun (place, repository) =>
    (repository.lookup name).map fun rule => (place.into (.entry name), rule)

end Surroundings

inductive Destination where
  | grammar (grammar : GrammarDecl)
  | rule (place : Place) (rule : RuleDecl) (around : Surroundings)

/-- What comes of following a reference, which may lead to another one and so on for ever. -/
inductive Lead where
  | nowhere
  | round
  | towards (destination : Destination)

namespace Lead

def destination? : Lead → Option Destination
  | .nowhere | .round => none
  | .towards destination => some destination

theorem destination?_eq_some_iff {lead : Lead} {destination : Destination} :
    lead.destination? = some destination ↔ lead = .towards destination := by
  cases lead <;> simp [destination?]

def isRound : Lead → Bool
  | .round => true
  | .nowhere | .towards _ => false

end Lead

namespace Library

inductive Reference where
  | self
  | base
  | local (name : String)
  | foreign (scope : String) (name : Option String)

def referenceOf (text : String) : Reference :=
  if text == "$self" then .self
  else if text == "$base" then .base
  else
    match Text.splitFirst? '#' text.toList with
    | some ([], name) => .local (String.ofList name)
    | some (scope, name) => .foreign (String.ofList scope) (some (String.ofList name))
    | none => .foreign text none

-- Follows references until one leads to something else than a further reference.
def follow (library : Library) : Nat → Surroundings → String → Lead
  | 0, _, _ => .round
  | fuel + 1, around, reference =>
    let arrive (around : Surroundings) (name : String) : Lead :=
      match around.lookup? name with
      | none => .nowhere
      | some (place, rule) =>
        match rule.reference with
        | some next => follow library fuel around next
        | none => .towards (.rule place rule around)
    match referenceOf reference with
    | .self => .towards (.grammar around.grammar)
    | .base => .towards (.grammar library.base)
    | .local name => arrive around name
    | .foreign scope none =>
      match library.grammar? scope with
      | some grammar => .towards (.grammar grammar)
      | none => .nowhere
    | .foreign scope (some name) =>
      match library.grammar? scope with
      | some grammar => arrive (Surroundings.ofGrammar grammar) name
      | none => .nowhere

-- A chain of references that does not run in a circle meets each rule at most twice, once where it
-- began and once from the rule's own grammar. So one that is longer has no end.
def lead (library : Library) (around : Surroundings) (reference : String) : Lead :=
  library.follow (2 * library.ruleCount + 1) around reference

def destination? (library : Library) (around : Surroundings) (reference : String) :
    Option Destination :=
  (library.lead around reference).destination?

end Library

end Highlighter
