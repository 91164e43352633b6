import Highlighter.Grammar.Compiled
import Highlighter.Text.Path

set_option autoImplicit false

namespace Highlighter

-- `compiled` holds the grammars that have been used since they could last have changed.
structure Registry where
  repository : Repository
  configurations : Table Configuration
  compiled : Table Grammar
  theme : Option Theme

namespace Registry

/-- What comes of asking for a grammar. Where compiling it does not come back, neither does the
request. -/
inductive Supply where
  | unknown
  | lost
  | grammar (grammar : Grammar) (registry : Registry)

def empty : Registry := ⟨Repository.empty, [], [], none⟩

def add (registry : Registry) (decl : GrammarDecl) : Except DeclarationError Registry :=
  (registry.repository.add decl).map fun repository =>
    { registry with repository, compiled := [] }

def configure (registry : Registry) (scope : String) (configuration : Configuration) : Registry :=
  { registry with
    configurations := registry.configurations.insert scope configuration
    compiled := registry.compiled.erase scope }

def withTheme (registry : Registry) (theme : Option Theme) : Registry :=
  { registry with
    theme
    compiled := registry.compiled.map fun (scope, grammar) => (scope, grammar.withTheme theme) }

def scopes (registry : Registry) : List String := registry.repository.grammars.keys

def compile? (registry : Registry) (scope : String) (decl : GrammarDecl) : Option Grammar :=
  let configuration := (registry.configurations.get? scope).getD Configuration.default
  (Grammar.compile? ⟨decl, registry.repository⟩ configuration).map (·.withTheme registry.theme)

def grammar (registry : Registry) (scope : String) : Supply :=
  match registry.compiled.get? scope with
  | some grammar => .grammar grammar registry
  | none =>
    match registry.repository.grammars.get? scope with
    | none => .unknown
    | some decl =>
      match registry.compile? scope decl with
      | none => .lost
      | some grammar =>
        .grammar grammar { registry with compiled := registry.compiled.insert scope grammar }

def claims (decl : GrammarDecl) (name : String) : Bool :=
  decl.fileTypes.any fun type => some type == Text.extension? name || type == name

def scopeForPath? (registry : Registry) (path : String) : Option String :=
  match Text.fileName? path with
  | none => none
  | some name =>
    (registry.repository.grammars.find? fun (_, decl) => claims decl name).map (·.1)

def firstMatching (line : String) (registry : Registry) :
    List String → Option (Option String × Registry)
  | [] => some (none, registry)
  | scope :: rest =>
    match registry.grammar scope with
    | .unknown => firstMatching line registry rest
    | .lost => none
    | .grammar grammar registry =>
      if grammar.matchesFirstLine line then some (some scope, registry)
      else firstMatching line registry rest

-- The first scope whose grammar knows its documents by such a first line. There is no answer when
-- compiling a grammar on the way does not come back.
def scopeForFirstLine (registry : Registry) (line : String) : Option (Option String × Registry) :=
  let scopes := (registry.repository.grammars.filter fun (_, decl) => decl.firstLine.isSome).map (·.1)
  firstMatching line registry scopes

def summary (registry : Registry) : String :=
  "Registry \x7b scopes: " ++ Text.quotedList registry.scopes ++ ", .. \x7d"

end Registry

end Highlighter
