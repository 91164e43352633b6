import Highlighter.Grammar.Validation

set_option autoImplicit false

namespace Highlighter

-- `injectors` lists for each scope the scopes of the grammars that inject into it, in the order in
-- which they were registered.
structure Repository where
  grammars : Table GrammarDecl
  injectors : Table (List String)

namespace Repository

def empty : Repository := ⟨[], []⟩

def injectorsOf (repository : Repository) (scope : String) : List String :=
  (repository.injectors.get? scope).getD []

def withoutInjector (injectors : Table (List String)) (scope : String) : Table (List String) :=
  injectors.map fun (target, scopes) => (target, scopes.filter (· != scope))

def withInjector (injectors : Table (List String)) (scope target : String) :
    Table (List String) :=
  injectors.insert target (((injectors.get? target).getD []) ++ [scope])

def add (repository : Repository) (grammar : GrammarDecl) :
    Except DeclarationError Repository :=
  (grammar.validate).map fun _ =>
    let scope := grammar.scopeName
    ⟨repository.grammars.insert scope grammar,
      grammar.injectsInto.foldl (fun injectors target => withInjector injectors scope target)
        (withoutInjector repository.injectors scope)⟩

end Repository

end Highlighter
