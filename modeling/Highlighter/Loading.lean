import Highlighter.Config
import Highlighter.Document
import Highlighter.Failure
import Highlighter.Registry
import Highlighter.Theme.Reader

set_option autoImplicit false

namespace Highlighter

variable {m : Type → Type} [Monad m]

def failingWith {ε α : Type} (fail : ε → Failure) (action : m (Except ε α)) : ExceptT Failure m α := do
  match ← action with
  | .ok value => return value
  | .error error => throw (fail error)

def Config.load (files : FileAccess m) (path : String) : ExceptT Failure m Config := do
  match ← files.read path with
  | .error .missing => return Config.default
  | .error error => throw (.configFile path error)
  | .ok text =>
    match Config.ofText? text with
    | some config => return config
    | none => throw .configText

namespace Theme

def isStylesheet (path : String) : Bool :=
  (Text.fileName? path >>= Text.extension?).any fun extension =>
    extension.toList.map Char.toLower == ['c', 's', 's']

def ofFile (path text : String) : Except Failure Theme :=
  if isStylesheet path then (Stylesheet.parse text).mapError .stylesheet
  else
    match ofJsonText? text with
    | some theme => .ok theme
    | none => .error .themeText

def load (files : FileAccess m) (path : String) : ExceptT Failure m Theme := do
  let text ← failingWith (.themeFile path) (files.read path)
  failingWith id (pure (ofFile path text))

end Theme

def Document.load (files : FileAccess m) (path : String) : ExceptT Failure m Document :=
  return Document.ofText (← failingWith .file (files.read path))

def GrammarDecl.load (files : FileAccess m) (path : String) : ExceptT Failure m GrammarDecl := do
  let text ← failingWith (.grammarFile path) (files.read path)
  failingWith .grammar (pure (GrammarDecl.ofText text))

namespace Registry

def load (registry : Registry) (files : FileAccess m) (path : String) :
    ExceptT Failure m (String × Registry) := do
  let decl ← GrammarDecl.load files path
  let registry ← failingWith .grammar (pure (registry.add decl))
  return (decl.scopeName, registry)

def loadAll (files : FileAccess m) (registry : Registry) : List String → m (List String × Registry)
  | [] => return ([], registry)
  | path :: rest => do
    match ← (registry.load files path).run with
    | .error _ => loadAll files registry rest
    | .ok (scope, registry) =>
      let (scopes, registry) ← loadAll files registry rest
      return (scope :: scopes, registry)

def isGrammarName (name : String) : Bool := Text.extension? name == some "json"

def loadDirectory (registry : Registry) (files : FileAccess m) (path : String) :
    ExceptT Failure m (List String × Registry) := do
  let names ← failingWith .file (files.names path)
  let sorted := (names.filter isGrammarName).mergeSort fun a b => a ≤ b
  ExceptT.lift (loadAll files registry (sorted.map (Text.joinPath path)))

end Registry

end Highlighter
