import Highlighter.Metadata

set_option autoImplicit false

namespace Highlighter

structure ScopeEntry where
  name : String
  metadata : Metadata
  deriving DecidableEq, Repr

structure ScopePath where
  entries : List ScopeEntry
  deriving DecidableEq, Repr

namespace ScopePath

def empty : ScopePath := ⟨[]⟩

def push (path : ScopePath) (name : String) (metadata : Metadata) : ScopePath :=
  ⟨⟨name, metadata⟩ :: path.entries⟩

def isEmpty (path : ScopePath) : Bool := path.entries.isEmpty

def innermost? (path : ScopePath) : Option String := path.entries.head?.map (·.name)

def metadata (path : ScopePath) : Metadata :=
  match path.entries with
  | [] => 0
  | entry :: _ => entry.metadata

def parent? (path : ScopePath) : Option ScopePath :=
  match path.entries with
  | [] => none
  | _ :: rest => some ⟨rest⟩

def names (path : ScopePath) : List String := path.entries.reverse.map (·.name)

def length (path : ScopePath) : Nat := path.entries.length

def sameNames (a b : ScopePath) : Bool := a.entries.map (·.name) == b.entries.map (·.name)

end ScopePath

end Highlighter
