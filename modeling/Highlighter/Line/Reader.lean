import Highlighter.Line.Tokenization

set_option autoImplicit false

namespace Highlighter

structure LineReader where
  grammar : Grammar
  caches : Caches grammar

namespace LineReader

def ofGrammar (grammar : Grammar) : LineReader := ⟨grammar, Caches.empty grammar⟩

def withTheme (reader : LineReader) (theme : Option Theme) : LineReader :=
  ⟨reader.grammar.withTheme theme, reader.caches.withTheme theme⟩

def run {α : Type} (reader : LineReader) (action : StateM (Caches reader.grammar) α) :
    α × LineReader :=
  let (value, caches) := action.run reader.caches
  (value, ⟨reader.grammar, caches⟩)

def initialStack (reader : LineReader) : Stack × LineReader := reader.run Grammar.initialStack

section Read

variable (reader : LineReader) (depth : Nat)

def read (line : String) (prior : Option Stack) (checks : Option Nat) : LineResult × LineReader :=
  reader.run (Grammar.tokenize depth line prior checks false)

def readPacked (line : String) (prior : Option Stack) (checks : Option Nat) :
    LineResult × LineReader :=
  reader.run (Grammar.tokenize depth line prior checks true)

def readAll (prior : Option Stack) (lines : List String) : List LineResult × LineReader :=
  reader.run (Grammar.tokenizeLines depth prior lines)

end Read

-- Text that is too long to be read: one token for all of it.
def skip (reader : LineReader) (line : String) (prior : Option Stack) :
    List Token × Stack × LineReader :=
  let (stack, reader) := match prior with
    | some stack => (stack, reader)
    | none => reader.initialStack
  let scopes := stack.contentScopes
  ([⟨0, Text.byteLength line.toList, scopes.names, scopes.metadata⟩], stack, reader)

end LineReader

end Highlighter
