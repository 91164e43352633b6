import Highlighter.Text.Split

set_option autoImplicit false

namespace Highlighter

structure Edit where
  start : Nat
  removed : Nat
  added : Nat
  deriving DecidableEq, Repr

namespace Edit

def oldStop (edit : Edit) : Nat := edit.start + edit.removed

def newStop (edit : Edit) : Nat := edit.start + edit.added

def splice {α : Type} (edit : Edit) (inserted items : List α) : List α :=
  items.take edit.start ++ inserted ++ items.drop edit.oldStop

end Edit

structure Document where
  lines : List String
  deriving DecidableEq, Repr

namespace Document

def ofText (text : String) : Document := ⟨Text.lines text⟩

def text (document : Document) : String := "\n".intercalate document.lines

def length (document : Document) : Nat := document.lines.length

def line? (document : Document) (line : Nat) : Option String := document.lines[line]?

-- The edit that replacing lines comes to: places behind the last line count as the end.
def editFor (document : Document) (start count : Nat) (lines : List String) : Edit :=
  let first := min start document.length
  ⟨first, min (first + count) document.length - first, lines.length⟩

def replace (document : Document) (start count : Nat) (lines : List String) : Document × Edit :=
  let edit := document.editFor start count lines
  (⟨edit.splice lines document.lines⟩, edit)

def setLine (document : Document) (line : Nat) (text : String) : Document × Edit :=
  document.replace line 1 [text]

end Document

end Highlighter
