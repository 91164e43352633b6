import Highlighter.Text.Class

set_option autoImplicit false

namespace Highlighter.Text

abbrev Step (α : Type) := List Char → Option (α × List Char)

def byteLength : List Char → Nat
  | [] => 0
  | c :: rest => c.utf8Size + byteLength rest

def wordsFrom (gap : Char → Bool) (word : List Char) : List Char → List (List Char)
  | [] => if word.isEmpty then [] else [word.reverse]
  | c :: rest =>
    if gap c then
      if word.isEmpty then wordsFrom gap [] rest else word.reverse :: wordsFrom gap [] rest
    else wordsFrom gap (c :: word) rest

def words (gap : Char → Bool) (cs : List Char) : List (List Char) := wordsFrom gap [] cs

theorem wordsFrom_ne_nil (gap : Char → Bool) (word cs : List Char)
    (filled : word ≠ [] ∨ ∃ c ∈ cs, gap c = false) : wordsFrom gap word cs ≠ [] := by
  induction cs generalizing word with
  | nil =>
    obtain present | ⟨c, member, _⟩ := filled
    · simp [wordsFrom, present]
    · exact absurd member List.not_mem_nil
  | cons c rest ih =>
    unfold wordsFrom
    split
    · rename_i between
      split
      · rename_i bare
        obtain present | ⟨other, member, inner⟩ := filled
        · exact absurd (List.isEmpty_iff.mp bare) present
        · rcases List.mem_cons.mp member with rfl | later
          · exact absurd between (by simp [inner])
          · exact ih [] (.inr ⟨other, later, inner⟩)
      · exact List.cons_ne_nil _ _
    · exact ih (c :: word) (.inl (List.cons_ne_nil _ _))

def piecesFrom (separator : Char) (piece : List Char) : List Char → List (List Char)
  | [] => [piece.reverse]
  | c :: rest =>
    if c == separator then piece.reverse :: piecesFrom separator [] rest
    else piecesFrom separator (c :: piece) rest

def pieces (separator : Char) (cs : List Char) : List (List Char) := piecesFrom separator [] cs

def dropEnd (p : Char → Bool) (cs : List Char) : List Char := (cs.reverse.dropWhile p).reverse

def trimmed (cs : List Char) : List Char := dropEnd isSpace (cs.dropWhile isSpace)

def isBlankText (text : String) : Bool := text.toList.all isSpace

def splitFirst? (separator : Char) : List Char → Option (List Char × List Char)
  | [] => none
  | c :: rest =>
    if c == separator then some ([], rest)
    else (splitFirst? separator rest).map fun (before, after) => (c :: before, after)

def afterLead? : List Char → List Char → Option (List Char)
  | [], cs => some cs
  | _ :: _, [] => none
  | l :: lead, c :: cs => if l == c then afterLead? lead cs else none

def dropFinalReturn (line : List Char) : List Char :=
  match line.reverse with
  | '\r' :: rest => rest.reverse
  | _ => line

def closedLines : List (List Char) → List (List Char)
  | [] => []
  | [last] => if last.isEmpty then [] else [last]
  | line :: rest => dropFinalReturn line :: closedLines rest

-- The lines of a text: a return before a line feed belongs to the line's end, and a line feed at
-- the end of the text starts no further line.
def lines (text : String) : List String := (closedLines (pieces '\n' text.toList)).map String.ofList

end Highlighter.Text
