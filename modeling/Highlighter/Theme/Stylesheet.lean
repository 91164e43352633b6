import Highlighter.Color.Reader
import Highlighter.Theme.Basic

set_option autoImplicit false

namespace Highlighter.Theme.Stylesheet

open Text (byteLength)

inductive Problem where
  | openComment
  | missingBlock
  | openBlock
  | missingSelector
  deriving DecidableEq, Repr

def Problem.message : Problem → String
  | .openComment => "unterminated comment"
  | .missingBlock => "expected '\x7b'"
  | .openBlock => "unterminated block"
  | .missingSelector => "missing selector"

structure Error where
  offset : Nat
  problem : Problem
  deriving DecidableEq, Repr

def Error.message (error : Error) : String :=
  "stylesheet syntax error at byte " ++ toString error.offset ++ ": " ++ error.problem.message

def comment? : List Char → Option (List Char × List Char)
  | [] => none
  | '*' :: '/' :: rest => some ([' ', ' '], rest)
  | c :: rest => (comment? rest).map fun (blanks, after) =>
      (List.replicate c.utf8Size ' ' ++ blanks, after)

theorem comment?_shorter {cs blanks after : List Char} (found : comment? cs = some (blanks, after)) :
    after.length < cs.length := by
  fun_induction comment? cs generalizing blanks after with
  | case1 => simp at found
  | case2 rest =>
    simp only [Option.some.injEq, Prod.mk.injEq] at found
    rw [← found.2]
    simp only [List.length_cons]
    omega
  | case3 c rest _ ih =>
    obtain ⟨⟨blanks', after'⟩, inner, same⟩ := Option.map_eq_some_iff.mp found
    simp only [Prod.mk.injEq] at same
    have := ih inner
    rw [← same.2]
    simp only [List.length_cons]
    omega

-- The text with blanks for its comments. Every other byte keeps its place.
def withoutComments (offset : Nat) (cs : List Char) : Except Error (List Char) :=
  match cs with
  | [] => .ok []
  | '/' :: '*' :: rest =>
    match _found : comment? rest with
    | none => .error ⟨offset, .openComment⟩
    | some (blanks, after) =>
      (withoutComments (offset + 2 + byteLength blanks) after).map ([' ', ' '] ++ blanks ++ ·)
  | c :: rest => (withoutComments (offset + c.utf8Size) rest).map (c :: ·)
  termination_by cs.length
  decreasing_by
    · have := comment?_shorter ‹_›
      simp
      omega
    · simp

def isBold (value : List Char) : Bool :=
  value == "bold".toList ||
    match Text.readNumber? 65535 value with
    | some weight => weight ≥ 600
    | none => false

def hasPart (part : List Char) : List Char → Bool
  | [] => part.isEmpty
  | c :: rest => (Text.afterLead? part (c :: rest)).isSome || hasPart part rest

def declare (setting : Setting) (declaration : List Char) : Setting :=
  match Text.splitFirst? ':' declaration with
  | none => setting
  | some (property, value) =>
    let value := Text.trimmed value
    match String.ofList ((Text.trimmed property).map Char.toLower) with
    | "color" => { setting with foreground := Color.read? (String.ofList value) }
    | "background-color" | "background" =>
      { setting with background := Color.read? (String.ofList value) }
    | "font-weight" => { setting with bold := some (isBold value) }
    | "font-style" =>
      { setting with
        italic := some (value == "italic".toList || value == "oblique".toList) }
    | "text-decoration" =>
      { setting with
        underline := some (hasPart "underline".toList value)
        strikethrough := some (hasPart "line-through".toList value) }
    | _ => setting

def declarations (block : List Char) : Setting :=
  (Text.pieces ';' block).foldl declare Setting.empty

def selector? (selector : List Char) : Option String :=
  if selector == ['*'] || selector == ".editor".toList then none
  else some (String.ofList ((Text.words isClassGap selector).flatMap ('.' :: ·)))

def settings (selectors block : List Char) : List Setting :=
  (Text.pieces ',' selectors).map fun selector =>
    { declarations block with selector := selector? (Text.trimmed selector) }

theorem splitFirst?_shorter {separator : Char} {cs before after : List Char}
    (found : Text.splitFirst? separator cs = some (before, after)) : after.length < cs.length := by
  induction cs generalizing before with
  | nil => simp [Text.splitFirst?] at found
  | cons c rest ih =>
    simp only [Text.splitFirst?] at found
    split at found
    · simp only [Option.some.injEq, Prod.mk.injEq] at found
      simp [← found.2]
    · obtain ⟨⟨before', after'⟩, inner, same⟩ := Option.map_eq_some_iff.mp found
      simp only [Prod.mk.injEq] at same
      have inner : Text.splitFirst? separator rest = some (before', after) := by rw [inner, same.2]
      have := ih inner
      simp
      omega

def blocks (offset : Nat) (cs : List Char) : Except Error (List Setting) :=
  let start := offset + byteLength (cs.takeWhile Text.isSpace)
  let trimmed := cs.dropWhile Text.isSpace
  if trimmed.isEmpty then .ok []
  else
    match _opened : Text.splitFirst? '\x7b' trimmed with
    | none => .error ⟨start, .missingBlock⟩
    | some (selectors, body) =>
      match _closed : Text.splitFirst? '\x7d' body with
      | none => .error ⟨start + byteLength selectors, .openBlock⟩
      | some (block, rest) =>
        if selectors.all Text.isSpace then .error ⟨start, .missingSelector⟩
        else
          (blocks (start + byteLength selectors + byteLength block + 2) rest).map
            (settings (Text.trimmed selectors) block ++ ·)
  termination_by cs.length
  decreasing_by
    have opened := splitFirst?_shorter ‹Text.splitFirst? '\x7b' _ = _›
    have closed := splitFirst?_shorter ‹Text.splitFirst? '\x7d' _ = _›
    have : trimmed.length ≤ cs.length := (List.dropWhile_sublist Text.isSpace).length_le
    omega

def parse (source : String) : Except Error Theme :=
  match withoutComments 0 source.toList with
  | .error error => .error error
  | .ok cs => (blocks 0 cs).map (Theme.ofSettings none [])

end Highlighter.Theme.Stylesheet
