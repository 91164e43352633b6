import Highlighter.Text.Class

set_option autoImplicit false

namespace Highlighter.Pattern

def rewriteEscapes (f : Char → Option (List Char)) : List Char → List Char
  | '\\' :: c :: rest =>
    match f c with
    | some text => text ++ rewriteEscapes f rest
    | none => '\\' :: c :: rewriteEscapes f rest
  | c :: rest => c :: rewriteEscapes f rest
  | [] => []

def escapes : List Char → List Char
  | '\\' :: c :: rest => c :: escapes rest
  | _ :: rest => escapes rest
  | [] => []

def endOfText : List Char := "$(?!\\n)(?<!\\n)".toList

-- The end of the text is no place before or after a line feed.
def withEndOfText (source : List Char) : List Char :=
  rewriteEscapes (fun c => if c == 'z' then some endOfText else none) source

def isAnchor (c : Char) : Bool := c == 'A' || c == 'G'

def isAnchored (source : List Char) : Bool := (escapes source).any isAnchor

def never : Char := '\uFFFF'

def anchorMask (allowStart allowSearch : Bool) (c : Char) : Option (List Char) :=
  if (c == 'A' && !allowStart) || (c == 'G' && !allowSearch) then some [never] else none

-- The source without the anchors that may not match.
def masked (allowStart allowSearch : Bool) (source : List Char) : List Char :=
  rewriteEscapes (anchorMask allowStart allowSearch) source

theorem rewriteEscapes_of_none (f : Char → Option (List Char)) (source : List Char)
    (unchanged : ∀ c ∈ escapes source, f c = none) : rewriteEscapes f source = source := by
  fun_induction escapes source with
  | case1 c rest ih =>
    simp only [List.mem_cons, forall_eq_or_imp] at unchanged
    simp [rewriteEscapes, unchanged.1, ih unchanged.2]
  | case2 c rest plain ih =>
    rw [rewriteEscapes.eq_2 f c rest plain, ih unchanged]
  | case3 => rfl

theorem masked_of_not_isAnchored (allowStart allowSearch : Bool) (source : List Char)
    (plain : isAnchored source = false) : masked allowStart allowSearch source = source := by
  apply rewriteEscapes_of_none
  intro c member
  have free : isAnchor c = false := by
    simpa using List.any_eq_false.mp plain c member
  simp only [isAnchor, Bool.or_eq_false_iff] at free
  simp [anchorMask, free.1, free.2]

theorem masked_of_allowed (source : List Char) : masked true true source = source := by
  apply rewriteEscapes_of_none
  intro c _
  simp [anchorMask]

def hasReference : List Char → Bool
  | '\\' :: c :: rest => Text.isDecimal c || hasReference (c :: rest)
  | _ :: rest => hasReference rest
  | [] => false

-- `digits` holds in reverse the digits read since a backslash, if one has been read.
def replaceFrom (f : List Char → List Char) : Option (List Char) → List Char → List Char
  | none, [] => []
  | some digits, [] => written f digits
  | none, c :: rest => if c == '\\' then replaceFrom f (some []) rest else c :: replaceFrom f none rest
  | some digits, c :: rest =>
    if Text.isDecimal c then replaceFrom f (some (c :: digits)) rest
    else if c == '\\' then written f digits ++ replaceFrom f (some []) rest
    else written f digits ++ c :: replaceFrom f none rest
where
  written (f : List Char → List Char) (digits : List Char) : List Char :=
    if digits.isEmpty then ['\\'] else f digits.reverse

def replaceReferences (f : List Char → List Char) (source : List Char) : List Char :=
  replaceFrom f none source

def isSpecial (c : Char) : Bool := "-\\{}*+?|^$.,[]()#".toList.contains c || Text.isSpace c

-- A pattern that matches only the text itself.
def literally (text : List Char) : List Char :=
  text.flatMap fun c => if isSpecial c then ['\\', c] else [c]

end Highlighter.Pattern
