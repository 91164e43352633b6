import Highlighter.Pattern.Basic
import Mathlib

set_option autoImplicit false

namespace Highlighter

namespace Pattern

def ofWritten (source : String) : Pattern :=
  if hasReference source.toList then ⟨source, true, ⟨none, none, none, none⟩⟩
  else ⟨source, false, Variants.ofSource source.toList (Regex.compile? source.toList)⟩

theorem ofSource_written (text : String) (pattern : Pattern)
    (compiled : ofSource? text = some pattern) : pattern = ofWritten pattern.source := by
  simp only [ofSource?] at compiled
  split at compiled
  · rename_i refers
    obtain ⟨_, _, rfl⟩ := Option.map_eq_some_iff.mp compiled
    simp [ofWritten, refers]
  · rename_i plain
    split at compiled
    · exact absurd compiled (by simp)
    · rename_i regex here
      obtain rfl := Option.some.inj compiled
      simp [ofWritten, plain, here]

theorem ofSource_unique (a b : String) (first second : Pattern)
    (compiledFirst : ofSource? a = some first) (compiledSecond : ofSource? b = some second)
    (same : first.source = second.source) : first = second := by
  rw [ofSource_written a first compiledFirst, ofSource_written b second compiledSecond, same]

theorem hasReference_backslash (c : Char) (rest : List Char) :
    hasReference ('\\' :: c :: rest) = (Text.isDecimal c || hasReference (c :: rest)) := rfl

theorem hasReference_cons {c : Char} (other : c ≠ '\\') (rest : List Char) :
    hasReference (c :: rest) = hasReference rest :=
  hasReference.eq_2 c rest fun _ _ same _ => other same

def Alike (a b : List Char) : Prop :=
  hasReference a = hasReference b ∧ hasReference ('\\' :: a) = hasReference ('\\' :: b)

namespace Alike

theorem refl (a : List Char) : Alike a a := ⟨rfl, rfl⟩

theorem cons {a b : List Char} (alike : Alike a b) (c : Char) : Alike (c :: a) (c :: b) := by
  have inner : hasReference (c :: a) = hasReference (c :: b) := by
    by_cases backslash : c = '\\'
    · exact backslash ▸ alike.2
    · rw [hasReference_cons backslash, hasReference_cons backslash, alike.1]
  exact ⟨inner, by rw [hasReference_backslash, hasReference_backslash, inner]⟩

theorem escaped {a b : List Char} (alike : Alike a b) {c : Char} (plain : Text.isDecimal c = false) :
    Alike ('\\' :: c :: a) (c :: b) := by
  have inner := (alike.cons c).1
  have backslash : Text.isDecimal '\\' = false := by cbv
  constructor
  · rw [hasReference_backslash, plain, inner, Bool.false_or]
  · simp only [hasReference_backslash, backslash, plain, inner, Bool.false_or]

end Alike

theorem endOfText_alike {a b : List Char} (alike : Alike a b) :
    Alike (endOfText ++ a) ('\\' :: 'z' :: b) := by
  have feed : Text.isDecimal 'n' = false := by cbv
  have mark : Text.isDecimal '$' = false := by cbv
  have letter : Text.isDecimal 'z' = false := by cbv
  have backslash : Text.isDecimal '\\' = false := by cbv
  have inner : hasReference (endOfText ++ a) = hasReference a := by
    change hasReference ('$' :: '(' :: '?' :: '!' :: '\\' :: 'n' :: ')' :: '(' :: '?' :: '<' :: '!' ::
      '\\' :: 'n' :: ')' :: a) = hasReference a
    simp (disch := decide) only [hasReference_cons, hasReference_backslash, feed, Bool.false_or]
  have outer : hasReference ('\\' :: endOfText ++ a) = hasReference (endOfText ++ a) := by
    change (Text.isDecimal '$' || hasReference (endOfText ++ a)) = _
    rw [mark, Bool.false_or]
  constructor
  · simp (disch := decide) only [inner, hasReference_backslash, hasReference_cons, letter,
      Bool.false_or, alike.1]
  · change hasReference ('\\' :: endOfText ++ a) = _
    simp (disch := decide) only [outer, inner, hasReference_backslash, hasReference_cons, backslash,
      letter, Bool.false_or, alike.1]

theorem withEndOfText_alike (source : List Char) : Alike (withEndOfText source) source := by
  unfold withEndOfText
  fun_induction rewriteEscapes (fun c => if c == 'z' then some endOfText else none) source with
  | case1 c rest text found ih =>
    obtain ⟨ends, rfl⟩ : c = 'z' ∧ endOfText = text := by simpa using found
    exact ends ▸ endOfText_alike ih
  | case2 c rest kept ih => exact (ih.cons c).cons '\\'
  | case3 c rest plain ih => exact ih.cons c
  | case4 => exact .refl []

section

variable {source : String} {pattern : Pattern} (compiled : ofSource? source = some pattern)

include compiled

theorem source_ofSource : pattern.source.toList = withEndOfText source.toList := by
  simp only [ofSource?] at compiled
  split at compiled
  · obtain ⟨_, _, rfl⟩ := Option.map_eq_some_iff.mp compiled
    exact String.toList_ofList
  · split at compiled
    · exact nomatch compiled
    · obtain rfl := Option.some.inj compiled
      exact String.toList_ofList

theorem refersBack_ofSource : pattern.refersBack = hasReference source.toList := by
  have written := congrArg Pattern.refersBack (ofSource_written source pattern compiled)
  rw [ofWritten, source_ofSource compiled] at written
  rw [written, ← (withEndOfText_alike source.toList).1]
  split
  · rename_i refers
    exact refers.symm
  · rename_i plain
    exact (Bool.eq_false_iff.mpr plain).symm

theorem search_of_refersBack (refers : pattern.refersBack = true) {text : List Char}
    (cursor : Text.Cursor text) (allowStart allowSearch : Bool) :
    pattern.search? cursor allowStart allowSearch = none := by
  rw [refersBack_ofSource compiled, ← (withEndOfText_alike source.toList).1,
    ← source_ofSource compiled] at refers
  rw [ofSource_written source pattern compiled, ofWritten, if_pos refers]
  cases allowStart <;> cases allowSearch <;> rfl

theorem compile_of_not_refersBack (plain : pattern.refersBack = false) :
    ∃ regex, Regex.compile? (withEndOfText source.toList) = some regex := by
  simp only [ofSource?] at compiled
  split at compiled
  · obtain ⟨_, _, rfl⟩ := Option.map_eq_some_iff.mp compiled
    exact nomatch plain
  · split at compiled
    · exact nomatch compiled
    · rename_i regex here
      exact ⟨regex, here⟩

theorem search_of_not_refersBack (plain : pattern.refersBack = false) {text : List Char}
    (cursor : Text.Cursor text) (allowStart allowSearch : Bool) :
    pattern.search? cursor allowStart allowSearch =
      (Regex.compile? (masked allowStart allowSearch (withEndOfText source.toList))).bind
        (·.search? cursor) := by
  rw [refersBack_ofSource compiled, ← (withEndOfText_alike source.toList).1,
    ← source_ofSource compiled] at plain
  rw [← source_ofSource compiled, ← Variants.get_ofSource, search?]
  rw [ofSource_written source pattern compiled, ofWritten, if_neg (by simp [plain])]

end

end Pattern

end Highlighter
