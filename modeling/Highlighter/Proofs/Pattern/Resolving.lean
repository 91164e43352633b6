import Highlighter.Proofs.Pattern.Literal
import Highlighter.Proofs.Pattern.References

set_option autoImplicit false

namespace Highlighter

namespace Pattern

open Text (Cursor)
open Regex (Region)

def captured (line : List Char) (captures : Nat → Option Region) (digits : List Char) :
    List Char :=
  (do
    let region ← captures (← Text.readIndex? digits)
    Text.slice? line region.start region.stop).getD []

def spliced (pattern : Pattern) (line : List Char) (captures : Nat → Option Region) : List Char :=
  replaceReferences (captured line captures) pattern.source.toList

theorem literally_alike {a b : List Char} (alike : Alike a b) (text : List Char) :
    Alike (literally text ++ a) (text ++ b) := by
  induction text with
  | nil => exact alike
  | cons c rest ih =>
    cases special : isSpecial c with
    | true =>
      rw [literally_special special]
      exact ih.escaped (isDecimal_of_special special)
    | false =>
      rw [literally_plain special]
      exact ih.cons c

theorem written_alike {a b : List Char} (alike : Alike a b) (text : List Char → List Char)
    (digits : List Char) :
    Alike (replaceFrom.written (fun digits => literally (text digits)) digits ++ a)
      (replaceFrom.written text digits ++ b) := by
  unfold replaceFrom.written
  split
  · exact alike.cons '\\'
  · exact literally_alike alike _

-- By the characters of the source, whether or not digits of a reference are being read.
theorem replaceFrom_alike (text : List Char → List Char) (digits : Option (List Char))
    (source : List Char) :
    Alike (replaceFrom (fun digits => literally (text digits)) digits source)
      (replaceFrom text digits source) := by
  fun_induction replaceFrom text digits source with
  | case1 =>
    rw [replaceFrom]
    exact .refl []
  | case2 digits =>
    rw [replaceFrom]
    simpa using written_alike (.refl []) text digits
  | case3 c rest backslash ih =>
    rw [replaceFrom, if_pos backslash]
    exact ih
  | case4 c rest other ih =>
    rw [replaceFrom, if_neg other]
    exact ih.cons c
  | case5 digits c rest digit ih =>
    rw [replaceFrom, if_pos digit]
    exact ih
  | case6 digits c rest other backslash ih =>
    rw [replaceFrom, if_neg other, if_pos backslash]
    exact written_alike ih text digits
  | case7 digits c rest other plain ih =>
    rw [replaceFrom, if_neg other, if_neg plain]
    exact written_alike (ih.cons c) text digits

theorem replaceReferences_alone (text : List Char → List Char) (digits : List Char)
    (written : digits ≠ []) (all : ∀ c ∈ digits, Text.isDecimal c = true) :
    replaceReferences text ('\\' :: digits) = text digits := by
  have read (past digits : List Char) (all : ∀ c ∈ digits, Text.isDecimal c = true) :
      replaceFrom text (some past) digits = replaceFrom.written text (digits.reverse ++ past) := by
    induction digits generalizing past with
    | nil => rw [replaceFrom, List.reverse_nil, List.nil_append]
    | cons c rest ih =>
      obtain ⟨digit, others⟩ := List.forall_mem_cons.mp all
      rw [replaceFrom, if_pos digit, ih _ others, List.reverse_cons, List.append_assoc]
      rfl
  rw [replaceReferences, replaceFrom, if_pos (beq_self_eq_true _), read [] digits all, replaceFrom.written,
    List.append_nil, if_neg (by simpa using written), List.reverse_reverse]

theorem escapes_literally (text : List Char) (c : Char) (member : c ∈ escapes (literally text)) :
    isSpecial c = true := by
  induction text with
  | nil => exact nomatch member
  | cons d rest ih =>
    cases special : isSpecial d with
    | true =>
      rw [literally_special special, escapes] at member
      rcases List.mem_cons.mp member with rfl | later
      · exact special
      · exact ih later
    | false =>
      have other : d ≠ '\\' := ne_of_plain special (by decide)
      rw [literally_plain special, escapes.eq_2 _ _ fun _ _ same _ => other same] at member
      exact ih member

theorem isAlpha_of_mem_escapes {text : List Char} {c : Char}
    (member : c ∈ escapes (literally text)) : c.isAlpha = false :=
  isAlpha_of_special (escapes_literally text c member)

theorem withEndOfText_literally (text : List Char) :
    withEndOfText (literally text) = literally text := by
  refine rewriteEscapes_of_none _ _ fun c member => if_neg ?_
  intro same
  exact absurd (isAlpha_of_mem_escapes member) (by rw [beq_iff_eq.mp same]; decide)

theorem masked_literally (allowStart allowSearch : Bool) (text : List Char) :
    masked allowStart allowSearch (literally text) = literally text := by
  refine masked_of_not_isAnchored _ _ _ (List.any_eq_false.mpr fun c member anchor => ?_)
  have letter := isAlpha_of_mem_escapes member
  rcases Bool.or_eq_true_iff.mp anchor with same | same
  · exact absurd letter (by rw [beq_iff_eq.mp same]; decide)
  · exact absurd letter (by rw [beq_iff_eq.mp same]; decide)

theorem hasReference_literally (text : List Char) :
    hasReference (literally text) = hasReference text := by
  simpa using (literally_alike (.refl []) text).1

/-- A search for the pattern finds what the engine finds where the anchors allow it. -/
def Live (pattern : Pattern) : Prop :=
  pattern.refersBack = false ∧
    ∀ (text : List Char) (cursor : Cursor text) (allowStart allowSearch : Bool),
      pattern.search? cursor allowStart allowSearch =
        (Regex.compile? (masked allowStart allowSearch pattern.source.toList)).bind
          (·.search? cursor)

def Dead (pattern : Pattern) : Prop :=
  pattern.refersBack = true ∧
    ∀ (text : List Char) (cursor : Cursor text) (allowStart allowSearch : Bool),
      pattern.search? cursor allowStart allowSearch = none

/-- The pattern is found where `wanted` first stands, so it matches at a place just when `wanted`
stands there. -/
def Literal (pattern : Pattern) (wanted : List Char) : Prop :=
  ∀ (text : List Char) (cursor : Cursor text) (allowStart allowSearch : Bool),
    pattern.search? cursor allowStart allowSearch =
        Regex.firstMatch? (Regex.occurrence? wanted) cursor ∧
      ((∃ found, pattern.search? cursor allowStart allowSearch = some found ∧
        found.whole.start = cursor.offset) ↔ wanted <+: cursor.after)

theorem live_or_dead {source : String} {pattern : Pattern}
    (compiled : ofSource? source = some pattern) :
    (hasReference source.toList = false → pattern.Live) ∧
      (hasReference source.toList = true → pattern.Dead) := by
  have refers := refersBack_ofSource compiled
  refine ⟨fun plain => ⟨refers.trans plain, fun text cursor allowStart allowSearch => ?_⟩,
    fun referring => ⟨refers.trans referring, fun text cursor allowStart allowSearch => ?_⟩⟩
  · rw [source_ofSource compiled]
    exact search_of_not_refersBack compiled (refers.trans plain) cursor allowStart allowSearch
  · exact search_of_refersBack compiled (refers.trans referring) cursor allowStart allowSearch

theorem literal_of_literally {wanted : List Char} (plain : hasReference wanted = false) :
    ∃ pattern, ofSource? (String.ofList (literally wanted)) = some pattern ∧
      pattern.Literal wanted := by
  have source : withEndOfText (String.ofList (literally wanted)).toList = literally wanted := by
    rw [String.toList_ofList, withEndOfText_literally]
  obtain ⟨pattern, compiled⟩ :
      ∃ pattern, ofSource? (String.ofList (literally wanted)) = some pattern := by
    simp [ofSource?, withEndOfText_literally, hasReference_literally, plain,
      Regex.compile_literally]
  refine ⟨pattern, compiled, fun text cursor allowStart allowSearch => ?_⟩
  have live := (live_or_dead compiled).1 (by
    rw [String.toList_ofList, hasReference_literally, plain])
  have found : pattern.search? cursor allowStart allowSearch =
      Regex.firstMatch? (Regex.occurrence? wanted) cursor := by
    rw [live.2, source_ofSource compiled, source, masked_literally, Regex.compile_literally,
      Option.bind_some, Regex.search_literal]
  exact ⟨found, found ▸ Regex.first_occurrence_here_iff wanted cursor⟩

theorem hasReference_resolve (pattern : Pattern) (line : List Char) (captures : Nat → Option Region) :
    hasReference (pattern.resolve line captures).toList =
      hasReference (pattern.spliced line captures) := by
  rw [resolve, String.toList_ofList]
  exact (replaceFrom_alike (captured line captures) none pattern.source.toList).1

section

variable (pattern : Pattern) (line : List Char) (captures : Nat → Option Region)

/-- A resolved pattern is searched unless the captured texts, put into the pattern as they are,
leave a backslash before a digit. A pattern that is nothing but a reference matches the captured
text and nothing else, unless that text has a backslash before a digit. -/
theorem resolve_searched :
    (∀ resolved, ofSource? (pattern.resolve line captures) = some resolved →
      (hasReference (pattern.spliced line captures) = false → resolved.Live) ∧
      (hasReference (pattern.spliced line captures) = true → resolved.Dead)) ∧
    ∀ digits, pattern.source.toList = '\\' :: digits → digits ≠ [] →
      (∀ c ∈ digits, Text.isDecimal c = true) →
      (hasReference (captured line captures digits) = false →
        ∃ resolved, ofSource? (pattern.resolve line captures) = some resolved ∧
          resolved.Literal (captured line captures digits)) ∧
      (hasReference (captured line captures digits) = true →
        ∀ resolved, ofSource? (pattern.resolve line captures) = some resolved →
          resolved.Dead) := by
  have whole (resolved : Pattern)
      (compiled : ofSource? (pattern.resolve line captures) = some resolved) :=
    hasReference_resolve pattern line captures ▸ live_or_dead compiled
  refine ⟨whole, fun digits alone written all => ?_⟩
  have spliced : pattern.spliced line captures = captured line captures digits := by
    rw [Pattern.spliced, alone, replaceReferences_alone _ digits written all]
  refine ⟨fun plain => ?_, fun referring resolved compiled => ?_⟩
  · have resolved : pattern.resolve line captures =
        String.ofList (literally (captured line captures digits)) := by
      rw [resolve, alone]
      exact congrArg String.ofList (replaceReferences_alone _ digits written all)
    exact resolved ▸ literal_of_literally plain
  · exact (whole resolved compiled).2 (spliced ▸ referring)

end

def fromThird (stop : Nat) : Nat → Option Region := fun n => if n = 1 then some ⟨2, stop⟩ else none

def dotted : List Char := "<<a.b".toList

def backslashed : List Char := "<<\\5".toList

theorem dotted_captured : captured dotted (fromThird 5) ['1'] = "a.b".toList := by cbv

theorem backslashed_captured : captured backslashed (fromThird 4) ['1'] = "\\5".toList := by cbv

theorem resolve_searched_dotted :
    captured dotted (fromThird 5) ['1'] = "a.b".toList ∧
      (∀ resolved, ofSource? ((ofWritten "\\1").resolve dotted (fromThird 5)) = some resolved →
        resolved.Live) ∧
      ∃ resolved, ofSource? ((ofWritten "\\1").resolve dotted (fromThird 5)) = some resolved ∧
        resolved.Literal "a.b".toList := by
  obtain ⟨searched, alone⟩ := resolve_searched (ofWritten "\\1") dotted (fromThird 5)
  have source : (ofWritten "\\1").source.toList = ['\\', '1'] := by cbv
  have decimal : Text.isDecimal '1' = true := by cbv
  refine ⟨dotted_captured, fun resolved compiled => (searched resolved compiled).1 (by cbv), ?_⟩
  have literal := (alone ['1'] source (List.cons_ne_nil _ _)
    fun _ member => List.mem_singleton.mp member ▸ decimal).1
  rw [dotted_captured] at literal
  exact literal (by decide)

theorem resolve_backslashed :
    (ofWritten "[\\1]").resolve backslashed (fromThird 4) = "[\\\\5]" := by
  have replaced (text : List Char → List Char) :
      replaceReferences text (ofWritten "[\\1]").source.toList = '[' :: (text ['1'] ++ [']']) := by
    cbv
  have written : '[' :: (literally "\\5".toList ++ [']']) = "[\\\\5]".toList := by decide
  rw [resolve, replaced]
  change String.ofList ('[' :: (literally (captured backslashed (fromThird 4) ['1']) ++ [']'])) = _
  rw [backslashed_captured, written, String.ofList_toList]

theorem resolved_refersBack :
    ¬ ∀ (pattern : Pattern) (line : List Char) (captures : Nat → Option Region)
      (resolved : Pattern), pattern.refersBack = true →
        ofSource? (pattern.resolve line captures) = some resolved → resolved.refersBack = false := by
  intro unreferring
  have compiled : ofSource? "[\\\\5]" = some (ofWritten "[\\\\5]") := by cbv
  have refers : (ofWritten "[\\1]").refersBack = true := by cbv
  have still : (ofWritten "[\\\\5]").refersBack = true := by cbv
  exact Bool.false_ne_true ((unreferring _ backslashed (fromThird 4) _ refers
    (resolve_backslashed ▸ compiled)).symm.trans still)

end Pattern

end Highlighter
