import Highlighter.Proofs.Pattern.References

set_option autoImplicit false

namespace Highlighter

namespace Pattern

variable {f : Char → Option (List Char)}

def trailing (cs : List Char) : Nat := (cs.reverse.takeWhile (· == '\\')).length

/-- The character after a backslash at this place, when the backslash is not itself escaped. -/
def escapeAt? (source : List Char) (i : Nat) : Option Char :=
  if source[i]? = some '\\' ∧ trailing (source.take i) % 2 = 0 then source[i + 1]? else none

def replacement? (f : Char → Option (List Char)) (source : List Char) (i : Nat) :
    Option (List Char) :=
  (escapeAt? source i).bind f

def writtenAt (f : Char → Option (List Char)) (source : List Char) (i : Nat) : List Char :=
  (replacement? f source i).getD
    (if 0 < i ∧ (replacement? f source (i - 1)).isSome then [] else source[i]?.toList)

def rewritten (f : Char → Option (List Char)) (source : List Char) : List Char :=
  (List.range source.length).flatMap (writtenAt f source)

theorem trailing_concat (cs : List Char) (c : Char) :
    trailing (cs ++ [c]) = if c = '\\' then trailing cs + 1 else 0 := by
  by_cases backslash : c = '\\' <;> simp [trailing, backslash]

theorem escapeAt?_append (before rest : List Char) :
    escapeAt? (before ++ rest) before.length =
      if rest.head? = some '\\' ∧ trailing before % 2 = 0 then rest[1]? else none := by
  simp [escapeAt?, List.head?_eq_getElem?, List.getElem?_append_right]

theorem escapeAt?_last {before : List Char} (even : trailing before % 2 = 0) (rest : List Char)
    (inside : 0 < before.length) : escapeAt? (before ++ rest) (before.length - 1) = none := by
  rcases before.eq_nil_or_concat' with rfl | ⟨front, c, rfl⟩
  · exact absurd inside (Nat.lt_irrefl 0)
  · have last := escapeAt?_append front (c :: rest)
    rw [if_neg] at last
    · simpa using last
    · rintro ⟨backslash, odd⟩
      obtain rfl := Option.some.inj backslash
      rw [trailing_concat, if_pos rfl] at even
      omega

theorem writtenAt_front {before : List Char} (even : trailing before % 2 = 0) (rest : List Char) :
    writtenAt f (before ++ rest) before.length =
      ((if rest.head? = some '\\' then rest[1]? else none).bind f).getD rest.head?.toList := by
  have unreplaced : ¬ (0 < before.length ∧
      (replacement? f (before ++ rest) (before.length - 1)).isSome) := by
    rintro ⟨inside, replaced⟩
    simp [replacement?, escapeAt?_last even rest inside] at replaced
  rw [writtenAt, if_neg unreplaced, replacement?, escapeAt?_append,
    List.getElem?_append_right le_rfl, Nat.sub_self, List.head?_eq_getElem?]
  simp only [even, and_true]

section

variable {before : List Char} (even : trailing before % 2 = 0)

include even

theorem trailing_escape (c : Char) : trailing (before ++ ['\\', c]) % 2 = 0 := by
  rw [List.append_cons, trailing_concat, trailing_concat]
  split
  · simp only [if_true]
    omega
  · rfl

theorem escapeAt?_escape (c : Char) (rest : List Char) :
    escapeAt? (before ++ '\\' :: c :: rest) before.length = some c ∧
      escapeAt? (before ++ '\\' :: c :: rest) (before.length + 1) = none := by
  have second := escapeAt?_append (before ++ ['\\']) (c :: rest)
  refine ⟨by simp [escapeAt?_append, even], ?_⟩
  simpa [trailing_concat, Nat.add_mod, even] using second

theorem writtenAt_escape (c : Char) (rest : List Char) :
    writtenAt f (before ++ '\\' :: c :: rest) before.length = (f c).getD ['\\'] ∧
      writtenAt f (before ++ '\\' :: c :: rest) (before.length + 1) =
        if (f c).isSome then [] else [c] := by
  obtain ⟨first, second⟩ := escapeAt?_escape even c rest
  exact ⟨by simp [writtenAt_front even], by simp [writtenAt, replacement?, first, second]⟩

end

-- By the escapes, from a place with an even number of backslashes before it.
theorem rewriteEscapes_eq_flatMap (f : Char → Option (List Char)) (before rest : List Char)
    (even : trailing before % 2 = 0) : rewriteEscapes f rest =
      (List.range' before.length rest.length).flatMap (writtenAt f (before ++ rest)) := by
  fun_induction rewriteEscapes f rest generalizing before with
  | case1 c rest text found ih =>
    have inner := ih (before ++ ['\\', c]) (trailing_escape even c)
    obtain ⟨first, second⟩ := writtenAt_escape (f := f) even c rest
    simp only [List.length_cons, List.range'_succ, List.flatMap_cons, first, second, found, inner]
    simp
  | case2 c rest kept ih =>
    have inner := ih (before ++ ['\\', c]) (trailing_escape even c)
    obtain ⟨first, second⟩ := writtenAt_escape (f := f) even c rest
    simp only [List.length_cons, List.range'_succ, List.flatMap_cons, first, second, kept, inner]
    simp
  | case3 c rest plain ih =>
    cases rest with
    | nil =>
      have last : writtenAt f (before ++ [c]) before.length = [c] := by
        simp [writtenAt_front even]
      simp [last, rewriteEscapes]
    | cons d rest =>
      have other : c ≠ '\\' := fun backslash => plain d rest backslash rfl
      have inner := ih (before ++ [c]) (by rw [trailing_concat, if_neg other])
      have first : writtenAt f (before ++ c :: d :: rest) before.length = [c] := by
        simp [writtenAt_front even, other]
      simp only [List.length_cons, List.range'_succ, List.flatMap_cons, first, inner]
      simp
  | case4 => rfl

theorem escapes_eq_filterMap (before rest : List Char) (even : trailing before % 2 = 0) :
    escapes rest =
      (List.range' before.length rest.length).filterMap (escapeAt? (before ++ rest)) := by
  fun_induction escapes rest generalizing before with
  | case1 c rest ih =>
    have inner := ih (before ++ ['\\', c]) (trailing_escape even c)
    obtain ⟨first, second⟩ := escapeAt?_escape even c rest
    simp only [List.length_cons, List.range'_succ, List.filterMap_cons, first, second, inner]
    simp
  | case2 c rest plain ih =>
    cases rest with
    | nil => simp [escapeAt?_append, escapes]
    | cons d rest =>
      have other : c ≠ '\\' := fun backslash => plain d rest backslash rfl
      have inner := ih (before ++ [c]) (by rw [trailing_concat, if_neg other])
      have first : escapeAt? (before ++ c :: d :: rest) before.length = none := by
        simp [escapeAt?_append, other]
      simp only [List.length_cons, List.range'_succ, List.filterMap_cons, first, inner]
      simp
  | case3 => rfl

theorem mem_escapes_iff {source : List Char} {c : Char} :
    c ∈ escapes source ↔ ∃ i, escapeAt? source i = some c := by
  rw [escapes_eq_filterMap [] source rfl, List.mem_filterMap]
  refine exists_congr fun i => and_iff_right_of_imp fun here => ?_
  obtain ⟨-, next⟩ := Option.ite_none_right_eq_some.mp here
  have inside : i + 1 < source.length := (List.getElem?_eq_some_iff.mp next).1
  exact List.mem_range'_1.mpr ⟨Nat.zero_le i, by simp only [List.length_nil]; omega⟩

theorem isAnchored_iff {source : List Char} : isAnchored source = true ↔
    ∃ i, escapeAt? source i = some 'A' ∨ escapeAt? source i = some 'G' := by
  simp only [isAnchored, List.any_eq_true, mem_escapes_iff, isAnchor, Bool.or_eq_true, beq_iff_eq]
  constructor
  · rintro ⟨c, ⟨i, here⟩, rfl | rfl⟩
    · exact ⟨i, .inl here⟩
    · exact ⟨i, .inr here⟩
  · rintro ⟨i, here | here⟩
    · exact ⟨'A', ⟨i, here⟩, .inl rfl⟩
    · exact ⟨'G', ⟨i, here⟩, .inr rfl⟩

theorem rewriteEscapes_eq_rewritten (f : Char → Option (List Char)) (source : List Char) :
    rewriteEscapes f source = rewritten f source := by
  rw [rewritten, List.range_eq_range']
  exact rewriteEscapes_eq_flatMap f [] source rfl

example : rewritten (anchorMask false false) ['\\', '\\', '\\', 'A', '\\'] =
    ['\\', '\\', never, '\\'] := by
  decide

abbrev Compiled := List (Nat × Option Regex)

def slot (source : List Char) (allowStart allowSearch : Bool) : Nat :=
  if isAnchored source then allowStart.toNat + 2 * allowSearch.toNat else 3

namespace Compiled

def start (source : List Char) : Compiled := [(3, Regex.compile? source)]

def get (source : List Char) (allowStart allowSearch : Bool) (compiled : Compiled) :
    Option Regex × Compiled :=
  match compiled.lookup (slot source allowStart allowSearch) with
  | some regex => (regex, compiled)
  | none =>
    let regex := Regex.compile? (masked allowStart allowSearch source)
    (regex, (slot source allowStart allowSearch, regex) :: compiled)

def after (source : List Char) (choices : List (Bool × Bool)) : Compiled :=
  choices.foldl (fun compiled choice => (compiled.get source choice.1 choice.2).2) (start source)

def Correct (source : List Char) (compiled : Compiled) : Prop :=
  ∀ allowStart allowSearch regex,
    compiled.lookup (slot source allowStart allowSearch) = some regex →
      regex = Regex.compile? (masked allowStart allowSearch source)

variable {source : List Char} {compiled : Compiled} {allowStart allowSearch : Bool}

theorem masked_of_slot {mayStart maySearch : Bool}
    (same : slot source allowStart allowSearch = slot source mayStart maySearch) :
    masked allowStart allowSearch source = masked mayStart maySearch source := by
  unfold slot at same
  split at same
  · have apart : ∀ a b c d : Bool,
        a.toNat + 2 * b.toNat = c.toNat + 2 * d.toNat → a = c ∧ b = d := by
      decide
    obtain ⟨rfl, rfl⟩ := apart _ _ _ _ same
    rfl
  · rename_i plain
    have plain : isAnchored source = false := by simpa using plain
    rw [masked_of_not_isAnchored _ _ _ plain, masked_of_not_isAnchored _ _ _ plain]

namespace Correct

theorem start (source : List Char) : Correct source (start source) := by
  intro allowStart allowSearch regex found
  -- The source itself is also what is compiled where both anchors may match.
  have last : slot source true true = 3 := by
    unfold slot
    split <;> rfl
  rw [Compiled.start, List.lookup_cons] at found
  split at found
  · rename_i same
    have whole := masked_of_slot ((beq_iff_eq.mp same).trans last.symm)
    rw [whole, masked_of_allowed]
    exact (Option.some.inj found).symm
  · exact nomatch found

theorem get (correct : Correct source compiled) (allowStart allowSearch : Bool) :
    (compiled.get source allowStart allowSearch).1 =
        Regex.compile? (masked allowStart allowSearch source) ∧
      Correct source (compiled.get source allowStart allowSearch).2 := by
  unfold Compiled.get
  split
  · rename_i regex found
    exact ⟨correct allowStart allowSearch regex found, correct⟩
  · refine ⟨rfl, fun mayStart maySearch regex found => ?_⟩
    rw [List.lookup_cons] at found
    split at found
    · rename_i same
      rw [masked_of_slot (beq_iff_eq.mp same)]
      exact (Option.some.inj found).symm
    · exact correct mayStart maySearch regex found

theorem after (source : List Char) (choices : List (Bool × Bool)) :
    Correct source (after source choices) := by
  have further (compiled : Compiled) (correct : Correct source compiled) :
      Correct source (choices.foldl (fun compiled choice =>
        (compiled.get source choice.1 choice.2).2) compiled) := by
    induction choices generalizing compiled with
    | nil => exact correct
    | cons choice rest ih => exact ih _ (correct.get choice.1 choice.2).2
  exact further _ (start source)

end Correct

end Compiled

theorem variants_of_not_refersBack {text : String} {pattern : Pattern}
    (compiled : ofSource? text = some pattern) (plain : pattern.refersBack = false)
    (allowStart allowSearch : Bool) : pattern.variants.get allowStart allowSearch =
      Regex.compile? (masked allowStart allowSearch pattern.source.toList) := by
  rw [refersBack_ofSource compiled, ← (withEndOfText_alike text.toList).1,
    ← source_ofSource compiled] at plain
  rw [← Variants.get_ofSource, congrArg variants (ofSource_written text pattern compiled),
    ofWritten, if_neg (by simp [plain])]

/-- What a pattern is searched by is its source with the anchors replaced that may not match, and
with nothing else replaced, whatever has been searched for before. -/
theorem search_masked {text : String} {pattern : Pattern} (compiled : ofSource? text = some pattern)
    (plain : pattern.refersBack = false) :
    let source := pattern.source.toList
    source = rewritten (fun c => if c == 'z' then some endOfText else none) text.toList ∧
    (∀ allowStart allowSearch,
      let regex := Regex.compile? (rewritten (anchorMask allowStart allowSearch) source)
      (∀ {line : List Char} (cursor : Text.Cursor line),
        pattern.search? cursor allowStart allowSearch = regex.bind (·.search? cursor)) ∧
      pattern.variants.get allowStart allowSearch = regex ∧
      ∀ earlier, ((Compiled.after source earlier).get source allowStart allowSearch).1 = regex) ∧
    (isAnchored source = true ↔
      ∃ i, escapeAt? source i = some 'A' ∨ escapeAt? source i = some 'G') ∧
    rewritten (anchorMask true true) source = source := by
  intro source
  simp only [← rewriteEscapes_eq_rewritten]
  refine ⟨source_ofSource compiled, fun allowStart allowSearch => ?_, isAnchored_iff,
    masked_of_allowed source⟩
  have variant := variants_of_not_refersBack compiled plain allowStart allowSearch
  refine ⟨fun cursor => ?_, variant, fun earlier => ?_⟩
  · rw [search?, variant]
    rfl
  · exact ((Compiled.Correct.after source earlier).get allowStart allowSearch).1

theorem search_masked_escaped :
    ∃ pattern, ofSource? "\\\\A\\A" = some pattern ∧
      ∀ {line : List Char} (cursor : Text.Cursor line), pattern.search? cursor false true =
        (Regex.compile? ['\\', '\\', 'A', never]).bind (·.search? cursor) := by
  have sound : (ofSource? "\\\\A\\A").isSome = true := by cbv
  obtain ⟨pattern, compiled⟩ := Option.isSome_iff_exists.mp sound
  have plain : pattern.refersBack = false := by
    rw [refersBack_ofSource compiled]
    cbv
  have masked : rewritten (anchorMask false true) pattern.source.toList =
      ['\\', '\\', 'A', never] := by
    rw [source_ofSource compiled]
    decide
  obtain ⟨-, searches, -⟩ := search_masked compiled plain
  exact ⟨pattern, compiled, fun cursor => masked ▸ (searches false true).1 cursor⟩

end Pattern

end Highlighter
