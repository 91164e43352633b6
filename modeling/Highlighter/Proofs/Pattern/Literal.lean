import Highlighter.Pattern.Basic
import Highlighter.Proofs.Regex.Search
import Mathlib

set_option autoImplicit false

namespace Highlighter

namespace Text.Category

theorem exists_run {code low high : Nat} {category : Category} (within : low < high)
    (starts : ∀ run, runs[low]? = some run → run.1 ≤ code)
    (ends : ∀ run, runs[high]? = some run → code < run.1)
    (known : search code low high = category) (assigned : category ≠ .cn) :
    ∃ (i start : Nat), runs[i]? = some (start, category) ∧ start ≤ code ∧
      ∀ run, runs[i + 1]? = some run → code < run.1 := by
  fun_induction search code low high with
  | case1 low high _ middle start _ here reached ih =>
    have within : middle < high := by omega
    refine ih within (fun run same => ?_) ends known
    obtain rfl := Option.some.inj (here.symm.trans same)
    exact reached
  | case2 low high _ middle start _ here early ih =>
    have within : low < middle := by omega
    refine ih within starts (fun run same => ?_) known
    obtain rfl := Option.some.inj (here.symm.trans same)
    exact Nat.lt_of_not_le early
  | case3 => exact absurd known.symm assigned
  | case4 low high last start _ here =>
    obtain rfl : high = low + 1 := by omega
    subst known
    exact ⟨low, start, here, starts _ here, ends⟩
  | case5 => exact absurd known.symm assigned

end Text.Category

namespace Pattern

open Text

def marks : List Char := "-\\{}*+?|^$.,[]()#".toList

def blanks : List Nat :=
  [9, 10, 11, 12, 13, 0x20, 0x85, 0xA0, 0x1680, 0x2000, 0x2001, 0x2002, 0x2003, 0x2004, 0x2005,
    0x2006, 0x2007, 0x2008, 0x2009, 0x200A, 0x2028, 0x2029, 0x202F, 0x205F, 0x3000]

theorem mem_blanks {c : Char} (blank : isSpace c = true) : c.toNat ∈ blanks := by
  simp only [isSpace, Bool.or_eq_true, Bool.and_eq_true, decide_eq_true_eq, beq_iff_eq] at blank
  generalize c.toNat = code at blank ⊢
  rcases blank with (((((((((narrow | rfl) | rfl) | rfl) | rfl) | wide) | rfl) | rfl) | rfl) |
    rfl) | rfl
  any_goals decide
  · obtain ⟨low, high⟩ := narrow
    interval_cases code <;> decide
  · obtain ⟨low, high⟩ := wide
    interval_cases code <;> decide

theorem special_of_all (holds : Char → Bool) {c : Char} (special : isSpecial c = true)
    (all : (marks ++ blanks.map Char.ofNat).all holds = true) : holds c = true := by
  refine List.all_eq_true.mp all c (List.mem_append.mpr ?_)
  rcases Bool.or_eq_true_iff.mp special with mark | blank
  · exact .inl (List.contains_iff_mem.mp mark)
  · exact .inr (List.mem_map.mpr ⟨c.toNat, mem_blanks blank, Char.ofNat_toNat c⟩)

theorem decimal_runs : ((Category.runs.toList.zip Category.runs.toList.tail).all fun (run, next) =>
    run.2 != .nd || blanks.all fun code => code < run.1 || next.1 ≤ code) = true := by
  decide +kernel

theorem first_run : Category.runs[0]? = some (0, .cc) := by
  decide +kernel

theorem last_run : Category.runs[Category.runs.size - 1]? = some (0x10FFFE, .cn) := by
  decide +kernel

theorem not_decimal_of_blank {code : Nat} (blank : code ∈ blanks) :
    Category.ofCode code ≠ .nd := by
  intro decimal
  have filled : 0 < Category.runs.size := (Array.getElem?_eq_some_iff.mp first_run).1
  have starts (run : Nat × Category) (first : Category.runs[0]? = some run) : run.1 ≤ code := by
    rw [first_run] at first
    exact Option.some.inj first ▸ Nat.zero_le code
  have ends (run : Nat × Category) (past : Category.runs[Category.runs.size]? = some run) :
      code < run.1 := by
    simp at past
  obtain ⟨i, start, here, reached, ends⟩ :=
    Category.exists_run filled starts ends decimal (by decide)
  have inside := (Array.getElem?_eq_some_iff.mp here).1
  by_cases last : i + 1 = Category.runs.size
  · rw [show i = Category.runs.size - 1 by omega, last_run] at here
    exact nomatch here
  · have next : Category.runs[i + 1]? = some Category.runs[i + 1] :=
      Array.getElem?_eq_getElem (by omega)
    have listed : ((start, .nd), Category.runs[i + 1]) ∈
        Category.runs.toList.zip Category.runs.toList.tail := by
      apply List.mem_of_getElem? (i := i)
      rw [List.getElem?_zip_eq_some, List.getElem?_tail, Array.getElem?_toList,
        Array.getElem?_toList]
      exact ⟨here, next⟩
    have apart : ∀ code ∈ blanks, code < start ∨ Category.runs[i + 1].1 ≤ code := by
      simpa using List.all_eq_true.mp decimal_runs _ listed
    have before := ends _ next
    have aside := apart code blank
    omega

theorem isDecimal_of_special {c : Char} (special : isSpecial c = true) : isDecimal c = false := by
  by_cases ascii : isAscii c = true
  · have plain := special_of_all (fun c => !isAscii c || !c.isDigit) special (by cbv)
    simpa [isDecimal, ascii] using plain
  · have blank : isSpace c = true := by
      have other := special_of_all (fun c => isAscii c || isSpace c) special (by cbv)
      simpa [ascii] using other
    have assigned : Category.of c ≠ .nd := not_decimal_of_blank (mem_blanks blank)
    simpa [isDecimal, ascii] using assigned

theorem isAlpha_of_special {c : Char} (special : isSpecial c = true) : c.isAlpha = false := by
  simpa using special_of_all (fun c => !c.isAlpha) special (by cbv)

theorem ne_of_plain {c mark : Char} (plain : isSpecial c = false) (member : mark ∈ marks) :
    c ≠ mark := by
  rintro rfl
  rw [isSpecial, Bool.or_eq_false_iff] at plain
  exact absurd (List.contains_iff_mem.mpr member) (Bool.eq_false_iff.mp plain.1)

theorem literally_cons (c : Char) (rest : List Char) :
    literally (c :: rest) = (if isSpecial c then ['\\', c] else [c]) ++ literally rest := rfl

theorem literally_special {c : Char} (special : isSpecial c = true) (rest : List Char) :
    literally (c :: rest) = '\\' :: c :: literally rest := by
  rw [literally_cons, if_pos special]
  rfl

theorem literally_plain {c : Char} (plain : isSpecial c = false) (rest : List Char) :
    literally (c :: rest) = c :: literally rest := by
  rw [literally_cons, if_neg (by simp [plain])]
  rfl

theorem literally_ne {mark : Char} (listed : mark ∈ marks) (other : mark ≠ '\\')
    (text tail : List Char) : literally text ≠ mark :: tail := by
  intro same
  cases text with
  | nil => exact nomatch same
  | cons c rest =>
    cases special : isSpecial c with
    | true =>
      rw [literally_special special] at same
      exact other (List.cons.inj same).1.symm
    | false =>
      rw [literally_plain special] at same
      exact ne_of_plain special listed (List.cons.inj same).1

theorem literally_cons_ne_nil (c : Char) (rest : List Char) : literally (c :: rest) ≠ [] := by
  rw [literally_cons]
  split <;> exact List.cons_ne_nil _ _

end Pattern

namespace Regex

open Pattern (literally)

theorem head_ne_letter {c letter : Char} {rest tail : List Char} (other : c.isAlpha = false)
    (alpha : letter.isAlpha = true) : c :: rest ≠ letter :: tail := by
  intro same
  obtain ⟨rfl, -⟩ := List.cons.inj same
  exact absurd alpha (Bool.eq_false_iff.mp other)

namespace Escape

theorem set_other {c : Char} (other : c.isAlpha = false) (rest : List Char) :
    set? (c :: rest) = none := by
  unfold set?
  split
  case h_11 => rfl
  all_goals exact absurd ‹_› (head_ne_letter other rfl)

theorem plain_other {c : Char} (other : c.isAlpha = false) : plainEscape c = c := by
  unfold plainEscape
  split
  case h_9 => rfl
  all_goals exact absurd other (by decide)

theorem single_other {c : Char} (other : c.isAlpha = false) (rest : List Char) :
    single? (c :: rest) = some (c, rest) := by
  unfold single?
  split
  case h_4 here =>
    obtain ⟨rfl, rfl⟩ := List.cons.inj here
    rw [plain_other other]
  case h_5 here => exact nomatch here
  all_goals exact absurd ‹_› (head_ne_letter other rfl)

theorem letter_other {c : Char} (other : c.isAlpha = false) (rest : List Char) :
    letter? (c :: rest) = some (⟨c, true⟩, rest) := by
  unfold letter?
  split
  case h_5 => rw [single_other other, Option.map_some]
  all_goals exact absurd ‹_› (head_ne_letter other rfl)

end Escape

namespace Parse

variable {flags : Flags} (count : Nat) (names : List (String × Nat))

theorem run_rest (reading : Reading) : rest.run reading = some (reading.rest, reading) := rfl

theorem afterGaps_literally (text : List Char) (fuel : Nat) :
    afterGaps false (fuel + 1) (literally text) = some (literally text) := by
  unfold afterGaps
  split
  case h_3 => rfl
  case h_4 here => rw [here]
  all_goals exact absurd ‹_› (Pattern.literally_ne (by decide) (by decide) text _)

theorem skipGaps_literally (dense : flags.spaced = false) (text : List Char) :
    (skipGaps flags).run ⟨literally text, count, names⟩ =
      some ((), ⟨literally text, count, names⟩) := by
  unfold skipGaps
  rw [StateT.run_bind, run_rest]
  simp only [Option.bind_eq_bind, Option.bind_some, dense, afterGaps_literally]
  rfl

theorem read_literally (text : List Char) : Repeat.read? (literally text) = some none := by
  unfold Repeat.read?
  split
  case h_5 => rfl
  all_goals exact absurd ‹_› (Pattern.literally_ne (by decide) (by decide) text _)

theorem repeats_literally (dense : flags.spaced = false) (text : List Char) (body : Expr)
    (fuel : Nat) :
    (repeats (fuel + 1) flags body).run ⟨literally text, count, names⟩ =
      some (body, ⟨literally text, count, names⟩) := by
  unfold repeats
  rw [StateT.run_bind, skipGaps_literally count names dense, Option.bind_eq_bind, Option.bind_some,
    StateT.run_bind, run_rest, Option.bind_eq_bind, Option.bind_some, read_literally]
  rfl

section

variable (cased : flags.anyCase = false)

include cased

theorem escape_other {c : Char} (other : c.isAlpha = false) (rest : List Char) :
    (escape flags).run ⟨c :: rest, count, names⟩ =
      some (.set (.char c), ⟨rest, count, names⟩) := by
  unfold escape
  rw [StateT.run_bind, run_rest]
  simp only [Option.bind_eq_bind, Option.bind_some]
  split
  case h_1 here => exact nomatch here
  case h_16 here =>
    rw [Escape.set_other other]
    have read : (step Escape.letter?).run ⟨c :: rest, count, names⟩ =
        some (⟨c, true⟩, ⟨rest, count, names⟩) := by
      unfold step
      rw [StateT.run_bind, run_rest]
      simp only [Option.bind_eq_bind, Option.bind_some, Escape.letter_other other]
      rfl
    rw [StateT.run_bind, read]
    simp [Expr.letter, Expr.char, cased]
  all_goals exact absurd ‹_› (head_ne_letter other rfl)

theorem item_plain {c : Char} (plain : Pattern.isSpecial c = false) (rest : List Char)
    (fuel : Nat) :
    (item (fuel + 1) flags).run ⟨c :: rest, count, names⟩ =
      some (.set (.char c), ⟨rest, count, names⟩) := by
  unfold item
  rw [StateT.run_bind, run_rest]
  simp only [Option.bind_eq_bind, Option.bind_some]
  split
  case h_12 here =>
    obtain ⟨rfl, rfl⟩ := List.cons.inj here
    rw [Expr.char, if_neg (by simp [cased])]
    rfl
  case h_13 here => exact nomatch here
  all_goals
    rename_i same
    exact absurd (List.cons.inj same).1 (Pattern.ne_of_plain plain (by decide))

theorem item_literally (c : Char) (text : List Char) (fuel : Nat) :
    (item (fuel + 1) flags).run ⟨literally (c :: text), count, names⟩ =
      some (.set (.char c), ⟨literally text, count, names⟩) := by
  cases special : Pattern.isSpecial c with
  | true =>
    rw [Pattern.literally_special special]
    unfold item
    rw [StateT.run_bind, run_rest]
    exact escape_other count names cased (Pattern.isAlpha_of_special special) (literally text)
  | false =>
    rw [Pattern.literally_plain special]
    exact item_plain count names cased special (literally text) fuel

theorem items_literally (dense : flags.spaced = false) (text : List Char) (fuel : Nat)
    (enough : text.length + 2 ≤ fuel) :
    (items fuel flags).run ⟨literally text, count, names⟩ =
      some (text.map fun c => .set (.char c), ⟨[], count, names⟩) := by
  induction text generalizing fuel with
  | nil =>
    obtain ⟨fuel, rfl⟩ := Nat.exists_eq_add_of_le' (Nat.one_le_of_lt enough)
    unfold items
    rw [StateT.run_bind, skipGaps_literally count names dense]
    rfl
  | cons c rest ih =>
    simp only [List.length_cons] at enough
    obtain ⟨fuel, rfl⟩ := Nat.exists_eq_add_of_le' (show 2 ≤ fuel by omega)
    unfold items
    rw [StateT.run_bind, skipGaps_literally count names dense, Option.bind_eq_bind,
      Option.bind_some, StateT.run_bind, run_rest, Option.bind_eq_bind, Option.bind_some]
    dsimp only
    split
    case h_1 here => exact absurd here (Pattern.literally_cons_ne_nil c rest)
    case h_4 =>
      rw [StateT.run_bind, item_literally count names cased, Option.bind_eq_bind, Option.bind_some,
        StateT.run_bind, repeats_literally count names dense, Option.bind_eq_bind,
        Option.bind_some, StateT.run_bind, ih _ (by omega)]
      rfl
    all_goals exact absurd ‹_› (Pattern.literally_ne (by decide) (by decide) (c :: rest) _)

end

end Parse

namespace Expr

def isPlain : Expr → Bool
  | .empty | .set _ => true
  | .seq a b => a.isPlain && b.isPlain
  | _ => false

section

variable {expr : Expr} (plain : expr.isPlain = true)

include plain

theorem bare_of_isPlain : expr.groups = [] ∧ expr.references = [] ∧ expr.callees = [] ∧
    expr.capturesBehind = false := by
  induction expr with
  | seq a b first second =>
    obtain ⟨left, right⟩ := Bool.and_eq_true_iff.mp plain
    obtain ⟨groupsA, referencesA, calleesA, behindA⟩ := first left
    obtain ⟨groupsB, referencesB, calleesB, behindB⟩ := second right
    refine ⟨?_, ?_, ?_, ?_⟩
    · rw [groups, groupsA, groupsB, List.append_nil]
    · rw [references, referencesA, referencesB, List.append_nil]
    · rw [callees, calleesA, calleesB, List.append_nil]
    · rw [capturesBehind, behindA, behindB, Bool.or_false]
  | empty | set => exact ⟨rfl, rfl, rfl, rfl⟩
  | _ => exact absurd plain Bool.false_ne_true

theorem recurrence_of_isPlain (regex : Regex) (home depth : Nat) (passed : List Nat)
    (atHead : Bool) : expr.recurrence regex home depth passed atHead = .never := by
  rw [recurrence.eq_def]
  induction expr generalizing atHead with
  | seq a b first second =>
    obtain ⟨left, right⟩ := Bool.and_eq_true_iff.mp plain
    rw [recurrence.follow, first left, second right]
    rfl
  | empty | set => simp [recurrence.follow]
  | _ => exact absurd plain Bool.false_ne_true

end

end Expr

theorem isSound_of_isPlain {regex : Regex} (plain : regex.expr.isPlain = true) :
    regex.isSound = true := by
  obtain ⟨groups, references, callees, behind⟩ := Expr.bare_of_isPlain plain
  simp [isSound, endsEveryCall, groups, references, callees, behind,
    Expr.recurrence_of_isPlain plain, Expr.Recurrence.never]

def Expr.literal (text : List Char) : Expr := .chain (text.map fun c => .set (.char c))

namespace Expr

theorem literal_cons (c : Char) (rest : List Char) :
    literal (c :: rest) = if rest.isEmpty then .set (.char c) else .seq (.set (.char c)) (literal rest) := by
  cases rest <;> rfl

theorem literal_isPlain (text : List Char) : (literal text).isPlain = true := by
  induction text with
  | nil => rfl
  | cons c rest ih =>
    rw [literal_cons]
    split
    · rfl
    · simp [isPlain, ih]

theorem sequence_letters (text : List Char) :
    sequence (text.map fun c => .set (.char c)) = literal text := by
  have merged : mergeFolded (text.map fun c => .set (.char c)) =
      text.map fun c => .set (.char c) := by
    induction text with
    | nil => rfl
    | cons c rest ih => rw [List.map_cons, mergeFolded, ih]; nofun
  rw [sequence, merged, literal]

end Expr

theorem length_le_literally (text : List Char) : text.length ≤ (literally text).length := by
  induction text with
  | nil => exact le_rfl
  | cons c rest ih =>
    rw [Pattern.literally_cons]
    split <;> simp <;> omega

namespace Parse

variable {flags : Flags} (count : Nat) (names : List (String × Nat))
  (cased : flags.anyCase = false) (dense : flags.spaced = false)

include cased dense

theorem sequence_literally (text : List Char) (fuel : Nat) (enough : text.length + 2 ≤ fuel) :
    (sequence (fuel + 1) flags).run ⟨literally text, count, names⟩ =
      some (Expr.literal text, ⟨[], count, names⟩) := by
  unfold sequence
  rw [StateT.run_bind, items_literally count names cased dense text fuel enough,
    Option.bind_eq_bind, Option.bind_some, Expr.sequence_letters]
  rfl

theorem alternatives_literally (text : List Char) (fuel : Nat) (enough : text.length + 2 ≤ fuel) :
    (alternatives (fuel + 2) flags).run ⟨literally text, count, names⟩ =
      some (Expr.literal text, ⟨[], count, names⟩) := by
  unfold alternatives
  rw [StateT.run_bind, sequence_literally count names cased dense text fuel enough]
  rfl

end Parse

theorem parse_literally (text : List Char) :
    parse? (literally text) = some (Expr.literal text, []) := by
  have longer := length_le_literally text
  have cased : Flags.anyCase ⟨false, false, false⟩ = false := rfl
  have whole := Parse.alternatives_literally 0 [] cased rfl text
    (6 * (literally text).length + 4) (by omega)
  simp only [parse?]
  rw [whole]
  rfl

theorem compile_literally (text : List Char) :
    compile? (literally text) = some ⟨Expr.literal text, []⟩ := by
  unfold compile?
  rw [parse_literally]
  exact if_pos (isSound_of_isPlain (Expr.literal_isPlain text))

section

variable {text : List Char}

open Text (Cursor byteLength)

theorem after_of_last {cursor : Cursor text} (last : cursor.next? = none) : cursor.after = [] := by
  obtain ⟨before, after, offset, joined, measured⟩ := cursor
  cases after with
  | nil => rfl
  | cons c rest => exact nomatch last

theorem prefix_of_afterText {wanted : List Char} {cursor next : Cursor text}
    (read : afterText? wanted cursor = some next) :
    wanted <+: cursor.after ∧ next.offset = cursor.offset + byteLength wanted := by
  fun_induction afterText? wanted cursor with
  | case1 cursor =>
    obtain rfl := Option.some.inj read
    exact ⟨List.nil_prefix, rfl⟩
  | case2 cursor c rest d place step same ih =>
    obtain ⟨stands, far⟩ := ih read
    have moved := Cursor.offset_of_next? step
    rw [Cursor.after_of_next? step, beq_iff_eq.mp same]
    refine ⟨List.cons_prefix_cons.mpr ⟨rfl, stands⟩, ?_⟩
    rw [byteLength]
    omega
  | case3 => exact nomatch read
  | case4 => exact nomatch read

theorem not_prefix_of_afterText {wanted : List Char} {cursor : Cursor text}
    (missed : afterText? wanted cursor = none) : ¬ wanted <+: cursor.after := by
  fun_induction afterText? wanted cursor with
  | case1 => exact nomatch missed
  | case2 cursor c rest d place step same ih =>
    rw [Cursor.after_of_next? step, List.cons_prefix_cons]
    exact fun stands => ih missed stands.2
  | case3 cursor c rest d place step other =>
    rw [Cursor.after_of_next? step, List.cons_prefix_cons]
    exact fun stands => other (beq_iff_eq.mpr stands.1)
  | case4 cursor c rest last =>
    rw [after_of_last last]
    exact fun stands => nomatch List.prefix_nil.mp stands

theorem afterText_cons (c : Char) (rest : List Char) (cursor : Cursor text) :
    afterText? (c :: rest) cursor = (afterSet? (.char c) cursor).bind (afterText? rest) := by
  rw [afterText?, afterSet?]
  split
  · rename_i d next _
    have same : (CharSet.char c).mem d = (c == d) := Bool.beq_comm
    rw [same]
    split <;> rfl
  · rfl

theorem run_literal (origin : Cursor text) (call : Callee → Run text) (wanted : List Char)
    (accept : State text → Option (State text)) (state : State text) :
    Expr.run origin call (Expr.literal wanted) accept state =
      (afterText? wanted state.cursor).bind fun next => accept (state.goTo next) := by
  induction wanted generalizing state with
  | nil => rfl
  | cons c rest ih =>
    rw [Expr.literal_cons, afterText_cons]
    split
    · rename_i last
      obtain rfl := List.isEmpty_iff.mp last
      rw [Expr.run]
      split <;> rename_i here <;> rw [here] <;> rfl
    · rw [Expr.run, Expr.run]
      split
      · rename_i next here
        rw [here, Option.bind_some, ih]
        rfl
      · rename_i here
        rw [here]
        rfl

def occurrence? (wanted : List Char) (place : Cursor text) : Option Match :=
  if wanted.isPrefixOf place.after then
    some ⟨⟨place.offset, place.offset + byteLength wanted⟩, []⟩
  else none

theorem matchAt_literal (wanted : List Char) (depth : Nat) (origin place : Cursor text) :
    (⟨Expr.literal wanted, []⟩ : Regex).matchAt? 0 depth origin place = occurrence? wanted place := by
  obtain ⟨call, called⟩ : ∃ call, run ⟨Expr.literal wanted, []⟩ origin depth =
      Expr.run origin call := by
    cases depth <;> exact ⟨_, rfl⟩
  rw [matchAt?, called, run_literal, occurrence?]
  change Option.map _ ((afterText? wanted place).bind _) = _
  cases read : afterText? wanted place with
  | none =>
    have missing := not_prefix_of_afterText read
    rw [if_neg (by simpa using missing)]
    rfl
  | some next =>
    obtain ⟨stands, far⟩ := prefix_of_afterText read
    rw [if_pos (by simpa using stands), ← far]
    simp [State.found, State.goTo, State.start]
    omega

theorem search_literal (wanted : List Char) (origin : Cursor text) :
    (⟨Expr.literal wanted, []⟩ : Regex).search? origin =
      firstMatch? (occurrence? wanted) origin := by
  have ungrouped : (⟨Expr.literal wanted, []⟩ : Regex).groupCount = 0 := by
    rw [groupCount, (Expr.bare_of_isPlain (Expr.literal_isPlain wanted)).1, List.length_nil]
  rw [search?, ungrouped]
  exact congrArg (firstMatch? · origin) (funext (matchAt_literal wanted _ origin))

theorem start_of_occurrence {wanted : List Char} {place : Cursor text} {found : Match}
    (here : occurrence? wanted place = some found) :
    wanted <+: place.after ∧ found.whole.start = place.offset := by
  unfold occurrence? at here
  split at here
  · rename_i stands
    obtain rfl := Option.some.inj here
    exact ⟨List.isPrefixOf_iff_prefix.mp stands, rfl⟩
  · exact nomatch here

theorem first_occurrence_here_iff (wanted : List Char) (cursor : Cursor text) :
    (∃ found, firstMatch? (occurrence? wanted) cursor = some found ∧
      found.whole.start = cursor.offset) ↔ wanted <+: cursor.after := by
  constructor
  · rintro ⟨found, searched, start⟩
    unfold firstMatch? at searched
    split at searched
    · rename_i here
      exact (start_of_occurrence here).1
    · split at searched
      · rename_i c next step
        obtain ⟨place, later, here⟩ := firstMatch_some _ next found searched
        have moved := Cursor.offset_of_next? step
        have wide := c.utf8Size_pos
        have begun := (start_of_occurrence here).2
        omega
      · cases searched
  · intro stands
    have here : occurrence? wanted cursor =
        some ⟨⟨cursor.offset, cursor.offset + byteLength wanted⟩, []⟩ :=
      if_pos (List.isPrefixOf_iff_prefix.mpr stands)
    refine ⟨⟨⟨cursor.offset, cursor.offset + byteLength wanted⟩, []⟩, ?_, rfl⟩
    unfold firstMatch?
    rw [here]

end

end Regex

end Highlighter
