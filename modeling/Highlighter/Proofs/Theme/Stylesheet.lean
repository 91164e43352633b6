import Highlighter.Proofs.Theme.Comments
import Mathlib.Data.List.TakeWhile

set_option autoImplicit false

namespace Highlighter.Theme.Stylesheet

open Text (byteLength byteLength_append)

variable {rest : List Char}

def Blank (gap : List Char) : Prop := ∀ c ∈ gap, Text.isSpace c = true

def Solid (cs : List Char) : Prop := ∀ c ∈ cs.head?, Text.isSpace c = false

instance (gap : List Char) : Decidable (Blank gap) :=
  List.decidableBAll (Text.isSpace · = true) gap

instance (cs : List Char) : Decidable (Solid cs) :=
  Option.decidableForallMem (p := (Text.isSpace · = false)) cs.head?

@[simp] theorem solid_cons {c : Char} {rest : List Char} :
    Solid (c :: rest) ↔ Text.isSpace c = false := by
  simp [Solid]

theorem Solid.append {cs rest : List Char} (solid : Solid cs) (next : Solid rest) :
    Solid (cs ++ rest) := by
  cases cs with
  | nil => exact next
  | cons c cs => simpa using solid

/-- Selectors, up to the first opening brace, and declarations, up to the first closing one. -/
structure Block where
  selectors : List Char
  body : List Char

namespace Block

def text (block : Block) : List Char :=
  block.selectors ++ '\x7b' :: (block.body ++ ['\x7d'])

def settings (block : Block) : List Setting :=
  Stylesheet.settings (Text.trimmed block.selectors) block.body

structure Complete (block : Block) : Prop where
  named : block.selectors ≠ []
  solid : Solid block.selectors
  opened : '\x7b' ∉ block.selectors
  closed : '\x7d' ∉ block.body

end Block

inductive Blocks : List Char → List Block → Prop where
  | nil : Blocks [] []
  | cons {gap text : List Char} {block : Block} {blocks : List Block} (blank : Blank gap)
      (complete : block.Complete) (further : Blocks text blocks) :
      Blocks (gap ++ block.text ++ text) (block :: blocks)

/-- A text without comments that starts with no complete block, and its fault. -/
inductive Broken : List Char → Error → Prop where
  | missingBlock {gap rule : List Char} {c : Char} (blank : Blank gap)
      (solid : Text.isSpace c = false) (never : '\x7b' ∉ c :: rule) :
      Broken (gap ++ c :: rule) ⟨byteLength gap, .missingBlock⟩
  | openBlock {gap selectors body : List Char} (blank : Blank gap) (solid : Solid selectors)
      (opened : '\x7b' ∉ selectors) (never : '\x7d' ∉ body) :
      Broken (gap ++ (selectors ++ '\x7b' :: body))
        ⟨byteLength gap + byteLength selectors, .openBlock⟩
  | missingSelector {gap body rest : List Char} (blank : Blank gap) (closed : '\x7d' ∉ body) :
      Broken (gap ++ '\x7b' :: (body ++ '\x7d' :: rest)) ⟨byteLength gap, .missingSelector⟩

theorem blank_or_solid (cs : List Char) : Blank cs ∨
    ∃ gap c rest, cs = gap ++ c :: rest ∧ Blank gap ∧ Text.isSpace c = false := by
  induction cs with
  | nil => exact .inl fun _ => nofun
  | cons c cs ih =>
    cases space : Text.isSpace c with
    | false => exact .inr ⟨[], c, cs, rfl, fun _ => nofun, space⟩
    | true =>
      rcases ih with blank | ⟨gap, d, rest, rfl, blank, solid⟩
      · exact .inl (List.forall_mem_cons.mpr ⟨space, blank⟩)
      · exact .inr ⟨c :: gap, d, rest, rfl, List.forall_mem_cons.mpr ⟨space, blank⟩, solid⟩

theorem exists_blocks (cs : List Char) : ∃ body blocks tail, cs = body ++ tail ∧
    Blocks body blocks ∧ (Blank tail ∨ ∃ error, Broken tail error) := by
  induction length : cs.length using Nat.strong_induction_on generalizing cs with
  | _ length ih =>
    subst length
    rcases blank_or_solid cs with blank | ⟨gap, c, rule, rfl, blank, solid⟩
    · exact ⟨[], [], cs, rfl, .nil, .inl blank⟩
    · have stop {error : Error} (broken : Broken (gap ++ c :: rule) error) :
          ∃ body blocks tail, gap ++ c :: rule = body ++ tail ∧ Blocks body blocks ∧
            (Blank tail ∨ ∃ error, Broken tail error) :=
        ⟨[], [], _, rfl, .nil, .inr ⟨error, broken⟩⟩
      by_cases opens : '\x7b' ∈ c :: rule
      · obtain ⟨selectors, body, split, opened⟩ := List.eq_append_cons_of_mem opens
        have start : Solid selectors := by
          cases selectors with
          | nil => exact fun _ => nofun
          | cons d more =>
            obtain ⟨rfl, -⟩ := List.cons.inj split
            rintro _ ⟨⟩
            exact solid
        rw [split] at stop ih ⊢
        by_cases closes : '\x7d' ∈ body
        · obtain ⟨body, rest, rfl, closed⟩ := List.eq_append_cons_of_mem closes
          by_cases named : selectors = []
          · subst named
            exact stop (.missingSelector blank closed)
          · have shorter : rest.length <
                (gap ++ (selectors ++ '\x7b' :: (body ++ '\x7d' :: rest))).length := by
              simp
              omega
            obtain ⟨text, blocks, tail, rfl, further, left⟩ := ih _ shorter rest rfl
            have complete : (Block.mk selectors body).Complete := ⟨named, start, opened, closed⟩
            refine ⟨_, _, tail, ?_, .cons blank complete further, left⟩
            simp [Block.text]
        · exact stop (.openBlock blank start opened closes)
      · exact stop (.missingBlock blank solid opens)

theorem splitFirst?_eq_some {separator : Char} {before after : List Char}
    (first : separator ∉ before) :
    Text.splitFirst? separator (before ++ separator :: after) = some (before, after) := by
  induction before with
  | nil => simp [Text.splitFirst?]
  | cons c before ih =>
    obtain ⟨apart, first⟩ := not_or.mp (List.mem_cons.not.mp first)
    simp [Text.splitFirst?, Ne.symm apart, ih first]

theorem splitFirst?_self (separator : Char) (after : List Char) :
    Text.splitFirst? separator (separator :: after) = some ([], after) :=
  splitFirst?_eq_some List.not_mem_nil

theorem splitFirst?_eq_none {separator : Char} {cs : List Char} (never : separator ∉ cs) :
    Text.splitFirst? separator cs = none := by
  induction cs with
  | nil => rfl
  | cons c cs ih =>
    obtain ⟨apart, never⟩ := not_or.mp (List.mem_cons.not.mp never)
    simp [Text.splitFirst?, Ne.symm apart, ih never]

theorem takeWhile_gap {gap rule : List Char} (blank : Blank gap) (solid : Solid rule) :
    (gap ++ rule).takeWhile Text.isSpace = gap := by
  rw [List.takeWhile_append_of_pos blank]
  cases rule with
  | nil => simp
  | cons c rest => simp [solid_cons.mp solid]

theorem dropWhile_gap {gap rule : List Char} (blank : Blank gap) (solid : Solid rule) :
    (gap ++ rule).dropWhile Text.isSpace = rule := by
  rw [List.dropWhile_append_of_pos blank]
  cases rule with
  | nil => rfl
  | cons c rest => simp [solid_cons.mp solid]

theorem blocks_blank (offset : Nat) {gap : List Char} (blank : Blank gap) :
    blocks offset gap = .ok [] := by
  rw [blocks, List.dropWhile_eq_nil_iff.mpr blank]
  rfl

theorem blocks_start (offset : Nat) {gap rule : List Char} (blank : Blank gap) (solid : Solid rule)
    (present : rule ≠ []) : blocks offset (gap ++ rule) =
      match Text.splitFirst? '\x7b' rule with
      | none => .error ⟨offset + byteLength gap, .missingBlock⟩
      | some (selectors, rest) =>
        match Text.splitFirst? '\x7d' rest with
        | none => .error ⟨offset + byteLength gap + byteLength selectors, .openBlock⟩
        | some (body, rest) =>
          if selectors.all Text.isSpace then .error ⟨offset + byteLength gap, .missingSelector⟩
          else
            (blocks (offset + byteLength gap + byteLength selectors + byteLength body + 2) rest).map
              (settings (Text.trimmed selectors) body ++ ·) := by
  rw [blocks]
  simp only [dropWhile_gap blank solid, takeWhile_gap blank solid, List.isEmpty_iff, present, if_false]
  split
  · rename_i found
    rw [dropWhile_gap blank solid] at found
    rw [found]
  · rename_i found
    rw [dropWhile_gap blank solid] at found
    rw [found]
    dsimp only
    split
    · rename_i found
      rw [found]
    · rename_i found
      rw [found]

theorem blocks_broken {tail : List Char} {error : Error} (broken : Broken tail error)
    (offset : Nat) : blocks offset tail = .error ⟨offset + error.offset, error.problem⟩ := by
  cases broken with
  | missingBlock blank solid never =>
    rw [blocks_start offset blank (solid_cons.mpr solid) (List.cons_ne_nil _ _),
      splitFirst?_eq_none never]
  | openBlock blank solid opened never =>
    rw [blocks_start offset blank (solid.append (by simp [Text.isSpace])) (by simp),
      splitFirst?_eq_some opened]
    simp only [splitFirst?_eq_none never, Nat.add_assoc]
  | missingSelector blank closed =>
    rw [blocks_start offset blank (by simp [Text.isSpace]) (List.cons_ne_nil _ _), splitFirst?_self]
    simp only [splitFirst?_eq_some closed, List.all_nil, if_true]

theorem blocks_next (offset : Nat) {gap : List Char} {block : Block} (blank : Blank gap)
    (complete : block.Complete) : blocks offset (gap ++ block.text ++ rest) =
      (blocks (offset + byteLength (gap ++ block.text)) rest).map (block.settings ++ ·) := by
  obtain ⟨named, solid, opened, closed⟩ := complete
  have split : gap ++ block.text ++ rest =
      gap ++ (block.selectors ++ '\x7b' :: (block.body ++ '\x7d' :: rest)) := by
    simp [Block.text]
  have braces : byteLength (gap ++ block.text) =
      byteLength gap + byteLength block.selectors + byteLength block.body + 2 := by
    have brace (c : Char) (cs : List Char) : byteLength (c :: cs) = c.utf8Size + byteLength cs := rfl
    have sizes : '\x7b'.utf8Size = 1 ∧ '\x7d'.utf8Size = 1 ∧ byteLength [] = 0 := ⟨rfl, rfl, rfl⟩
    simp only [Block.text, byteLength_append, brace, sizes]
    omega
  have bold : block.selectors.all Text.isSpace = false := by
    obtain ⟨c, more, first⟩ := List.exists_cons_of_ne_nil named
    rw [first, solid_cons] at solid
    rw [first, List.all_cons, solid, Bool.false_and]
  rw [split, blocks_start offset blank (solid.append (by simp [Text.isSpace])) (by simp),
    splitFirst?_eq_some opened]
  simp only [splitFirst?_eq_some closed, bold, Bool.false_eq_true, if_false, braces, Nat.add_assoc]
  rfl

theorem Blocks.blocks_append {body : List Char} {found : List Block} (run : Blocks body found)
    (offset : Nat) : blocks offset (body ++ rest) =
      (blocks (offset + byteLength body) rest).map (found.flatMap Block.settings ++ ·) := by
  induction run generalizing offset with
  | nil => cases value : blocks offset rest <;> simp [byteLength, value, Except.map]
  | cons blank complete _ ih =>
    rw [List.append_assoc, blocks_next offset blank complete, ih, Except.map_map]
    simp only [byteLength_append, Nat.add_assoc, List.flatMap_cons, List.append_assoc]

def Sheet (text : List Char) (found : List Block) : Prop :=
  ∃ body gap, Blanked text (body ++ gap) ∧ Blocks body found ∧ Blank gap

/-- A text that is no stylesheet, with its fault and the byte at which the fault stands: the first
comment that stays open, or else the start of what follows the complete blocks and is none, and for a
block that stays open its brace. -/
inductive Fault : List Char → Error → Prop where
  | openComment {before blanked inner : List Char} (closed : Blanked before blanked)
      (left : ¬ closing <:+: inner) :
      Fault (before ++ opening ++ inner) ⟨byteLength before, .openComment⟩
  | missingBlock {before after rule : List Char} {c : Char} {found : List Block}
      (sheet : Sheet before found) (solid : Text.isSpace c = false)
      (blanks : Blanked (c :: after) (c :: rule)) (never : '\x7b' ∉ c :: rule) :
      Fault (before ++ c :: after) ⟨byteLength before, .missingBlock⟩
  | missingSelector {before after body rest : List Char} {found : List Block}
      (sheet : Sheet before found) (closed : '\x7d' ∉ body)
      (blanks : Blanked ('\x7b' :: after) ('\x7b' :: (body ++ '\x7d' :: rest))) :
      Fault (before ++ '\x7b' :: after) ⟨byteLength before, .missingSelector⟩
  | openBlock {before start after selectors body : List Char} {found : List Block}
      (sheet : Sheet before found) (lead : Blanked start selectors) (solid : Solid selectors)
      (opened : '\x7b' ∉ selectors) (blanks : Blanked ('\x7b' :: after) ('\x7b' :: body))
      (never : '\x7d' ∉ body) :
      Fault (before ++ start ++ '\x7b' :: after) ⟨byteLength (before ++ start), .openBlock⟩

theorem ne_blank {c : Char} (solid : Text.isSpace c = false) : c ≠ ' ' := by
  rintro rfl
  exact nomatch solid

theorem Broken.fault {text body gap : List Char} {found : List Block} {error : Error}
    (broken : Broken gap error) (run : Blocks body found) (blanks : Blanked text (body ++ gap)) :
    ∃ offset, Fault text ⟨offset, error.problem⟩ := by
  cases broken with
  | @missingBlock gap rule c blank solid never =>
    rw [← List.append_assoc] at blanks
    obtain ⟨before, after, rfl, lead, tail⟩ := blanks.split (ne_blank solid)
    exact ⟨_, .missingBlock ⟨body, gap, lead, run, blank⟩ solid tail never⟩
  | @missingSelector gap inner rest blank closed =>
    rw [← List.append_assoc] at blanks
    obtain ⟨before, after, rfl, lead, tail⟩ := blanks.split (by decide)
    exact ⟨_, .missingSelector ⟨body, gap, lead, run, blank⟩ closed tail⟩
  | @openBlock gap selectors inner blank solid opened never =>
    rw [← List.append_assoc, ← List.append_assoc] at blanks
    obtain ⟨front, after, rfl, lead, tail⟩ := blanks.split (by decide)
    cases selectors with
    | nil =>
      rw [List.append_nil] at lead
      have none : Blanked [] [] := .plain (by simp [opening])
      have fault := Fault.openBlock ⟨body, gap, lead, run, blank⟩ none solid opened tail never
      exact ⟨_, by simpa using fault⟩
    | cons c selectors =>
      obtain ⟨before, start, rfl, lead, middle⟩ := lead.split (ne_blank (solid_cons.mp solid))
      exact ⟨_, .openBlock ⟨body, gap, lead, run, blank⟩ middle solid opened tail never⟩

theorem sheet_or_fault (text : List Char) :
    (∃ found, Sheet text found) ∨ ∃ error, Fault text error := by
  rcases blanked_or_open text with ⟨blanked, blanks⟩ | ⟨before, blanked, inner, rfl, closed, left⟩
  · obtain ⟨body, found, tail, rfl, run, blank | ⟨error, broken⟩⟩ := exists_blocks blanked
    · exact .inl ⟨found, body, tail, blanks, run, blank⟩
    · obtain ⟨offset, fault⟩ := broken.fault run blanks
      exact .inr ⟨_, fault⟩
  · exact .inr ⟨_, .openComment closed left⟩

theorem Sheet.parse {source : String} {found : List Block} (sheet : Sheet source.toList found) :
    parse source = .ok (ofSettings none [] (found.flatMap Block.settings)) := by
  obtain ⟨body, gap, blanks, run, blank⟩ := sheet
  rw [Stylesheet.parse, (withoutComments_eq_ok_iff 0).mpr blanks]
  simp only [run.blocks_append, blocks_blank _ blank, Except.map, List.append_nil]

theorem parse_of_broken {source : String} {body tail : List Char} {found : List Block}
    {error : Error} (blanks : Blanked source.toList (body ++ tail)) (run : Blocks body found)
    (broken : Broken tail error) :
    parse source = .error ⟨byteLength body + error.offset, error.problem⟩ := by
  rw [parse, (withoutComments_eq_ok_iff 0).mpr blanks]
  simp only [run.blocks_append, blocks_broken broken, Except.map, Nat.zero_add]

theorem Blocks.getLast?_ne {body gap : List Char} {found : List Block} (run : Blocks body found)
    (blank : Blank gap) : (body ++ gap).getLast? ≠ some '/' := by
  have closed : body.getLast? ≠ some '/' := by
    induction run with
    | nil => simp
    | @cons _ text block _ _ _ _ ih =>
      have brace : block.text.getLast? = some '\x7d' := by
        simp [Block.text, List.getLast?_append, List.getLast?_cons]
      rw [List.getLast?_append, List.getLast?_append, brace]
      cases last : text.getLast? with
      | none => simp
      | some c => simpa [last] using ih
  rw [List.getLast?_append]
  cases last : gap.getLast? with
  | none => exact closed
  | some c =>
    have space := blank c (List.mem_of_getLast? last)
    rintro ⟨⟩
    exact nomatch space

theorem Fault.parse {source : String} {error : Error} (fault : Fault source.toList error) :
    parse source = .error error := by
  generalize whole : source.toList = text at fault
  cases fault with
  | openComment closed left =>
    have stops := (withoutComments_eq_error_iff 0 _).mpr ⟨_, _, _, whole, closed, left, rfl⟩
    rw [Stylesheet.parse, stops, Nat.zero_add]
  | missingBlock sheet solid blanks never =>
    obtain ⟨body, gap, lead, run, blank⟩ := sheet
    have all := lead.append blanks (.inl (run.getLast?_ne blank))
    rw [← whole, List.append_assoc] at all
    rw [parse_of_broken all run (.missingBlock blank solid never), ← byteLength_append,
      lead.byteLength_eq]
  | missingSelector sheet closed blanks =>
    obtain ⟨body, gap, lead, run, blank⟩ := sheet
    have all := lead.append blanks (.inl (run.getLast?_ne blank))
    rw [← whole, List.append_assoc] at all
    rw [parse_of_broken all run (.missingSelector blank closed), ← byteLength_append,
      lead.byteLength_eq]
  | openBlock sheet middle solid opened blanks never =>
    obtain ⟨body, gap, lead, run, blank⟩ := sheet
    have front := lead.append middle (.inl (run.getLast?_ne blank))
    have all := front.append blanks (.inr (by simp))
    rw [← whole, List.append_assoc, List.append_assoc] at all
    rw [parse_of_broken all run (.openBlock blank solid opened never), ← byteLength_append,
      ← byteLength_append, ← List.append_assoc, front.byteLength_eq]

theorem parse_eq_ok_iff {source : String} {theme : Theme} : parse source = .ok theme ↔
    ∃ found, Sheet source.toList found ∧
      theme = ofSettings none [] (found.flatMap Block.settings) := by
  constructor
  · intro read
    rcases sheet_or_fault source.toList with ⟨found, sheet⟩ | ⟨error, fault⟩
    · exact ⟨found, sheet, Except.ok.inj (read.symm.trans sheet.parse)⟩
    · exact nomatch read.symm.trans fault.parse
  · rintro ⟨found, sheet, rfl⟩
    exact sheet.parse

theorem parse_eq_error_iff {source : String} {error : Error} :
    parse source = .error error ↔ Fault source.toList error := by
  refine ⟨fun read => ?_, Fault.parse⟩
  rcases sheet_or_fault source.toList with ⟨found, sheet⟩ | ⟨other, fault⟩
  · exact nomatch read.symm.trans sheet.parse
  · obtain rfl := Except.error.inj (read.symm.trans fault.parse)
    exact fault

/-- Comments are blanked out and all else keeps its byte, or else the first comment that stays open is
reported where it starts. Any other fault is reported where the block at fault starts, or where its
brace stands if that stays open, in the bytes of the text with its comments. -/
theorem parse_places_faults (source : String) :
    (∀ blanked, withoutComments 0 source.toList = .ok blanked ↔
        Blanked source.toList blanked ∧ byteLength blanked = byteLength source.toList) ∧
      (∀ error, withoutComments 0 source.toList = .error error ↔ ∃ before blanked inner,
        source.toList = before ++ opening ++ inner ∧ Blanked before blanked ∧
          ¬ closing <:+: inner ∧ error = ⟨byteLength before, .openComment⟩) ∧
      ∀ error, parse source = .error error ↔ Fault source.toList error := by
  refine ⟨fun blanked => ?_, fun error => ?_, fun error => parse_eq_error_iff⟩
  · rw [withoutComments_eq_ok_iff, iff_self_and]
    exact Blanked.byteLength_eq
  · rw [withoutComments_eq_error_iff]
    simp only [Nat.zero_add]

end Highlighter.Theme.Stylesheet
