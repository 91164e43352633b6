import Highlighter.Proofs.Selector.Growth
import Highlighter.Proofs.Theme.Colors

set_option autoImplicit false

namespace Highlighter

inductive FontFlag where
  | bold
  | italic
  | underline
  | strikethrough
  deriving DecidableEq, Repr

def FontFlag.ofStyle (flag : FontFlag) (style : Style) : Option Bool :=
  match flag with
  | .bold => style.bold
  | .italic => style.italic
  | .underline => style.underline
  | .strikethrough => style.strikethrough

namespace Style

variable {α : Type}

structure IsLayered (part : Style → Option α) : Prop where
  empty : part Style.empty = none
  overlay : ∀ lower upper, part (lower.overlay upper) = (part upper).or (part lower)

theorem color_isLayered (field : ColorField) : IsLayered field.ofStyle where
  empty := by cases field <;> rfl
  overlay := field.ofStyle_overlay

theorem flag_isLayered (flag : FontFlag) : IsLayered flag.ofStyle where
  empty := by cases flag <;> rfl
  overlay := fun _ _ => by cases flag <;> exact Option.orElse_eq_or

def flags (style : Style) : FontStyle :=
  FontStyle.ofFlags (style.bold == some true) (style.italic == some true)
    (style.underline == some true) (style.strikethrough == some true)

theorem masked_flags (style : Style) : style.flags.masked = style.flags :=
  FontStyle.masked_ofFlags _ _ _ _

theorem flags_eq_iff (a b : Style) :
    a.flags = b.flags ↔ ∀ flag : FontFlag, flag.ofStyle a = some true ↔ flag.ofStyle b = some true := by
  have bits (b i u s b' i' u' s' : Bool) :
      FontStyle.ofFlags b i u s = FontStyle.ofFlags b' i' u' s' ↔
        b = b' ∧ i = i' ∧ u = u' ∧ s = s' := by
    revert b i u s b' i' u' s'
    decide
  have each (x y : Option Bool) : (x == some true) = (y == some true) ↔
      (x = some true ↔ y = some true) := by
    rw [Bool.eq_iff_iff, beq_iff_eq, beq_iff_eq]
  simp only [flags, bits, each]
  constructor
  · rintro ⟨bold, italic, underline, strikethrough⟩ flag
    cases flag <;> assumption
  · intro all
    exact ⟨all .bold, all .italic, all .underline, all .strikethrough⟩

theorem font?_eq_none_iff (style : Style) :
    style.font? = none ↔ ∀ flag : FontFlag, flag.ofStyle style = none := by
  unfold font?
  constructor
  · intro bare flag
    split at bare
    · rename_i unset
      simp only [Bool.and_eq_true, Option.isNone_iff_eq_none] at unset
      obtain ⟨⟨⟨bold, italic⟩, underline⟩, strikethrough⟩ := unset
      cases flag <;> assumption
    · exact nomatch bare
  · intro unset
    have bold := unset .bold
    have italic := unset .italic
    have underline := unset .underline
    have strikethrough := unset .strikethrough
    simp only [FontFlag.ofStyle] at bold italic underline strikethrough
    simp [bold, italic, underline, strikethrough]

theorem flags_of_font? {style : Style} {font : FontStyle} (given : style.font? = some font) :
    font = style.flags := by
  unfold font? at given
  split at given
  · exact nomatch given
  · exact (Option.some.inj given).symm

theorem font?_getD (style : Style) : style.font?.getD .empty = style.flags := by
  cases given : style.font? with
  | some font => exact flags_of_font? given
  | none =>
    refine ((flags_eq_iff Style.empty style).mpr fun flag => ?_)
    rw [(font?_eq_none_iff style).mp given flag]
    cases flag <;> rfl

end Style

open Style (IsLayered)

namespace Theme

namespace Target

theorem isSome_deepest? (name : String) (depth : Nat) (scopes : List String) :
    (deepest? name depth scopes).isSome = scopes.any (hasSegment name) := by
  induction scopes generalizing depth with
  | nil => rfl
  | cons scope rest ih =>
    rw [List.any_cons, ← ih (depth + 1), deepest?]
    cases deepest? name (depth + 1) rest with
    | some found => simp
    | none => cases hasSegment name scope <;> rfl

theorem isSome_classesDepth? (scopes names : List String) :
    (classesDepth? scopes names).isSome =
      names.all fun name => scopes.any (hasSegment name) := by
  induction names with
  | nil => rfl
  | cons name rest ih =>
    rw [List.all_cons, ← ih, ← isSome_deepest? name 0, classesDepth?]
    cases deepest? name 0 scopes <;> cases classesDepth? scopes rest <;> rfl

def isPlain : Target → Bool
  | .onScopes selector => selector.isPlain
  | .onClasses _ => true

theorem rank?_append {target : Target} {scopes : List String} (more : List String)
    (plain : target.isPlain = true) (matched : (target.rank? scopes).isSome = true) :
    (target.rank? (scopes ++ more)).isSome = true := by
  cases target with
  | onScopes selector =>
    simp only [rank?, Selector.isSome_rank?] at matched ⊢
    exact Selector.applies_append more plain matched
  | onClasses names =>
    simp only [rank?, Option.isSome_map, isSome_classesDepth?] at matched ⊢
    refine List.all_eq_true.mpr fun name member => ?_
    rw [List.any_append, List.all_eq_true.mp matched name member, Bool.true_or]

end Target

def Rule.Matches (rule : Rule) (scopes : List String) : Prop :=
  (rule.target.rank? scopes).isSome = true

variable {α : Type} {theme : Theme} {part : Style → Option α} {scopes : List String}

theorem mem_ranked {rule : Rule} :
    rule ∈ (theme.ranked scopes).map (·.rule) ↔ rule ∈ theme.rules ∧ rule.Matches scopes := by
  have sorted := (List.mergeSort_perm (theme.matched scopes) fun a b => !b.before a).map (·.rule)
  rw [ranked, sorted.mem_iff, List.mem_map]
  constructor
  · rintro ⟨found, member, rfl⟩
    obtain ⟨rule, known, here⟩ := List.mem_filterMap.mp member
    obtain ⟨rank, ranked, rfl⟩ := Option.map_eq_some_iff.mp here
    exact ⟨known, Option.isSome_of_eq_some ranked⟩
  · rintro ⟨known, matched⟩
    obtain ⟨rank, ranked⟩ := Option.isSome_iff_exists.mp matched
    exact ⟨⟨rank, rule⟩, List.mem_filterMap.mpr ⟨rule, known, by rw [ranked]; rfl⟩, rfl⟩

theorem part_foldl (layered : IsLayered part) (found : List Matched) (lower : Style) :
    part (found.foldl (fun style found => style.overlay found.rule.style) lower) =
      ((found.map (·.rule)).reverse.findSome? fun rule => part rule.style).or (part lower) := by
  induction found generalizing lower with
  | nil => rfl
  | cons first rest ih =>
    rw [List.foldl_cons, ih, layered.overlay, List.map_cons, List.reverse_cons,
      List.findSome?_append, Option.or_assoc, List.findSome?_singleton]

theorem resolve_bind (layered : IsLayered part) :
    (theme.resolve scopes).bind part =
      ((theme.ranked scopes).map (·.rule)).reverse.findSome? fun rule => part rule.style := by
  unfold resolve
  split
  · rename_i empty
    rw [empty]
    rfl
  · rw [Option.bind_some, part_foldl layered, layered.empty]
    exact Option.or_none

theorem resolve_bind_eq_none_iff (layered : IsLayered part) :
    (theme.resolve scopes).bind part = none ↔
      ∀ rule ∈ theme.rules, rule.Matches scopes → part rule.style = none := by
  rw [resolve_bind layered, List.findSome?_eq_none_iff]
  constructor
  · intro unset rule known matched
    exact unset rule (List.mem_reverse.mpr (mem_ranked.mpr ⟨known, matched⟩))
  · intro unset rule member
    obtain ⟨known, matched⟩ := mem_ranked.mp (List.mem_reverse.mp member)
    exact unset rule known matched

theorem rule_of_resolve (layered : IsLayered part) {value : α}
    (resolved : (theme.resolve scopes).bind part = some value) :
    ∃ rule ∈ theme.rules, rule.Matches scopes ∧ part rule.style = some value := by
  rw [resolve_bind layered] at resolved
  obtain ⟨rule, member, given⟩ := List.exists_of_findSome?_eq_some resolved
  obtain ⟨known, matched⟩ := mem_ranked.mp (List.mem_reverse.mp member)
  exact ⟨rule, known, matched, given⟩

theorem part_styleAt (layered : IsLayered part) :
    part (theme.styleAt scopes) = ((theme.resolve scopes).bind part).or (part theme.defaults) := by
  unfold styleAt
  cases theme.resolve scopes with
  | none => rfl
  | some style => exact layered.overlay _ _

theorem resolve_font?_eq_none_iff :
    (theme.resolve scopes).bind (·.font?) = none ↔
      ∀ flag : FontFlag, (theme.resolve scopes).bind flag.ofStyle = none := by
  cases theme.resolve scopes with
  | none => simp
  | some style => exact style.font?_eq_none_iff

def isPlain (theme : Theme) : Bool := theme.rules.all (·.target.isPlain)

theorem Rule.Matches.append {rule : Rule} (matched : rule.Matches scopes) (more : List String)
    (plain : theme.isPlain = true) (known : rule ∈ theme.rules) :
    rule.Matches (scopes ++ more) :=
  Target.rank?_append more (List.all_eq_true.mp plain rule known) matched

theorem resolve_bind_of_append (layered : IsLayered part) (plain : theme.isPlain = true)
    (more : List String) (unset : (theme.resolve (scopes ++ more)).bind part = none) :
    (theme.resolve scopes).bind part = none :=
  (resolve_bind_eq_none_iff layered).mpr fun rule known matched =>
    (resolve_bind_eq_none_iff layered).mp unset rule known (matched.append more plain known)

theorem resolve_font?_of_append (plain : theme.isPlain = true) (more : List String)
    (unset : (theme.resolve (scopes ++ more)).bind (·.font?) = none) :
    (theme.resolve scopes).bind (·.font?) = none :=
  resolve_font?_eq_none_iff.mpr fun flag =>
    resolve_bind_of_append (Style.flag_isLayered flag) plain more
      (resolve_font?_eq_none_iff.mp unset flag)

end Theme

end Highlighter
