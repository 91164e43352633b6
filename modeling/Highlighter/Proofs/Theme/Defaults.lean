import Highlighter.Proofs.Theme.Palette
import Highlighter.Proofs.Theme.Stylesheet
import Mathlib.Data.List.DropRight

set_option autoImplicit false

namespace Highlighter

theorem Style.overlay_idem (style upper : Style) :
    (style.overlay upper).overlay upper = style.overlay upper := by
  have idem {α : Type} (a b : Option α) : (a <|> (a <|> b)) = (a <|> b) := by cases a <;> rfl
  simp only [Style.overlay, idem]

namespace Theme

namespace Setting

def styleIn (setting : Setting) (palette : Palette) : Style :=
  let fonts := (setting.font.map Style.ofFont).getD Style.empty
  { foreground := setting.foreground.bind palette.id?
    background := setting.background.bind palette.id?
    bold := setting.bold <|> fonts.bold
    italic := setting.italic <|> fonts.italic
    underline := setting.underline <|> fonts.underline
    strikethrough := setting.strikethrough <|> fonts.strikethrough }

def colors (setting : Setting) : List Color :=
  setting.foreground.toList ++ setting.background.toList

def isGlobal (setting : Setting) : Bool :=
  match setting.selector with
  | none => true
  | some source => (Text.trimmed source.toList).isEmpty

end Setting

theorem colorId?_palette (palette : Palette) (color : Option Color) :
    (colorId? palette color).2 = palette.numbered color.toList := by
  cases color with
  | none => rfl
  | some color =>
    rw [colorId?]
    split <;> rename_i same <;> rw [Option.toList, Palette.numbered, List.foldl_cons, same] <;> rfl

theorem colorId?_later {palette : Palette} (exact : palette.Exact) (color : Option Color)
    (later : List Color) : (colorId? palette color).1 =
      color.bind ((colorId? palette color).2.numbered later).id? := by
  cases color with
  | none => rfl
  | some color =>
    have given := exact.id?_later color later
    rw [colorId?]
    split <;> rename_i same <;> rw [same] at given <;> exact given.symm

namespace Setting

theorem style_palette (setting : Setting) (palette : Palette) :
    (setting.style palette).2 = palette.numbered setting.colors := by
  rw [colors, Palette.numbered_append, ← colorId?_palette, ← colorId?_palette]
  rfl

theorem style_later {palette : Palette} (exact : palette.Exact) (setting : Setting)
    (later : List Color) : (setting.style palette).1 =
      setting.styleIn ((palette.numbered setting.colors).numbered later) := by
  have between := exact.numbered setting.foreground.toList
  have foreground := colorId?_later exact setting.foreground (setting.background.toList ++ later)
  have background := colorId?_later between setting.background later
  simp only [colorId?_palette, Palette.numbered_append] at foreground background
  simp only [styleIn, colors, Palette.numbered_append, ← foreground, ← background]
  rw [← colorId?_palette]
  rfl

end Setting

theorem add_palette (theme : Theme) (setting : Setting) :
    (theme.add setting).palette = theme.palette.numbered setting.colors := by
  rw [← setting.style_palette]
  unfold add
  dsimp only
  split
  · rfl
  · rfl
  · split <;> rfl

theorem add_defaults (theme : Theme) (setting : Setting) : (theme.add setting).defaults =
    if setting.isGlobal then theme.defaults.overlay (setting.style theme.palette).1
    else theme.defaults := by
  unfold add Setting.isGlobal
  dsimp only
  cases setting.selector with
  | none => rfl
  | some source =>
    dsimp only [Option.map_some]
    split
    · rename_i absurd
      exact nomatch absurd
    · rename_i blank
      simp [String.ofList_eq_empty_iff.mp (Option.some.inj blank)]
    · rename_i filled same
      have filled : Text.trimmed source.toList ≠ [] := fun blank =>
        filled (by rw [← Option.some.inj same, blank])
      simp only [List.isEmpty_iff, filled, if_false]
      split <;> rfl

theorem palette_foldl_add (theme : Theme) (settings : List Setting) :
    (settings.foldl add theme).palette =
      theme.palette.numbered (settings.flatMap Setting.colors) := by
  induction settings generalizing theme with
  | nil => rfl
  | cons setting rest ih =>
    rw [List.foldl_cons, ih, add_palette, List.flatMap_cons, Palette.numbered_append]

def merged (palette : Palette) (settings : List Setting) (style : Style) : Style :=
  settings.foldl (fun style setting => style.overlay (setting.styleIn palette)) style

theorem defaults_foldl_add {theme : Theme} (exact : theme.palette.Exact) (settings : List Setting) :
    (settings.foldl add theme).defaults =
      merged (settings.foldl add theme).palette (settings.filter Setting.isGlobal) theme.defaults := by
  induction settings generalizing theme with
  | nil => rfl
  | cons setting rest ih =>
    have exact' : (theme.add setting).palette.Exact := add_palette theme setting ▸ exact.numbered _
    rw [List.foldl_cons, ih exact', add_defaults]
    cases speaks : setting.isGlobal with
    | false => simp [speaks]
    | true =>
      have same := setting.style_later exact (rest.flatMap Setting.colors)
      rw [← add_palette, ← palette_foldl_add] at same
      simp [speaks, merged, same]

theorem defaults_ofSettings (name : Option String) (seed : List Color) (settings : List Setting) :
    (ofSettings name seed settings).defaults = merged (ofSettings name seed settings).palette
      (settings.filter Setting.isGlobal) Style.empty :=
  defaults_foldl_add (Palette.ofSeed_exact seed) settings

theorem dropEnd_eq_nil_iff {p : Char → Bool} {cs : List Char} :
    Text.dropEnd p cs = [] ↔ ∀ c ∈ cs, p c = true := by
  simp [Text.dropEnd, List.dropWhile_eq_nil_iff]

theorem trimmed_eq_nil_iff {cs : List Char} :
    Text.trimmed cs = [] ↔ ∀ c ∈ cs, Text.isSpace c = true := by
  rw [Text.trimmed, dropEnd_eq_nil_iff, ← List.dropWhile_eq_nil_iff, ← List.dropWhile_eq_nil_iff,
    List.dropWhile_idempotent Text.isSpace]

theorem words_eq_nil_iff {gap : Char → Bool} {cs : List Char} :
    Text.words gap cs = [] ↔ ∀ c ∈ cs, gap c = true := by
  refine ⟨fun none c member => ?_, fun all => ?_⟩
  · by_contra inner
    exact Text.wordsFrom_ne_nil gap [] cs (.inr ⟨c, member, Bool.eq_false_of_not_eq_true inner⟩) none
  · induction cs with
    | nil => rfl
    | cons c cs ih =>
      obtain ⟨here, further⟩ := List.forall_mem_cons.mp all
      simpa [Text.words, Text.wordsFrom, here] using ih further

namespace Stylesheet

def isForAll (selector : List Char) : Bool :=
  selector == ['*'] || selector == ".editor".toList

def isClassless (selector : List Char) : Bool := selector.all isClassGap

theorem isGlobal_selector? (setting : Setting) (selector : List Char) :
    Setting.isGlobal { setting with selector := selector? selector } =
      (isForAll selector || isClassless selector) := by
  have given : selector? selector = if isForAll selector then none else
      some (String.ofList ((Text.words isClassGap selector).flatMap ('.' :: ·))) := rfl
  simp only [Setting.isGlobal, given]
  cases isForAll selector with
  | true => rfl
  | false =>
    simp only [Bool.false_eq_true, if_false, String.toList_ofList, Bool.false_or]
    have classless := @words_eq_nil_iff isClassGap selector
    rw [Bool.eq_iff_iff, List.isEmpty_iff, trimmed_eq_nil_iff, isClassless, List.all_eq_true,
      ← classless]
    cases Text.words isClassGap selector with
    | nil => simp
    | cons word words => simp [Text.isSpace]

namespace Block

def list (block : Block) : List (List Char) :=
  (Text.pieces ',' (Text.trimmed block.selectors)).map Text.trimmed

def styleIn (block : Block) (palette : Palette) : Style :=
  (declarations block.body).styleIn palette

theorem settings_eq (block : Block) : block.settings = block.list.map fun selector =>
    { declarations block.body with selector := selector? selector } := by
  rw [settings, Stylesheet.settings, list, List.map_map]
  rfl

theorem merged_settings (palette : Palette) (block : Block) (style : Style) :
    merged palette (block.settings.filter Setting.isGlobal) style =
      if block.list.any fun selector => isForAll selector || isClassless selector then
        style.overlay (block.styleIn palette)
      else style := by
  rw [settings_eq]
  induction block.list generalizing style with
  | nil => rfl
  | cons selector rest ih =>
    rw [List.map_cons, List.filter_cons, isGlobal_selector?, List.any_cons]
    cases isForAll selector || isClassless selector with
    | false => simpa using ih style
    | true =>
      rw [if_pos rfl, merged, List.foldl_cons]
      refine (ih _).trans ?_
      have same : (Setting.styleIn { declarations block.body with selector := selector? selector }
          palette) = block.styleIn palette := rfl
      rw [same, Style.overlay_idem, ite_self, Bool.true_or, if_pos rfl]

end Block

def mergedBlocks (palette : Palette) (found : List Block) : Style :=
  found.foldl (fun style block => style.overlay (block.styleIn palette)) Style.empty

theorem merged_blocks (palette : Palette) (found : List Block) (style : Style) :
    merged palette ((found.flatMap Block.settings).filter Setting.isGlobal) style =
      (found.filter fun block => block.list.any fun selector =>
        isForAll selector || isClassless selector).foldl
          (fun style block => style.overlay (block.styleIn palette)) style := by
  induction found generalizing style with
  | nil => rfl
  | cons block rest ih =>
    have parts (first second : List Setting) : merged palette (first ++ second) style =
        merged palette second (merged palette first style) := List.foldl_append
    rw [List.flatMap_cons, List.filter_append, parts, ih, block.merged_settings, List.filter_cons]
    split <;> rfl

/-- The defaults of a stylesheet are those of the blocks that are for all text, together with those
that have a selector without classes. If no block has one, unless it is for all text besides, they
are those of the blocks for all text alone. -/
theorem defaults_of_read {source : String} {theme : Theme} (read : parse source = .ok theme) :
    (∃ found, Sheet source.toList found) ∧ ∀ found, Sheet source.toList found →
      theme.defaults = mergedBlocks theme.palette (found.filter fun block =>
        block.list.any fun selector => isForAll selector || isClassless selector) ∧
      ((∀ block ∈ found, block.list.any isClassless = true → block.list.any isForAll = true) →
        theme.defaults = mergedBlocks theme.palette (found.filter (·.list.any isForAll))) := by
  obtain ⟨found, sheet, -⟩ := parse_eq_ok_iff.mp read
  refine ⟨⟨found, sheet⟩, fun found sheet => ?_⟩
  obtain rfl := Except.ok.inj (read.symm.trans sheet.parse)
  have defaults := defaults_ofSettings none [] (found.flatMap Block.settings)
  rw [merged_blocks] at defaults
  refine ⟨defaults, fun covered => defaults.trans ?_⟩
  refine congrArg _ (List.filter_congr fun block member => ?_)
  have covered := covered block member
  rw [Bool.eq_iff_iff]
  simp only [List.any_eq_true, Bool.or_eq_true] at covered ⊢
  constructor
  · rintro ⟨selector, listed, all | classless⟩
    · exact ⟨selector, listed, all⟩
    · exact covered ⟨selector, listed, classless⟩
  · rintro ⟨selector, listed, all⟩
    exact ⟨selector, listed, .inl all⟩

def strong : Block := ⟨".a, * ".toList, "font-weight:bold".toList⟩

def slanted : Block := ⟨".b".toList, "font-style:italic".toList⟩

def mixedSource : String := ".a, * \x7bfont-weight:bold\x7d .b\x7bfont-style:italic\x7d"

theorem mixed_sheet : Sheet mixedSource.toList [strong, slanted] := by
  have first : strong.Complete := ⟨by decide, by decide, by decide, by decide⟩
  have second : slanted.Complete := ⟨by decide, by decide, by decide, by decide⟩
  have start : Blank [] := fun _ => nofun
  have gap : Blank [' '] := by decide
  refine ⟨mixedSource.toList, [], ?_, .cons start first (.cons gap second .nil), start⟩
  exact .plain (by decide)

theorem defaults_of_read_mixed : ∃ theme, parse mixedSource = .ok theme ∧
    theme.defaults = mergedBlocks theme.palette [strong] := by
  obtain ⟨-, defaults⟩ := defaults_of_read mixed_sheet.parse
  obtain ⟨-, covered⟩ := defaults _ mixed_sheet
  exact ⟨_, mixed_sheet.parse, covered (by decide)⟩

def trailing : Block := ⟨".a, ".toList, "font-weight:bold".toList⟩

def trailingSource : String := ".a, \x7bfont-weight:bold\x7d"

theorem trailing_sheet : Sheet trailingSource.toList [trailing] := by
  have complete : trailing.Complete := ⟨by decide, by decide, by decide, by decide⟩
  have start : Blank [] := fun _ => nofun
  refine ⟨trailingSource.toList, [], ?_, .cons start complete .nil, start⟩
  exact .plain (by decide)

theorem trailing_sets_defaults : ∃ theme found, parse trailingSource = .ok theme ∧
    Sheet trailingSource.toList found ∧
      theme.defaults ≠ mergedBlocks theme.palette (found.filter (·.list.any isForAll)) := by
  refine ⟨_, _, trailing_sheet.parse, trailing_sheet, fun same => ?_⟩
  have defaults := defaults_ofSettings none [] ([trailing].flatMap Block.settings)
  rw [merged_blocks] at defaults
  have bold := congrArg (·.bold) (defaults.symm.trans same)
  exact absurd bold (by decide)

end Stylesheet

end Theme

end Highlighter
