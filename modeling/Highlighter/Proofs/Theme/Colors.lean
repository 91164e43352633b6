import Highlighter.Proofs.Metadata
import Highlighter.Theme.Basic

set_option autoImplicit false

namespace Highlighter

def ColorField.ofStyle (field : ColorField) (style : Style) : Option Nat :=
  match field with
  | .foreground => style.foreground
  | .background => style.background

theorem ColorField.ofStyle_overlay (field : ColorField) (lower upper : Style) :
    field.ofStyle (lower.overlay upper) = (field.ofStyle upper).or (field.ofStyle lower) := by
  cases field <;> exact Option.orElse_eq_or

namespace Palette

variable {palette : Palette}

theorem color?_eq_some_iff {id : Nat} {color : Color} : palette.color? id = some color ↔
    0 < id ∧ palette.colors[id - 1]? = some color := by
  cases id <;> simp [color?]

structure Exact (palette : Palette) : Prop where
  inverse : ∀ color id, palette.id? color = some id ↔ palette.color? id = some color
  fits : palette.colors.length ≤ largestColor

theorem empty_exact : empty.Exact :=
  ⟨fun _ id => by simp [id?, color?_eq_some_iff, empty], Nat.zero_le _⟩

theorem Exact.id?_le (exact : palette.Exact) {color : Color} {id : Nat}
    (known : palette.id? color = some id) : 0 < id ∧ id ≤ palette.colors.length := by
  obtain ⟨positive, found⟩ := color?_eq_some_iff.mp ((exact.inverse color id).mp known)
  have inside := (List.getElem?_eq_some_iff.mp found).1
  omega

theorem Exact.id?_eq_none_iff (exact : palette.Exact) {color : Color} :
    palette.id? color = none ↔ color ∉ palette.colors := by
  constructor
  · intro unknown member
    obtain ⟨place, found⟩ := List.mem_iff_getElem?.mp member
    have known := (exact.inverse color (place + 1)).mpr found
    exact nomatch unknown.symm.trans known
  · intro new
    by_contra known
    obtain ⟨id, known⟩ := Option.ne_none_iff_exists'.mp known
    obtain ⟨-, found⟩ := color?_eq_some_iff.mp ((exact.inverse color id).mp known)
    exact new (List.mem_of_getElem? found)

theorem Exact.grown (exact : palette.Exact) {color : Color} (new : palette.id? color = none)
    (room : palette.colors.length < largestColor) :
    Exact ⟨(color, palette.colors.length + 1) :: palette.ids, palette.colors ++ [color]⟩ := by
  refine ⟨fun other id => ?_, by simpa using room⟩
  have old := exact.inverse other id
  rw [color?_eq_some_iff] at old ⊢
  rw [id?, List.lookup_cons]
  by_cases same : other = color
  · subst same
    have absent := exact.id?_eq_none_iff.mp new
    simp only [beq_self_eq_true, Option.some.injEq]
    constructor
    · rintro rfl
      simp
    · rintro ⟨positive, found⟩
      have inside := (List.getElem?_eq_some_iff.mp found).1
      rw [List.length_append, List.length_singleton] at inside
      by_contra apart
      rw [List.getElem?_append_left (by omega)] at found
      exact absent (List.mem_of_getElem? found)
  · rw [beq_eq_false_iff_ne.mpr same]
    refine old.trans (and_congr_right fun positive => ?_)
    rcases Nat.lt_or_ge (id - 1) palette.colors.length with inside | outside
    · rw [List.getElem?_append_left inside]
    · rw [List.getElem?_append_right outside, List.getElem?_eq_none outside]
      rcases Nat.eq_zero_or_pos (id - 1 - palette.colors.length) with here | past
      · simp [here, Ne.symm same]
      · simp [List.getElem?_eq_none, Nat.succ_le_of_lt past]

theorem number_cases (palette : Palette) (color : Color) :
    (∃ id, palette.id? color = some id ∧ palette.number color = (id, palette)) ∨
      (palette.id? color = none ∧ palette.colors.length < largestColor ∧
        palette.number color = (palette.colors.length + 1,
          ⟨(color, palette.colors.length + 1) :: palette.ids, palette.colors ++ [color]⟩)) ∨
      (palette.id? color = none ∧ largestColor ≤ palette.colors.length ∧
        palette.number color = (0, palette)) := by
  unfold number
  cases known : palette.id? color with
  | some id => exact .inl ⟨id, rfl, rfl⟩
  | none =>
    dsimp only
    split
    · rename_i full
      exact .inr (.inr ⟨rfl, full, rfl⟩)
    · rename_i room
      exact .inr (.inl ⟨rfl, Nat.lt_of_not_ge room, rfl⟩)

theorem Exact.number (exact : palette.Exact) (color : Color) : (palette.number color).2.Exact := by
  rcases palette.number_cases color with ⟨_, _, same⟩ | ⟨new, room, same⟩ | ⟨_, _, same⟩
  · rwa [same]
  · rw [same]
    exact exact.grown new room
  · rwa [same]

theorem Exact.number_le (exact : palette.Exact) (color : Color) :
    (palette.number color).1 ≤ largestColor := by
  rcases palette.number_cases color with ⟨id, known, same⟩ | ⟨_, room, same⟩ | ⟨_, _, same⟩
  · rw [same]
    exact (exact.id?_le known).2.trans exact.fits
  · rw [same]
    exact room
  · rw [same]
    exact Nat.zero_le _

def numbered (palette : Palette) (calls : List Color) : Palette :=
  calls.foldl (fun palette color => (palette.number color).2) palette

theorem Exact.numbered (exact : palette.Exact) (calls : List Color) :
    (palette.numbered calls).Exact := by
  induction calls generalizing palette with
  | nil => exact exact
  | cons color rest ih => exact ih (exact.number color)

theorem ofSeed_exact (seed : List Color) : (ofSeed seed).Exact := empty_exact.numbered seed

end Palette

namespace Style

def Colored (style : Style) : Prop :=
  ∀ field : ColorField, ∀ id, field.ofStyle style = some id → 0 < id ∧ id ≤ largestColor

theorem colored_empty : empty.Colored := by
  intro field id given
  cases field <;> exact nomatch given

theorem Colored.overlay {lower upper : Style} (below : lower.Colored) (above : upper.Colored) :
    (lower.overlay upper).Colored := by
  intro field id given
  rw [field.ofStyle_overlay] at given
  rcases Option.or_eq_some_iff.mp given with set | ⟨_, kept⟩
  · exact above field id set
  · exact below field id kept

theorem Colored.number_le {style : Style} (colored : style.Colored) (field : ColorField) :
    (field.ofStyle style).getD 0 ≤ largestColor := by
  cases given : field.ofStyle style with
  | none => exact Nat.zero_le _
  | some id => exact (colored field id given).2

end Style

namespace Theme

theorem colorId?_known {palette : Palette} (color : Option Color) (exact : palette.Exact) :
    (colorId? palette color).2.Exact ∧
      ∀ id, (colorId? palette color).1 = some id → 0 < id ∧ id ≤ largestColor := by
  cases color with
  | none => exact ⟨exact, fun _ => nofun⟩
  | some color =>
    have small := exact.number_le color
    have grown := exact.number color
    unfold colorId?
    dsimp only
    split
    · rename_i same
      rw [same] at grown
      exact ⟨grown, fun _ => nofun⟩
    · rename_i id _ same
      rw [same] at small grown
      refine ⟨grown, ?_⟩
      rintro _ ⟨⟩
      exact ⟨Nat.succ_pos id, small⟩

theorem Setting.style_colored {palette : Palette} (setting : Setting) (exact : palette.Exact) :
    (setting.style palette).1.Colored ∧ (setting.style palette).2.Exact := by
  obtain ⟨between, foreground⟩ := colorId?_known setting.foreground exact
  obtain ⟨after, background⟩ := colorId?_known setting.background between
  refine ⟨fun field => ?_, after⟩
  cases field with
  | foreground => exact foreground
  | background => exact background

structure Colored (theme : Theme) : Prop where
  palette : theme.palette.Exact
  defaults : theme.defaults.Colored
  rules : ∀ rule ∈ theme.rules, rule.style.Colored

theorem Colored.add {theme : Theme} (colored : theme.Colored) (setting : Setting) :
    (theme.add setting).Colored := by
  obtain ⟨styled, grown⟩ := setting.style_colored colored.palette
  have byDefault : Colored
      { theme with
        palette := (setting.style theme.palette).2
        defaults := theme.defaults.overlay (setting.style theme.palette).1 } :=
    ⟨grown, colored.defaults.overlay styled, colored.rules⟩
  unfold Theme.add
  dsimp only
  split
  · exact byDefault
  · exact byDefault
  · split
    · refine ⟨grown, colored.defaults, fun rule member => ?_⟩
      rcases List.mem_append.mp member with old | new
      · exact colored.rules rule old
      · obtain rfl := List.mem_singleton.mp new
        exact styled
    · exact ⟨grown, colored.defaults, colored.rules⟩

theorem ofSettings_colored (name : Option String) (seed : List Color) (settings : List Setting) :
    (ofSettings name seed settings).Colored := by
  suffices all : ∀ theme : Theme, theme.Colored → (settings.foldl Theme.add theme).Colored from
    all _ ⟨Palette.ofSeed_exact seed, Style.colored_empty, fun _ => nofun⟩
  induction settings with
  | nil => exact fun _ colored => colored
  | cons setting rest ih => exact fun theme colored => ih _ (colored.add setting)

end Theme

end Highlighter
