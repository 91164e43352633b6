import Highlighter.Proofs.Theme.Colors

set_option autoImplicit false

namespace Highlighter

namespace Palette

variable {palette : Palette}

theorem numbered_append (palette : Palette) (calls later : List Color) :
    palette.numbered (calls ++ later) = (palette.numbered calls).numbered later :=
  List.foldl_append

theorem Exact.id_in_use_iff (exact : palette.Exact) (id : Nat) :
    (∃ color, palette.id? color = some id) ↔ 1 ≤ id ∧ id ≤ palette.colors.length := by
  simp only [exact.inverse, color?_eq_some_iff, exists_and_left]
  constructor
  · rintro ⟨positive, color, found⟩
    have inside := (List.getElem?_eq_some_iff.mp found).1
    omega
  · rintro ⟨positive, inside⟩
    exact ⟨positive, _, List.getElem?_eq_getElem (by omega)⟩

theorem color?_number {id : Nat} {color : Color} (known : palette.color? id = some color)
    (other : Color) : (palette.number other).2.color? id = some color := by
  rcases palette.number_cases other with ⟨_, _, same⟩ | ⟨_, _, same⟩ | ⟨_, _, same⟩
  · rwa [same]
  · rw [same]
    obtain ⟨positive, found⟩ := color?_eq_some_iff.mp known
    have inside := (List.getElem?_eq_some_iff.mp found).1
    exact color?_eq_some_iff.mpr ⟨positive, (List.getElem?_append_left inside).trans found⟩
  · rwa [same]

theorem color?_numbered {id : Nat} {color : Color} (known : palette.color? id = some color)
    (later : List Color) : (palette.numbered later).color? id = some color := by
  induction later generalizing palette with
  | nil => exact known
  | cons other rest ih => exact ih (color?_number known other)

theorem Exact.id?_numbered (exact : palette.Exact) {color : Color} {id : Nat}
    (known : palette.id? color = some id) (later : List Color) :
    (palette.numbered later).id? color = some id := by
  rw [exact.inverse] at known
  rw [(exact.numbered later).inverse]
  exact color?_numbered known later

theorem Exact.id?_number (exact : palette.Exact) (color : Color) :
    (palette.number color).1 = 0 ∨
      (palette.number color).2.id? color = some (palette.number color).1 := by
  rcases palette.number_cases color with ⟨id, known, same⟩ | ⟨_, _, same⟩ | ⟨_, _, same⟩
  · rw [same]
    exact .inr known
  · refine .inr ?_
    rw [(exact.number color).inverse, same]
    simp [color?]
  · rw [same]
    exact .inl rfl

theorem Exact.number_eq_zero_iff (exact : palette.Exact) (color : Color) :
    (palette.number color).1 = 0 ↔
      palette.id? color = none ∧ palette.colors.length = largestColor := by
  have most := exact.fits
  rcases palette.number_cases color with ⟨id, known, same⟩ | ⟨_, room, same⟩ | ⟨new, full, same⟩
  · have positive := (exact.id?_le known).1
    simp [same, known, positive.ne']
  · simp [same, room.ne]
  · simp [same, new, le_antisymm most full]

theorem number_of_full (full : largestColor ≤ palette.colors.length) (color : Color) :
    (palette.number color).2 = palette := by
  rcases palette.number_cases color with ⟨_, _, same⟩ | ⟨_, room, _⟩ | ⟨_, _, same⟩
  · rw [same]
  · exact absurd full room.not_ge
  · rw [same]

theorem number_of_known {color : Color} {id : Nat} (known : palette.id? color = some id) :
    palette.number color = (id, palette) := by
  rw [number, known]

theorem numbered_of_full (full : largestColor ≤ palette.colors.length) (later : List Color) :
    palette.numbered later = palette := by
  induction later with
  | nil => rfl
  | cons color rest ih =>
    rw [numbered, List.foldl_cons, number_of_full full]
    exact ih

theorem Exact.id?_later (exact : palette.Exact) (color : Color) (later : List Color) :
    ((palette.number color).2.numbered later).id? color =
      if (palette.number color).1 = 0 then none else some (palette.number color).1 := by
  split
  · rename_i refused
    obtain ⟨new, full⟩ := (exact.number_eq_zero_iff color).mp refused
    rw [number_of_full full.ge, numbered_of_full full.ge, new]
  · rename_i given
    exact (exact.number color).id?_numbered ((exact.id?_number color).resolve_left given) later

theorem Exact.colors_numbered (exact : palette.Exact) {calls : List Color}
    (distinct : (palette.colors ++ calls).Nodup)
    (room : (palette.colors ++ calls).length ≤ largestColor) :
    (palette.numbered calls).colors = palette.colors ++ calls := by
  induction calls generalizing palette with
  | nil => exact (List.append_nil _).symm
  | cons color rest ih =>
    have new : color ∉ palette.colors := fun known =>
      (List.nodup_append.mp distinct).2.2 color known color List.mem_cons_self rfl
    have grown : (palette.number color).2.colors = palette.colors ++ [color] := by
      rw [List.length_append, List.length_cons] at room
      rcases palette.number_cases color with ⟨id, known, _⟩ | ⟨_, _, same⟩ | ⟨_, full, _⟩
      · exact nomatch known.symm.trans (exact.id?_eq_none_iff.mpr new)
      · rw [same]
      · omega
    rw [List.append_cons, ← grown] at distinct room ⊢
    exact ih (exact.number color) distinct room

theorem ofSeed_colors {seed : List Color} (distinct : seed.Nodup)
    (room : seed.length ≤ largestColor) : (ofSeed seed).colors = seed :=
  empty_exact.colors_numbered distinct room

/-- Whatever colors a palette was made from and asked for since, the numbers in use are those from
one to the number of its colors, and each stands for one color. A color that has a number keeps it
for good. Only a new color that a full palette is asked for is given zero, and it leaves no trace. -/
theorem numbered_bijective (palette : Palette) (seed calls : List Color)
    (reached : palette = (ofSeed seed).numbered calls) :
    palette.colors.length ≤ largestColor ∧
      (∀ id, (∃ color, palette.id? color = some id) ↔ 1 ≤ id ∧ id ≤ palette.colors.length) ∧
      (∀ color id, palette.id? color = some id ↔ palette.color? id = some color) ∧
      palette.color? 0 = none ∧
      (∀ color id, palette.id? color = some id → palette.number color = (id, palette) ∧
        ∀ later, (palette.numbered later).id? color = some id) ∧
      ∀ color, ((palette.number color).1 = 0 ↔
          palette.id? color = none ∧ palette.colors.length = largestColor) ∧
        ((palette.number color).1 = 0 → (palette.number color).2 = palette) ∧
        ((palette.number color).1 ≠ 0 →
          (palette.number color).2.id? color = some (palette.number color).1) := by
  have exact : palette.Exact := reached ▸ (ofSeed_exact seed).numbered calls
  refine ⟨exact.fits, exact.id_in_use_iff, exact.inverse, rfl, fun color id known => ?_,
    fun color => ?_⟩
  · exact ⟨number_of_known known, exact.id?_numbered known⟩
  · have refused := exact.number_eq_zero_iff color
    exact ⟨refused, fun zero => number_of_full (refused.mp zero).2.ge color,
      (exact.id?_number color).resolve_left⟩

def shades : List Color :=
  (List.range largestColor).map fun place => ⟨0, UInt8.ofNat (place / 256), UInt8.ofNat place⟩

theorem shades_distinct : shades.Nodup := by
  refine List.Nodup.map_on (fun a inside b inside' same => ?_) List.nodup_range
  have high := congrArg (·.green.toNat) same
  have low := congrArg (·.blue.toNat) same
  simp only [UInt8.toNat_ofNat', List.mem_range, largestColor] at high low inside inside'
  omega

theorem numbered_bijective_full : (ofSeed shades).id? ⟨1, 0, 0⟩ = none ∧
    ((ofSeed shades).number ⟨1, 0, 0⟩).1 = 0 ∧
      ((ofSeed shades).number ⟨1, 0, 0⟩).2 = ofSeed shades := by
  have all : shades.length = largestColor := by simp [shades]
  have colors := ofSeed_colors shades_distinct all.le
  have new : (ofSeed shades).id? ⟨1, 0, 0⟩ = none := by
    rw [(ofSeed_exact shades).id?_eq_none_iff, colors]
    simp [shades]
  obtain ⟨-, -, -, -, -, answers⟩ :=
    numbered_bijective (ofSeed shades) shades [] (by rw [numbered, List.foldl_nil])
  obtain ⟨refuses, unchanged, -⟩ := answers ⟨1, 0, 0⟩
  have zero := refuses.mpr ⟨new, (congrArg List.length colors).trans all⟩
  exact ⟨new, zero, unchanged zero⟩

end Palette

end Highlighter
