import Highlighter.Color.Basic
import Highlighter.Metadata

set_option autoImplicit false

namespace Highlighter

structure Palette where
  ids : List (Color × Nat)
  colors : List Color

namespace Palette

def empty : Palette := ⟨[], []⟩

def id? (palette : Palette) (color : Color) : Option Nat := palette.ids.lookup color

def color? (palette : Palette) : Nat → Option Color
  | 0 => none
  | id + 1 => palette.colors[id]?

-- The number of a color, new if need be. A new color gets zero once the palette is full.
def number (palette : Palette) (color : Color) : Nat × Palette :=
  match palette.id? color with
  | some id => (id, palette)
  | none =>
    if palette.colors.length ≥ largestColor then (0, palette)
    else
      let id := palette.colors.length + 1
      (id, ⟨(color, id) :: palette.ids, palette.colors ++ [color]⟩)

def ofSeed (seed : List Color) : Palette :=
  seed.foldl (fun palette color => (palette.number color).2) empty

end Palette

end Highlighter
