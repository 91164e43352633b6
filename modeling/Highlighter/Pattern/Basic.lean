import Highlighter.Pattern.Escapes
import Highlighter.Regex.Match

set_option autoImplicit false

namespace Highlighter

open Regex (Region Match)

structure Variants where
  both : Option Regex
  startOnly : Option Regex
  searchOnly : Option Regex
  neither : Option Regex

namespace Variants

def get (variants : Variants) : Bool → Bool → Option Regex
  | true, true => variants.both
  | true, false => variants.startOnly
  | false, true => variants.searchOnly
  | false, false => variants.neither

-- A source without anchors is compiled once.
def ofSource (source : List Char) (whole : Option Regex) : Variants :=
  if Pattern.isAnchored source then
    let variant (allowStart allowSearch : Bool) :=
      Regex.compile? (Pattern.masked allowStart allowSearch source)
    ⟨whole, variant true false, variant false true, variant false false⟩
  else ⟨whole, whole, whole, whole⟩

theorem get_ofSource (source : List Char) (allowStart allowSearch : Bool) :
    (ofSource source (Regex.compile? source)).get allowStart allowSearch =
      Regex.compile? (Pattern.masked allowStart allowSearch source) := by
  unfold ofSource
  split
  · cases allowStart <;> cases allowSearch <;> simp [get, Pattern.masked_of_allowed]
  · rename_i plain
    rw [Pattern.masked_of_not_isAnchored _ _ _ (by simpa using plain)]
    cases allowStart <;> cases allowSearch <;> rfl

end Variants

structure Pattern where
  source : String
  refersBack : Bool
  variants : Variants

namespace Pattern

-- A pattern that refers to captures must be sound with an empty group for each reference.
def ofSource? (text : String) : Option Pattern :=
  let source := withEndOfText text.toList
  if hasReference source then
    (Regex.compile? (replaceReferences (fun _ => "(?:)".toList) source)).map fun _ =>
      ⟨String.ofList source, true, ⟨none, none, none, none⟩⟩
  else
    match Regex.compile? source with
    | none => none
    | some regex => some ⟨String.ofList source, false, Variants.ofSource source (some regex)⟩

def search? {text : List Char} (pattern : Pattern) (cursor : Text.Cursor text)
    (allowStart allowSearch : Bool) : Option Match :=
  (pattern.variants.get allowStart allowSearch).bind (·.search? cursor)

def resolve (pattern : Pattern) (line : List Char) (captures : Nat → Option Region) : String :=
  let written (digits : List Char) : List Char :=
    literally <| (do
      let region ← captures (← Text.readIndex? digits)
      Text.slice? line region.start region.stop).getD []
  String.ofList (replaceReferences written pattern.source.toList)

def beats (found : Match) : Option Match → Bool
  | none => true
  | some best => found.whole.start < best.whole.start

def scanFrom {text : List Char} {α : Type} (cursor : Text.Cursor text) (firstLine onAnchor : Bool)
    (best : Option (α × Match)) : List (α × Pattern) → Option (α × Match)
  | [] => best
  | (item, pattern) :: rest =>
    match pattern.search? cursor firstLine onAnchor with
    | none => scanFrom cursor firstLine onAnchor best rest
    | some found =>
      if beats found (best.map (·.2)) then
        if found.whole.start = cursor.offset then some (item, found)
        else scanFrom cursor firstLine onAnchor (some (item, found)) rest
      else scanFrom cursor firstLine onAnchor best rest

def scan {text : List Char} {α : Type} (patterns : List (α × Pattern)) (cursor : Text.Cursor text)
    (anchor : Option Nat) (firstLine : Bool) : Option (α × Match) :=
  scanFrom cursor firstLine (anchor == some cursor.offset) none patterns

end Pattern

end Highlighter
