import Highlighter.Metadata

set_option autoImplicit false

namespace Highlighter

structure Style where
  foreground : Option Nat
  background : Option Nat
  bold : Option Bool
  italic : Option Bool
  underline : Option Bool
  strikethrough : Option Bool
  deriving DecidableEq, Repr

namespace Style

def empty : Style := ⟨none, none, none, none, none, none⟩

def withFont (style : Style) (font : FontStyle) : Style :=
  { style with
    bold := some (font.contains .bold)
    italic := some (font.contains .italic)
    underline := some (font.contains .underline)
    strikethrough := some (font.contains .strikethrough) }

def ofFont (font : FontStyle) : Style := empty.withFont font

def overlay (style upper : Style) : Style where
  foreground := upper.foreground <|> style.foreground
  background := upper.background <|> style.background
  bold := upper.bold <|> style.bold
  italic := upper.italic <|> style.italic
  underline := upper.underline <|> style.underline
  strikethrough := upper.strikethrough <|> style.strikethrough

def font? (style : Style) : Option FontStyle :=
  if style.bold.isNone && style.italic.isNone && style.underline.isNone &&
      style.strikethrough.isNone then none
  else some (FontStyle.ofFlags (style.bold == some true) (style.italic == some true)
    (style.underline == some true) (style.strikethrough == some true))

end Style

structure Span where
  start : Nat
  stop : Nat
  deriving DecidableEq, Repr

namespace Span

def length (span : Span) : Nat := span.stop - span.start

def isEmpty (span : Span) : Bool := span.start ≥ span.stop

def contains (span : Span) (position : Nat) : Bool :=
  span.start ≤ position && position < span.stop

end Span

end Highlighter
