import Highlighter.Text.Split

set_option autoImplicit false

namespace Highlighter

structure FontStyle where
  bits : UInt8
  deriving DecidableEq, Repr

namespace FontStyle

def empty : FontStyle := ⟨0⟩

def italic : FontStyle := ⟨1⟩

def bold : FontStyle := ⟨2⟩

def underline : FontStyle := ⟨4⟩

def strikethrough : FontStyle := ⟨8⟩

def union (a b : FontStyle) : FontStyle := ⟨a.bits ||| b.bits⟩

def contains (style flag : FontStyle) : Bool := style.bits &&& flag.bits == flag.bits

def ofFlags (bold italic underline strikethrough : Bool) : FontStyle :=
  ⟨(if italic then 1 else 0) + (if bold then 2 else 0) + (if underline then 4 else 0) +
    (if strikethrough then 8 else 0)⟩

def ofWord? : String → Option FontStyle
  | "italic" => some italic
  | "bold" => some bold
  | "underline" => some underline
  | "strikethrough" => some strikethrough
  | _ => none

def ofText (text : String) : FontStyle :=
  (Text.words Text.isSpace text.toList).foldl (fun style word =>
    match ofWord? (String.ofList word) with
    | some flag => style.union flag
    | none => style) empty

def names (style : FontStyle) : List String :=
  [(italic, "ITALIC"), (bold, "BOLD"), (underline, "UNDERLINE"),
    (strikethrough, "STRIKETHROUGH")].filterMap fun (flag, name) =>
      if style.contains flag then some name else none

def summary (style : FontStyle) : String :=
  "FontStyle(" ++ (if style.names.isEmpty then "0x0" else " | ".intercalate style.names) ++ ")"

end FontStyle

inductive TokenType where
  | other
  | comment
  | string
  | regex
  deriving DecidableEq, Repr

namespace TokenType

def name : TokenType → String
  | .other => "other"
  | .comment => "comment"
  | .string => "string"
  | .regex => "regex"

def ofName? : String → Option TokenType
  | "other" => some .other
  | "comment" => some .comment
  | "string" => some .string
  | "regex" => some .regex
  | _ => none

def code : TokenType → Nat
  | .other => 0
  | .comment => 1
  | .string => 2
  | .regex => 3

def ofCode (code : Nat) : TokenType :=
  match code % 4 with
  | 1 => .comment
  | 2 => .string
  | 3 => .regex
  | _ => .other

end TokenType

structure Attributes where
  language : UInt8
  type : TokenType
  font : FontStyle
  foreground : Nat
  background : Nat
  deriving DecidableEq, Repr

abbrev Metadata := UInt32

def largestColor : Nat := 511

-- The word has, from its low end: 9 bits for the foreground, 9 for the background, 4 for the font,
-- 2 for the type and 8 for the language. A field is counted in units of its lowest bit.
def backgroundUnit : Nat := 0x200

def fontUnit : Nat := 0x40000

def typeUnit : Nat := 0x400000

def languageUnit : Nat := 0x1000000

def Attributes.encode (attributes : Attributes) : Metadata :=
  UInt32.ofNat (attributes.language.toNat * languageUnit + attributes.type.code * typeUnit +
    attributes.font.bits.toNat % 16 * fontUnit + attributes.background % 512 * backgroundUnit +
    attributes.foreground % 512)

namespace Metadata

def language (word : Metadata) : UInt8 := UInt8.ofNat (word.toNat / languageUnit)

def type (word : Metadata) : TokenType := TokenType.ofCode (word.toNat / typeUnit)

def font (word : Metadata) : FontStyle := ⟨UInt8.ofNat (word.toNat / fontUnit % 16)⟩

def background (word : Metadata) : Nat := word.toNat / backgroundUnit % 512

def foreground (word : Metadata) : Nat := word.toNat % 512

def decode (word : Metadata) : Attributes :=
  ⟨language word, type word, font word, foreground word, background word⟩

structure Overlay where
  language : Option UInt8
  type : Option TokenType
  font : Option FontStyle
  foreground : Nat
  background : Nat

def overlay (word : Metadata) (upper : Overlay) : Metadata :=
  let lower := decode word
  Attributes.encode
    { language := match upper.language with
        | some language => if language == 0 then lower.language else language
        | none => lower.language
      type := upper.type.getD lower.type
      font := upper.font.getD lower.font
      foreground := if upper.foreground == 0 then lower.foreground else upper.foreground
      background := if upper.background == 0 then lower.background else upper.background }

def summary (word : Metadata) : String :=
  let attributes := decode word
  s!"lang={attributes.language.toNat} type={attributes.type.name} font={attributes.font.summary} " ++
    s!"fg={attributes.foreground} bg={attributes.background}"

end Metadata

end Highlighter
