import Highlighter.Metadata
import Mathlib.Tactic

set_option autoImplicit false

namespace Highlighter

theorem TokenType.ofCode_code (type : TokenType) (language : Nat) :
    ofCode (language * 4 + type.code) = type := by
  have low : (language * 4 + type.code) % 4 = type.code := by
    cases type <;> simp [code]
  rw [ofCode, low]
  cases type <;> rfl

theorem TokenType.code_lt (type : TokenType) : type.code < 4 := by
  cases type <;> decide

namespace FontStyle

def masked (font : FontStyle) : FontStyle := ⟨UInt8.ofNat (font.bits.toNat % 16)⟩

theorem masked_ofFlags (bold italic underline strikethrough : Bool) :
    (ofFlags bold italic underline strikethrough).masked =
      ofFlags bold italic underline strikethrough := by
  cases bold <;> cases italic <;> cases underline <;> cases strikethrough <;> rfl

end FontStyle

namespace Attributes

def clipped (attributes : Attributes) : Attributes :=
  { attributes with
    font := attributes.font.masked
    foreground := attributes.foreground % 512
    background := attributes.background % 512 }

theorem toNat_encode (attributes : Attributes) :
    attributes.encode.toNat =
      (((attributes.language.toNat * 4 + attributes.type.code) * 16 +
        attributes.font.bits.toNat % 16) * 512 + attributes.background % 512) * 512 +
          attributes.foreground % 512 := by
  have language := attributes.language.toNat_lt
  have type := attributes.type.code_lt
  have small : attributes.language.toNat * languageUnit + attributes.type.code * typeUnit +
      attributes.font.bits.toNat % 16 * fontUnit + attributes.background % 512 * backgroundUnit +
      attributes.foreground % 512 < UInt32.size := by
    simp only [languageUnit, typeUnit, fontUnit, backgroundUnit, UInt32.size]
    omega
  rw [encode, UInt32.toNat_ofNat_of_lt' small]
  simp only [languageUnit, typeUnit, fontUnit, backgroundUnit]
  omega

theorem decode_encode (attributes : Attributes) :
    Metadata.decode attributes.encode = attributes.clipped := by
  have word := attributes.toNat_encode
  have type := attributes.type.code_lt
  have language : attributes.encode.toNat / languageUnit = attributes.language.toNat := by
    rw [word, languageUnit]
    omega
  have typed : attributes.encode.toNat / typeUnit =
      attributes.language.toNat * 4 + attributes.type.code := by
    rw [word, typeUnit]
    omega
  have font : attributes.encode.toNat / fontUnit % 16 = attributes.font.bits.toNat % 16 := by
    rw [word, fontUnit]
    omega
  have background : attributes.encode.toNat / backgroundUnit % 512 =
      attributes.background % 512 := by
    rw [word, backgroundUnit]
    omega
  have foreground : attributes.encode.toNat % 512 = attributes.foreground % 512 := by
    rw [word]
    omega
  simp only [Metadata.decode, Metadata.language, Metadata.type, Metadata.font, Metadata.background,
    Metadata.foreground, language, typed, font, background, foreground, TokenType.ofCode_code,
    UInt8.ofNat_toNat, clipped, FontStyle.masked]

end Attributes

inductive ColorField where
  | foreground
  | background
  deriving DecidableEq, Repr

namespace ColorField

def ofAttributes (field : ColorField) (attributes : Attributes) : Nat :=
  match field with
  | .foreground => attributes.foreground
  | .background => attributes.background

def ofWord (field : ColorField) (word : Metadata) : Nat := field.ofAttributes (Metadata.decode word)

def ofOverlay (field : ColorField) (upper : Metadata.Overlay) : Nat :=
  match field with
  | .foreground => upper.foreground
  | .background => upper.background

theorem ofWord_le (field : ColorField) (word : Metadata) : field.ofWord word ≤ largestColor := by
  cases field <;> exact Nat.le_of_lt_succ (Nat.mod_lt _ (by decide))

theorem ofAttributes_clipped (field : ColorField) (attributes : Attributes)
    (known : field.ofAttributes attributes ≤ largestColor) :
    field.ofAttributes attributes.clipped = field.ofAttributes attributes := by
  cases field <;> exact Nat.mod_eq_of_lt (Nat.lt_succ_of_le known)

theorem ofWord_encode (field : ColorField) (attributes : Attributes)
    (known : field.ofAttributes attributes ≤ largestColor) :
    field.ofWord attributes.encode = field.ofAttributes attributes := by
  rw [ofWord, Attributes.decode_encode, field.ofAttributes_clipped attributes known]

end ColorField

namespace Metadata

theorem masked_font (word : Metadata) : (font word).masked = font word := by
  have small : word.toNat / fontUnit % 16 < 256 := by omega
  simp only [font, FontStyle.masked, UInt8.toNat_ofNat_of_lt' small, Nat.mod_mod]

theorem font_encode (attributes : Attributes) : font attributes.encode = attributes.font.masked :=
  congrArg Attributes.font attributes.decode_encode

theorem color_overlay (field : ColorField) (word : Metadata) (upper : Overlay)
    (known : field.ofOverlay upper ≤ largestColor) :
    field.ofWord (overlay word upper) =
      if field.ofOverlay upper = 0 then field.ofWord word else field.ofOverlay upper := by
  have there := field.ofWord_le word
  rw [overlay, ColorField.ofWord_encode]
  · cases field <;> simp only [ColorField.ofAttributes, ColorField.ofOverlay, beq_iff_eq] <;> rfl
  · cases field <;> simp only [ColorField.ofAttributes, beq_iff_eq] <;> split <;> assumption

theorem font_overlay (word : Metadata) (upper : Overlay) :
    font (overlay word upper) = (upper.font.map (·.masked)).getD (font word) := by
  rw [overlay, font_encode]
  cases upper.font with
  | some font => rfl
  | none => exact masked_font word

end Metadata

end Highlighter
