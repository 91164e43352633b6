import Highlighter.Proofs.Metadata

set_option autoImplicit false

namespace Highlighter

theorem TokenType.code_ofCode (code : Nat) : (ofCode code).code = code % 4 := by
  have small : code % 4 < 4 := Nat.mod_lt _ (by decide)
  unfold ofCode
  generalize code % 4 = low at small
  interval_cases low <;> rfl

theorem FontStyle.masked_eq_iff (font : FontStyle) : font.masked = font ↔ font.bits.toNat < 16 := by
  have low : font.masked.bits.toNat = font.bits.toNat % 16 :=
    UInt8.toNat_ofNat_of_lt' (by simp only [UInt8.size]; omega)
  constructor
  · intro same
    rw [same] at low
    omega
  · intro small
    rw [masked, Nat.mod_eq_of_lt small, UInt8.ofNat_toNat]

namespace Attributes

def bits (attributes : Attributes) : BitVec 32 :=
  attributes.language.toBitVec ++ BitVec.ofNat 2 attributes.type.code ++
    BitVec.ofNat 4 attributes.font.bits.toNat ++ BitVec.ofNat 9 attributes.background ++
      BitVec.ofNat 9 attributes.foreground

theorem toNat_append {m n : Nat} (upper : BitVec m) (lower : BitVec n) :
    (upper ++ lower).toNat = upper.toNat * 2 ^ n + lower.toNat := by
  rw [BitVec.toNat_append, ← Nat.shiftLeft_add_eq_or_of_lt lower.isLt, Nat.shiftLeft_eq]

theorem toBitVec_encode (attributes : Attributes) : attributes.encode.toBitVec = attributes.bits := by
  have type : attributes.type.code % 4 = attributes.type.code :=
    Nat.mod_eq_of_lt attributes.type.code_lt
  apply BitVec.eq_of_toNat_eq
  change attributes.encode.toNat = attributes.bits.toNat
  rw [toNat_encode]
  simp only [bits, toNat_append, BitVec.toNat_ofNat, UInt8.toNat_toBitVec, Nat.reducePow, type]

def Fits (attributes : Attributes) : Prop :=
  attributes.font.bits.toNat < 16 ∧ attributes.foreground ≤ largestColor ∧
    attributes.background ≤ largestColor

theorem clipped_eq_iff (attributes : Attributes) :
    attributes.clipped = attributes ↔ attributes.Fits := by
  obtain ⟨language, type, font, foreground, background⟩ := attributes
  simp only [clipped, Fits, mk.injEq, true_and, FontStyle.masked_eq_iff, largestColor,
    Nat.mod_eq_iff_lt (show 512 ≠ 0 by decide), Nat.lt_succ_iff]

end Attributes

namespace Metadata

theorem encode_decode (word : Metadata) : (decode word).encode = word := by
  have small := word.toNat_lt
  have language : (decode word).language.toNat = word.toNat / languageUnit :=
    UInt8.toNat_ofNat_of_lt' (by simp only [languageUnit, UInt8.size]; omega)
  have type : (decode word).type.code = word.toNat / typeUnit % 4 := TokenType.code_ofCode _
  have font : (decode word).font.bits.toNat = word.toNat / fontUnit % 16 :=
    UInt8.toNat_ofNat_of_lt' (by simp only [UInt8.size]; omega)
  apply UInt32.toNat_inj.mp
  rw [Attributes.toNat_encode, language, type, font]
  simp only [decode, background, foreground, languageUnit, typeUnit, fontUnit, backgroundUnit]
  omega

inductive Field where
  | language
  | type
  | font
  | color (field : ColorField)
  deriving DecidableEq, Repr

namespace Field

abbrev Value : Field → Type
  | language => UInt8
  | type => TokenType
  | font => FontStyle
  | color _ => Nat

def ofAttributes (attributes : Attributes) : (field : Field) → field.Value
  | language => attributes.language
  | type => attributes.type
  | font => attributes.font
  | color field => field.ofAttributes attributes

def ofWord (word : Metadata) : (field : Field) → field.Value
  | language => Metadata.language word
  | type => Metadata.type word
  | font => Metadata.font word
  | color .foreground => Metadata.foreground word
  | color .background => Metadata.background word

def fit : (field : Field) → field.Value → field.Value
  | language, value => value
  | type, value => value
  | font, value => value.masked
  | color _, value => value % 512

def unlessZero {α : Type} [DecidableEq α] [OfNat α 0] (value : α) : Option α :=
  if value = 0 then none else some value

def given? (upper : Overlay) : (field : Field) → Option field.Value
  | language => upper.language.bind unlessZero
  | type => upper.type
  | font => upper.font
  | color field => unlessZero (field.ofOverlay upper)

theorem ofAttributes_decode (word : Metadata) (field : Field) :
    field.ofAttributes (decode word) = field.ofWord word := by
  cases field with
  | color field => cases field <;> rfl
  | _ => rfl

theorem ofWord_encode (attributes : Attributes) (field : Field) :
    field.ofWord attributes.encode = field.fit (field.ofAttributes attributes) := by
  rw [← ofAttributes_decode, Attributes.decode_encode]
  cases field with
  | color field => cases field <;> rfl
  | _ => rfl

theorem fit_ofWord (word : Metadata) (field : Field) :
    field.fit (field.ofWord word) = field.ofWord word := by
  rw [← ofAttributes_decode, ← ofWord_encode, encode_decode, ofAttributes_decode]

theorem ext {one other : Metadata} (same : ∀ field : Field, field.ofWord one = field.ofWord other) :
    one = other := by
  have decoded : decode one = decode other := by
    simp only [decode, Attributes.mk.injEq]
    exact ⟨same language, same type, same font, same (color .foreground),
      same (color .background)⟩
  rw [← encode_decode one, decoded, encode_decode]

theorem ofWord_overlay (word : Metadata) (upper : Overlay) (field : Field) :
    field.ofWord (overlay word upper) =
      ((field.given? upper).map field.fit).getD (field.ofWord word) := by
  have kept := fit_ofWord word field
  obtain ⟨language, type, font, foreground, background⟩ := upper
  rw [overlay, ofWord_encode]
  cases field with
  | language =>
    cases language with
    | none => rfl
    | some language =>
      by_cases zero : language = 0 <;>
        simp [ofAttributes, ofWord, given?, unlessZero, fit, decode, zero]
  | type => cases type <;> rfl
  | font =>
    cases font with
    | none => exact kept
    | some font => rfl
  | color field =>
    by_cases zero : field.ofOverlay ⟨language, type, font, foreground, background⟩ = 0
    · simp only [given?, unlessZero, if_pos zero, Option.map_none, Option.getD_none]
      cases field <;> subst zero <;> exact kept
    · simp only [given?, unlessZero, if_neg zero, Option.map_some, Option.getD_some]
      cases field <;> simp_all [ofAttributes, ColorField.ofAttributes, ColorField.ofOverlay]

end Field

theorem overlay_idem (word : Metadata) (upper : Overlay) :
    overlay (overlay word upper) upper = overlay word upper := by
  apply Field.ext
  intro field
  simp only [Field.ofWord_overlay]
  cases field.given? upper <;> rfl

/-- A word is its five fields side by side, and tells as much as the attributes that it is decoded
to. Attributes come back from it if there is room for them, and otherwise each field comes back as
far as there is room for it, whatever is in the others. A field that an overlay gives is written in
the same way, a color of any size but zero among them; all other fields are kept. -/
theorem fields_apart :
    (∀ word : Metadata, (decode word).encode = word) ∧
      (∀ attributes : Attributes, attributes.encode.toBitVec = attributes.bits ∧
        (decode attributes.encode = attributes ↔ attributes.Fits)) ∧
      (∀ (attributes : Attributes) (field : Field),
        field.ofWord attributes.encode = field.fit (field.ofAttributes attributes)) ∧
      (∀ (word : Metadata) (field : Field),
        field.ofAttributes (decode word) = field.ofWord word) ∧
      (∀ (word : Metadata) (upper : Overlay) (field : Field),
        field.ofWord (overlay word upper) =
          ((field.given? upper).map field.fit).getD (field.ofWord word)) ∧
      ∀ (word : Metadata) (upper : Overlay),
        overlay (overlay word upper) upper = overlay word upper := by
  have returns (attributes : Attributes) :
      decode attributes.encode = attributes ↔ attributes.Fits := by
    rw [attributes.decode_encode]
    exact attributes.clipped_eq_iff
  exact ⟨encode_decode, fun attributes => ⟨attributes.toBitVec_encode, returns attributes⟩,
    Field.ofWord_encode, Field.ofAttributes_decode, Field.ofWord_overlay, overlay_idem⟩

theorem large_color_written :
    ¬ ∀ (word : Metadata) (upper : Overlay) (field : ColorField),
      field.ofOverlay upper = 0 ∨ largestColor < field.ofOverlay upper →
        (Field.color field).ofWord (overlay word upper) = (Field.color field).ofWord word := by
  intro kept
  have same := kept 5 ⟨none, none, none, 512, 0⟩ .foreground (.inr (by decide))
  have cleared : overlay 5 ⟨none, none, none, 512, 0⟩ = 0 := by decide
  rw [cleared] at same
  exact absurd same (by decide)

end Metadata

end Highlighter
