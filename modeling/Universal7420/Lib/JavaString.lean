import Mathlib.Data.List.Basic

/-
  Java strings and their UTF-8 conversions.

  A string is a list of UTF-16 code units.  `getBytes` writes a
  question mark for an unpaired surrogate.  What
  `new String` makes of bytes that are not well-formed is left
  open by its documentation, so a decoder is any function that
  reads well-formed bytes.

  Main declarations:
    * `JavaString.ofChars`
    * `JavaString.toChars`
    * `JavaString.getBytes`
    * `JavaString.Decoder`
    * `JavaString.toChars_ofChars`
    * `JavaString.roundTrip_iff`
-/

------------------------------------------------------------
-- Code Units
------------------------------------------------------------

abbrev JavaString : Type :=
  List UInt16

namespace JavaString

def isHighSurrogate (u : UInt16) : Bool :=
  0xD800 ≤ u.toNat && u.toNat ≤ 0xDBFF

def isLowSurrogate (u : UInt16) : Bool :=
  0xDC00 ≤ u.toNat && u.toNat ≤ 0xDFFF

def toCodePoint (high low : UInt16) : Nat :=
  0x10000 + (high.toNat - 0xD800) * 0x400 +
    (low.toNat - 0xDC00)

/- The two units of a character above `0xFFFF`. -/
def highUnit (c : Char) : UInt16 :=
  UInt16.ofNat (0xD800 + (c.toNat - 0x10000) / 0x400)

def lowUnit (c : Char) : UInt16 :=
  UInt16.ofNat (0xDC00 + (c.toNat - 0x10000) % 0x400)

/- The units of a character. -/
def unitsOf (c : Char) : JavaString :=
  if c.toNat < 0x10000 then
    [UInt16.ofNat c.toNat]
  else
    [highUnit c, lowUnit c]

def ofChars (text : List Char) : JavaString :=
  text.flatMap unitsOf

/- A unit that is no part of a pair. -/
def single (u : UInt16) : Char :=
  if isHighSurrogate u || isLowSurrogate u then '?'
  else Char.ofNat u.toNat

/- The characters that are encoded. -/
def toChars : JavaString → List Char
| [] => []
| [u] => [single u]
| u :: v :: rest =>
    if isHighSurrogate u && isLowSurrogate v then
      Char.ofNat (toCodePoint u v) :: toChars rest
    else
      single u :: toChars (v :: rest)

/- A unit outside the surrogates is one character. -/
theorem toChars_cons
    {u : UInt16}
    (rest : JavaString)
    (hHigh : isHighSurrogate u = false)
    (hLow : isLowSurrogate u = false) :
    toChars (u :: rest) =
      Char.ofNat u.toNat :: toChars rest := by
  have hSingle : single u = Char.ofNat u.toNat := by
    simp [single, hHigh, hLow]
  rcases rest with _ | ⟨v, rest⟩
  · simp only [toChars, hSingle]
  · simp only [toChars, hHigh, hSingle, Bool.false_and]
    rfl

theorem toNat_scalar
    (c : Char) :
    c.toNat < 0xD800 ∨
      (0xDFFF < c.toNat ∧ c.toNat < 0x110000) :=
  c.valid

theorem toChars_unit
    {c : Char}
    (rest : JavaString)
    (hPlane : c.toNat < 0x10000) :
    toChars (UInt16.ofNat c.toNat :: rest) =
      c :: toChars rest := by
  have hScalar := toNat_scalar c
  have hUnit : (UInt16.ofNat c.toNat).toNat = c.toNat := by
    rw [UInt16.toNat_ofNat']
    omega
  have hHigh :
      isHighSurrogate (UInt16.ofNat c.toNat) = false := by
    rw [isHighSurrogate, hUnit, Bool.and_eq_false_iff,
      decide_eq_false_iff_not, decide_eq_false_iff_not]
    omega
  have hLow :
      isLowSurrogate (UInt16.ofNat c.toNat) = false := by
    rw [isLowSurrogate, hUnit, Bool.and_eq_false_iff,
      decide_eq_false_iff_not, decide_eq_false_iff_not]
    omega
  rw [toChars_cons rest hHigh hLow, hUnit, Char.ofNat_toNat]

theorem toChars_pair
    {c : Char}
    (rest : JavaString)
    (hPlane : ¬ c.toNat < 0x10000) :
    toChars (highUnit c :: lowUnit c :: rest) =
      c :: toChars rest := by
  have hScalar := toNat_scalar c
  have hFirst :
      (highUnit c).toNat =
        0xD800 + (c.toNat - 0x10000) / 0x400 := by
    rw [highUnit, UInt16.toNat_ofNat']
    omega
  have hSecond :
      (lowUnit c).toNat =
        0xDC00 + (c.toNat - 0x10000) % 0x400 := by
    rw [lowUnit, UInt16.toNat_ofNat']
    omega
  have hHigh : isHighSurrogate (highUnit c) = true := by
    rw [isHighSurrogate, hFirst, Bool.and_eq_true,
      decide_eq_true_iff, decide_eq_true_iff]
    omega
  have hLow : isLowSurrogate (lowUnit c) = true := by
    rw [isLowSurrogate, hSecond, Bool.and_eq_true,
      decide_eq_true_iff, decide_eq_true_iff]
    omega
  have hPoint :
      toCodePoint (highUnit c) (lowUnit c) = c.toNat := by
    unfold toCodePoint
    omega
  simp only [toChars, hHigh, hLow, Bool.and_self, if_true,
    hPoint, Char.ofNat_toNat]

theorem toChars_unitsOf_append
    (c : Char)
    (rest : JavaString) :
    toChars (unitsOf c ++ rest) = c :: toChars rest := by
  by_cases hPlane : c.toNat < 0x10000
  · rw [unitsOf, if_pos hPlane]
    exact toChars_unit rest hPlane
  · rw [unitsOf, if_neg hPlane]
    exact toChars_pair rest hPlane

/- The units of a text give its characters back. -/
theorem toChars_ofChars
    (text : List Char) :
    toChars (ofChars text) = text := by
  induction text with
  | nil =>
      rfl
  | cons c text ih =>
      rw [ofChars, List.flatMap_cons,
        toChars_unitsOf_append]
      exact congrArg (c :: ·) ih

end JavaString

------------------------------------------------------------
-- Bytes
------------------------------------------------------------

namespace JavaString

/- The UTF-8 encoding of a text. -/
def utf8 (text : List Char) : List UInt8 :=
  text.flatMap String.utf8EncodeChar

/- `getBytes("UTF-8")` -/
def getBytes (s : JavaString) : List UInt8 :=
  utf8 (toChars s)

/- The bytes are the encoding of some text. -/
def WellFormed (bytes : List UInt8) : Prop :=
  bytes.toByteArray.IsValidUTF8

instance (bytes : List UInt8) : Decidable (WellFormed bytes) :=
  inferInstanceAs (Decidable bytes.toByteArray.IsValidUTF8)

theorem wellFormed_iff
    {bytes : List UInt8} :
    WellFormed bytes ↔ ∃ text, bytes = utf8 text := by
  constructor
  · rintro ⟨text, hText⟩
    refine ⟨text, ?_⟩
    have hData := congrArg (fun b => b.data.toList) hText
    simpa [List.utf8Encode, utf8] using hData
  · rintro ⟨text, rfl⟩
    exact ⟨text, rfl⟩

/- `new String(bytes, "UTF-8")`, as far as it is documented. -/
structure Decoder where
  newString : List UInt8 → JavaString
  newString_utf8 :
    ∀ text, newString (utf8 text) = ofChars text

/-
  Bytes that are decoded and encoded again are the same if and
  only if they are well-formed, whatever the decoder does with
  others.
-/
theorem roundTrip_iff
    (decoder : Decoder)
    (bytes : List UInt8) :
    getBytes (decoder.newString bytes) = bytes ↔
      WellFormed bytes := by
  rw [wellFormed_iff]
  constructor
  · intro hSame
    exact ⟨toChars (decoder.newString bytes), hSame.symm⟩
  · rintro ⟨text, rfl⟩
    rw [decoder.newString_utf8, getBytes, toChars_ofChars]

end JavaString

------------------------------------------------------------
-- A Decoder
------------------------------------------------------------

namespace JavaString

/-
  Read characters, with a bound on their number.  A byte that
  starts none is replaced.
-/
def decodeFrom : Nat → List UInt8 → List Char
| 0, _ => []
| _ + 1, [] => []
| left + 1, b :: bytes =>
    match (b :: bytes).toByteArray.utf8DecodeChar? 0 with
    | some c =>
        c :: decodeFrom left ((b :: bytes).drop c.utf8Size)
    | none => Char.ofNat 0xFFFD :: decodeFrom left bytes

theorem decodeFrom_utf8
    {left : Nat}
    {text : List Char}
    (hLeft : text.length ≤ left) :
    decodeFrom left (utf8 text) = text := by
  induction text generalizing left with
  | nil =>
      cases left with
      | zero => rfl
      | succ left => rfl
  | cons c text ih =>
      rcases left with _ | left
      · simp at hLeft
      have hFirst :
          (utf8 (c :: text)).toByteArray.utf8DecodeChar? 0 =
            some c :=
        List.utf8DecodeChar?_utf8Encode_cons
      have hDrop :
          (utf8 (c :: text)).drop c.utf8Size = utf8 text := by
        rw [utf8, List.flatMap_cons,
          ← String.length_utf8EncodeChar c,
          List.drop_left]
        rfl
      have hRest := ih (Nat.le_of_succ_le_succ hLeft)
      rcases hBytes : utf8 (c :: text) with _ | ⟨b, bytes⟩
      · rw [utf8, List.flatMap_cons] at hBytes
        exact absurd (List.append_eq_nil_iff.mp hBytes).1
          String.utf8EncodeChar_ne_nil
      · rw [hBytes] at hFirst hDrop
        simp only [decodeFrom, hFirst, hDrop, hRest]

theorem length_le_utf8
    (text : List Char) :
    text.length ≤ (utf8 text).length := by
  induction text with
  | nil =>
      exact Nat.le_refl 0
  | cons c text ih =>
      have hSize := c.utf8Size_pos
      rw [utf8, List.flatMap_cons, List.length_append,
        String.length_utf8EncodeChar]
      change text.length + 1 ≤
        c.utf8Size + (utf8 text).length
      omega

/- A decoder with replacement characters. -/
def replacing : Decoder where
  newString bytes :=
    ofChars (decodeFrom bytes.length bytes)
  newString_utf8 text := by
    rw [decodeFrom_utf8 (length_le_utf8 text)]

end JavaString
