import Mathlib.Algebra.Group.Int.Defs
import Mathlib.Algebra.Group.Nat.Defs
import Mathlib.Data.List.Basic

/-
  Decimal integers in C text.

  `scanDecimal` reads the longest prefix that `strtol` and the
  integer conversions of `fscanf` accept in base ten: an
  optional sign and a run of digits.  `Numeral` is the text of
  such an integer, and reading it back gives its value.

  Main declarations:
    * `CText.isSpace`
    * `CText.scanDecimal`
    * `CText.stoi`
    * `CText.atoi`
    * `CText.Numeral`
    * `CText.scanDecimal_numeral`
-/

------------------------------------------------------------
-- Reading Decimal Integers
------------------------------------------------------------

namespace CText

/- `isspace` of the C locale. -/
def isSpace (c : Char) : Bool :=
  c == ' ' || ('\t' ≤ c && c ≤ '\r')

/- The value of a run of decimal digits. -/
def digitsValue (cs : List Char) : Nat :=
  cs.foldl (fun n c => 10 * n + (c.toNat - '0'.toNat)) 0

/- An optional sign, with `true` for minus. -/
def splitSign : List Char → Bool × List Char
| '-' :: cs => (true, cs)
| '+' :: cs => (false, cs)
| cs => (false, cs)

/-
  Read an optional sign and digits.  The value is absent when
  there is no digit; a sign is consumed in both cases.
-/
def scanDecimal
    (cs : List Char) : Option Int × List Char :=
  let (negative, body) := splitSign cs
  let digits := body.takeWhile Char.isDigit
  let value : Int := digitsValue digits
  (if digits.isEmpty then none
    else some (if negative then -value else value),
    body.dropWhile Char.isDigit)

/- The value fits a signed 32-bit integer. -/
def IsInt32 (v : Int) : Prop :=
  -2 ^ 31 ≤ v ∧ v < 2 ^ 31

instance (v : Int) : Decidable (IsInt32 v) := by
  unfold IsInt32
  infer_instance

/- `std::stoi`; absent when it throws. -/
def stoi (s : String) : Option Int :=
  match (scanDecimal (s.toList.dropWhile isSpace)).1 with
  | some v => if IsInt32 v then some v else none
  | none => none

/-
  The integer that a text starts with, and zero without one.
  C leaves open what becomes of one that is out of range.
-/
def atoi (s : String) : Int32 :=
  Int32.ofInt
    ((scanDecimal (s.toList.dropWhile isSpace)).1.getD 0)

end CText

------------------------------------------------------------
-- Numerals
------------------------------------------------------------

namespace CText

/- The text does not start with a digit. -/
def NoDigitFirst (cs : List Char) : Prop :=
  ∀ c ∈ cs.head?, c.isDigit = false

/- An optional sign, with `true` for minus, and digits. -/
structure Numeral where
  sign : Option Bool
  digits : List Char
  nonempty : digits ≠ []
  allDigits : ∀ c ∈ digits, c.isDigit = true
deriving DecidableEq

namespace Numeral

/- The text of a sign. -/
def signText : Option Bool → List Char
| none => []
| some true => ['-']
| some false => ['+']

def text (n : Numeral) : List Char :=
  signText n.sign ++ n.digits

def value (n : Numeral) : Int :=
  if n.sign = some true then -(digitsValue n.digits : Int)
  else digitsValue n.digits

/- The usual decimal text of a natural number. -/
def ofNat (n : Nat) : Numeral where
  sign := none
  digits := Nat.toDigits 10 n
  nonempty := Nat.toDigits_ne_nil
  allDigits := fun _ hc =>
    Nat.isDigit_of_mem_toDigits (by decide) (by decide) hc

@[simp] theorem value_ofNat
    (n : Nat) :
    (ofNat n).value = n := by
  have hDigits :
      digitsValue (Nat.toDigits 10 n) = n :=
    Nat.ofDigitChars_ten_toDigits
  simp [value, ofNat, hDigits]

/- The usual decimal text of an integer. -/
def ofInt (v : Int) : Numeral where
  sign := if v < 0 then some true else none
  digits := Nat.toDigits 10 v.natAbs
  nonempty := Nat.toDigits_ne_nil
  allDigits := fun _ hc =>
    Nat.isDigit_of_mem_toDigits (by decide) (by decide) hc

@[simp] theorem value_ofInt
    (v : Int) :
    (ofInt v).value = v := by
  have hDigits :
      digitsValue (Nat.toDigits 10 v.natAbs) = v.natAbs :=
    Nat.ofDigitChars_ten_toDigits
  by_cases hNegative : v < 0
  · simp only [value, ofInt, hNegative, if_true, hDigits]
    omega
  · simp only [value, ofInt, hNegative, if_false,
      reduceCtorEq, hDigits]
    omega

/- It is the text that `std::to_string` prints. -/
theorem text_ofInt
    (v : Int) :
    (ofInt v).text = (toString v).toList := by
  rcases v with n | n
  · have hSign : ¬ Int.ofNat n < 0 := by
      simp
    simp only [text, ofInt, hSign, if_false, signText]
    exact String.toList_ofList.symm
  · have hSign : Int.negSucc n < 0 := Int.negSucc_lt_zero n
    simp only [text, ofInt, hSign, if_true, signText]
    change _ = ("-" ++ Nat.repr (n + 1)).toList
    rw [String.toList_append]
    exact congrArg ('-' :: ·) String.toList_ofList.symm

end Numeral

theorem not_isSpace_of_isDigit
    {c : Char}
    (hDigit : c.isDigit = true) :
    isSpace c = false := by
  simp only [Char.isDigit, Bool.and_eq_true,
    decide_eq_true_eq] at hDigit
  have hLower : 48 ≤ c.val.toNat :=
    UInt32.le_iff_toNat_le.mp hDigit.1
  by_contra hSpace
  simp only [isSpace, Bool.not_eq_false, Bool.or_eq_true,
    beq_iff_eq, Bool.and_eq_true, decide_eq_true_eq]
    at hSpace
  rcases hSpace with hBlank | ⟨_, hUpper⟩
  · rw [hBlank] at hLower
    exact absurd hLower (by decide)
  · have hBound : c.val.toNat ≤ 13 :=
      UInt32.le_iff_toNat_le.mp hUpper
    omega

/- A numeral starts with a sign or a digit. -/
theorem Numeral.dropWhile_isSpace
    (n : Numeral)
    (tail : List Char) :
    (n.text ++ tail).dropWhile isSpace =
      n.text ++ tail := by
  rcases hDigits : n.digits with _ | ⟨c, cs⟩
  · exact absurd hDigits n.nonempty
  · have hSpace : isSpace c = false :=
      not_isSpace_of_isDigit
        (n.allDigits c (by simp [hDigits]))
    rcases hSign : n.sign with _ | _ | _
    · simp [text, signText, hSign, hDigits, hSpace]
    · simp [text, signText, hSign,
        show isSpace '+' = false by decide]
    · simp [text, signText, hSign,
        show isSpace '-' = false by decide]

theorem splitSign_numeral
    (n : Numeral)
    (tail : List Char) :
    splitSign (n.text ++ tail) =
      (decide (n.sign = some true), n.digits ++ tail) := by
  rcases hSign : n.sign with _ | _ | _
  · rcases hDigits : n.digits with _ | ⟨c, cs⟩
    · exact absurd hDigits n.nonempty
    · have hDigit : c.isDigit = true :=
        n.allDigits c (by simp [hDigits])
      have hMinus : c ≠ '-' := by
        intro hEq
        rw [hEq] at hDigit
        exact absurd hDigit (by decide)
      have hPlus : c ≠ '+' := by
        intro hEq
        rw [hEq] at hDigit
        exact absurd hDigit (by decide)
      simp [Numeral.text, Numeral.signText, hSign, hDigits,
        splitSign, hMinus, hPlus]
  · simp [Numeral.text, Numeral.signText, hSign, splitSign]
  · simp [Numeral.text, Numeral.signText, hSign, splitSign]

/- Reading a numeral gives its value and stops after it. -/
theorem scanDecimal_numeral
    (n : Numeral)
    {tail : List Char}
    (hTail : NoDigitFirst tail) :
    scanDecimal (n.text ++ tail) = (some n.value, tail) := by
  have hTake : tail.takeWhile Char.isDigit = [] := by
    cases tail with
    | nil =>
        rfl
    | cons c cs =>
        simp [hTail c (by simp)]
  have hDrop : tail.dropWhile Char.isDigit = tail := by
    cases tail with
    | nil =>
        rfl
    | cons c cs =>
        simp [hTail c (by simp)]
  unfold scanDecimal
  rw [splitSign_numeral]
  simp [List.takeWhile_append_of_pos n.allDigits,
    List.dropWhile_append_of_pos n.allDigits,
    hTake, hDrop, n.nonempty, Numeral.value]

end CText
