import Mathlib.Order.Basic

/-
  Binary search with a three-way comparison.

  The search looks for a position at which the comparison is
  zero.  A comparison that cannot be made ends it.

  Main declarations:
    * `BinarySearch.find`
    * `BinarySearch.Ascending`
    * `BinarySearch.find_spec`
-/

------------------------------------------------------------
-- Searching
------------------------------------------------------------

namespace BinarySearch

/-
  The positions from `bottom` to `top` are still open.  There
  are at most as many of them as there are turns left.
-/
def loop
    (compare : Nat → Option Int) :
    Nat → Int → Int → Option (Option Nat)
| 0, _, _ => some none
| turns + 1, bottom, top =>
    if bottom ≤ top then
      let search := (top + bottom) / 2
      match compare search.toNat with
      | none => none
      | some cmp =>
          if cmp = 0 then
            some (some search.toNat)
          else if cmp < 0 then
            loop compare turns (search + 1) top
          else
            loop compare turns bottom (search - 1)
    else
      some none

/- Search all positions below a length. -/
def find
    (length : Nat)
    (compare : Nat → Option Int) :
    Option (Option Nat) :=
  loop compare length 0 (length - 1)

end BinarySearch

------------------------------------------------------------
-- Finding What Is There
------------------------------------------------------------

namespace BinarySearch

variable {compare : Nat → Option Int}
variable {value : Nat → Int}
variable {length : Nat}

/- The comparisons go from below to above. -/
structure Ascending
    (value : Nat → Int)
    (length : Nat) :
    Prop where
  smaller :
    ∀ i j,
      i ≤ j →
      j < length →
      value j < 0 →
      value i < 0
  greater :
    ∀ i j,
      i ≤ j →
      j < length →
      0 < value i →
      0 < value j

/- What a search among some positions gives. -/
def Finds
    (value : Nat → Int)
    (among : Nat → Prop) :
    Option Nat → Prop
| none => ∀ i, among i → value i ≠ 0
| some i => among i ∧ value i = 0

theorem Finds.mono
    {wide narrow : Nat → Prop}
    {found : Option Nat}
    (hFinds : Finds value narrow found)
    (hInside : ∀ i, narrow i → wide i)
    (hLost : ∀ i, wide i → value i = 0 → narrow i) :
    Finds value wide found := by
  rcases found with _ | i
  · intro i hWide hZero
    exact hFinds i (hLost i hWide hZero) hZero
  · exact ⟨hInside i hFinds.1, hFinds.2⟩

theorem loop_spec
    (hCompare : ∀ i < length, compare i = some (value i))
    (hAscending : Ascending value length)
    (turns : Nat)
    (bottom top : Int)
    (hBottom : 0 ≤ bottom)
    (hTop : top < length)
    (hTurns : top - bottom + 1 ≤ turns) :
    ∃ found,
      loop compare turns bottom top = some found ∧
      Finds value
        (fun i => bottom ≤ i ∧ (i : Int) ≤ top) found := by
  induction turns generalizing bottom top with
  | zero =>
      refine ⟨none, rfl, ?_⟩
      intro i hOpen
      omega
  | succ turns ih =>
      rw [loop]
      split
      · rename_i hOpen
        rcases Int.eq_ofNat_of_zero_le
            (show 0 ≤ (top + bottom) / 2 by omega) with
          ⟨search, hSearch⟩
        have hInside : search < length := by omega
        rw [hSearch]
        dsimp only
        rw [Int.toNat_natCast, hCompare search hInside]
        dsimp only
        split
        · rename_i hZero
          exact ⟨some search, rfl, ⟨by omega, by omega⟩,
            hZero⟩
        · rename_i hNot
          split
          · rename_i hBelow
            rcases ih (search + 1) top (by omega) hTop
                (by omega) with ⟨found, hLoop, hFinds⟩
            refine ⟨found, hLoop, hFinds.mono ?_ ?_⟩
            · intro i hThere
              omega
            · intro i hThere hZero
              -- What is not above the place is too small.
              have hAbove : ¬ i ≤ search := by
                intro hLe
                have hSmaller :=
                  hAscending.smaller i search hLe hInside
                    hBelow
                omega
              omega
          · rename_i hNotBelow
            rcases ih bottom (search - 1) hBottom
                (by omega) (by omega) with ⟨found, hLoop, hFinds⟩
            refine ⟨found, hLoop, hFinds.mono ?_ ?_⟩
            · intro i hThere
              omega
            · intro i hThere hZero
              have hBelow : ¬ search ≤ i := by
                intro hLe
                have hGreater :=
                  hAscending.greater search i hLe (by omega)
                    (by omega)
                omega
              omega
      · refine ⟨none, rfl, ?_⟩
        intro i hOpen
        omega

/- A position is found exactly if there is one. -/
theorem find_spec
    (hCompare : ∀ i < length, compare i = some (value i))
    (hAscending : Ascending value length) :
    ∃ found,
      find length compare = some found ∧
      Finds value (fun i => i < length) found := by
  rcases loop_spec hCompare hAscending
      length 0 (length - 1) (by omega) (by omega) (by omega) with
    ⟨found, hLoop, hFinds⟩
  refine ⟨found, hLoop, hFinds.mono ?_ ?_⟩
  · intro i hThere
    omega
  · intro i hThere _
    omega

end BinarySearch
