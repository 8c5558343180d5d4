import Mathlib.Data.List.Infix

/-
  Searching and comparing C text.

  A text is the list of its characters without the terminating
  null character.

  Main declarations:
    * `CText.strncmp`
    * `CText.find`
    * `CText.replaceFirst`
    * `CText.strchr`
    * `CText.strncmp_eq_zero_iff`
    * `CText.find_isSome_iff`
    * `CText.strchr_eq_some_iff`
-/

------------------------------------------------------------
-- Comparing
------------------------------------------------------------

namespace CText

/-
  `strncmp`.  The null character that ends a text compares
  with the other one.
-/
def strncmp : Nat → List Char → List Char → Int
| 0, _, _ => 0
| _ + 1, [], [] => 0
| _ + 1, [], d :: _ => -(d.toNat : Int)
| _ + 1, c :: _, [] => c.toNat
| n + 1, c :: a, d :: b =>
    if c = d then strncmp n a b
    else (c.toNat : Int) - d.toNat

theorem toNat_ne_zero
    {c : Char}
    (hNull : c ≠ '\x00') :
    c.toNat ≠ 0 := by
  intro hZero
  exact hNull (Char.toNat_inj.mp hZero)

/- Equal texts agree up to the bound or to both ends. -/
theorem strncmp_eq_zero_iff
    {n : Nat}
    {a b : List Char}
    (hA : '\x00' ∉ a)
    (hB : '\x00' ∉ b) :
    strncmp n a b = 0 ↔ a.take n = b.take n := by
  induction n generalizing a b with
  | zero =>
      simp [strncmp]
  | succ n ih =>
      rcases a with _ | ⟨c, a⟩
      · rcases b with _ | ⟨d, b⟩
        · simp [strncmp]
        · rw [List.mem_cons, not_or] at hB
          have hZero := toNat_ne_zero (Ne.symm hB.1)
          simp only [strncmp, List.take_nil,
            List.take_succ_cons, reduceCtorEq, iff_false]
          omega
      · rw [List.mem_cons, not_or] at hA
        rcases b with _ | ⟨d, b⟩
        · have hZero := toNat_ne_zero (Ne.symm hA.1)
          simp only [strncmp, List.take_nil,
            List.take_succ_cons, reduceCtorEq, iff_false]
          omega
        · rw [List.mem_cons, not_or] at hB
          by_cases hSame : c = d
          · rw [strncmp, if_pos hSame, List.take_succ_cons,
              List.take_succ_cons, hSame, List.cons_inj_right]
            exact ih hA.2 hB.2
          · have hDiffer : c.toNat ≠ d.toNat := by
              intro hEq
              exact hSame (Char.toNat_inj.mp hEq)
            rw [strncmp, if_neg hSame]
            simp only [List.take_succ_cons, List.cons.injEq,
              hSame, false_and, iff_false]
            omega

/- Compared for its own length, a text is a front or not. -/
theorem strncmp_length_eq_zero_iff_front
    {a b : List Char}
    (hA : '\x00' ∉ a) :
    strncmp a.length a b = 0 ↔ a <+: b := by
  induction a generalizing b with
  | nil => simp [strncmp]
  | cons c a ih =>
      rw [List.mem_cons, not_or] at hA
      rcases b with _ | ⟨d, b⟩
      · have hZero := toNat_ne_zero (Ne.symm hA.1)
        simp only [List.length_cons, strncmp]
        simp
        omega
      · rw [List.length_cons, strncmp, List.cons_prefix_cons]
        by_cases hSame : c = d
        · rw [if_pos hSame, ih hA.2]
          simp [hSame]
        · have hDiffer : c.toNat ≠ d.toNat := by
            intro hEq
            exact hSame (Char.toNat_inj.mp hEq)
          rw [if_neg hSame]
          simp only [hSame, false_and, iff_false]
          omega

/- The order in which `strcmp` puts texts. -/
def Before : List Char → List Char → Prop
| _, [] => False
| [], _ :: _ => True
| c :: a, d :: b =>
    c.toNat < d.toNat ∨ (c = d ∧ Before a b)

theorem Before.trans
    {a b c : List Char}
    (hFirst : Before a b)
    (hSecond : Before b c) :
    Before a c := by
  induction b generalizing a c with
  | nil =>
      rcases a with _ | ⟨x, a⟩
      · exact absurd hFirst not_false
      · exact absurd hFirst not_false
  | cons y b ih =>
      rcases c with _ | ⟨z, c⟩
      · exact absurd hSecond not_false
      · rcases a with _ | ⟨x, a⟩
        · trivial
        · rcases hFirst with hLess | ⟨rfl, hRest⟩
          · rcases hSecond with hMore | ⟨rfl, _⟩
            · exact Or.inl (Nat.lt_trans hLess hMore)
            · exact Or.inl hLess
          · rcases hSecond with hMore | ⟨rfl, hTail⟩
            · exact Or.inl hMore
            · exact Or.inr ⟨rfl, ih hRest hTail⟩

theorem not_before_self
    {a : List Char} :
    ¬ Before a a := by
  induction a with
  | nil => exact not_false
  | cons c a ih =>
      rintro (hLess | ⟨_, hRest⟩)
      · exact Nat.lt_irrefl _ hLess
      · exact ih hRest

theorem before_append
    {a rest : List Char}
    {c : Char} :
    Before a (a ++ c :: rest) := by
  induction a with
  | nil => trivial
  | cons d a ih => exact Or.inr ⟨rfl, ih⟩

/-
  A text compared with the first characters of another one is
  before them, begins with them, or is behind them.
-/
theorem strncmp_front_cases
    {text front rest : List Char}
    (hFront : '\x00' ∉ front) :
    (strncmp front.length text (front ++ rest) < 0 ∧
      Before text front) ∨
    (strncmp front.length text (front ++ rest) = 0 ∧
      front <+: text) ∨
    (0 < strncmp front.length text (front ++ rest) ∧
      Before front text) := by
  induction front generalizing text with
  | nil => exact Or.inr (Or.inl ⟨rfl, List.nil_prefix⟩)
  | cons d front ih =>
      rw [List.mem_cons, not_or] at hFront
      rw [List.length_cons, List.cons_append]
      rcases text with _ | ⟨c, text⟩
      · have hZero := toNat_ne_zero (Ne.symm hFront.1)
        refine Or.inl ⟨?_, trivial⟩
        rw [strncmp]
        omega
      · rw [strncmp]
        by_cases hSame : c = d
        · rw [if_pos hSame, hSame, List.cons_prefix_cons]
          simpa [Before] using ih hFront.2
        · have hDiffer : c.toNat ≠ d.toNat := by
            intro hEq
            exact hSame (Char.toNat_inj.mp hEq)
          rw [if_neg hSame]
          rcases Nat.lt_or_gt_of_ne hDiffer with
            hLess | hMore
          · exact Or.inl ⟨by omega, Or.inl hLess⟩
          · exact Or.inr (Or.inr ⟨by omega, Or.inl hMore⟩)

end CText

------------------------------------------------------------
-- Searching
------------------------------------------------------------

namespace CText

/- The position of the first occurrence of a pattern. -/
def find
    (pattern : List Char) :
    List Char → Option Nat
| [] => if pattern = [] then some 0 else none
| c :: text =>
    if pattern.isPrefixOf (c :: text) then some 0
    else (find pattern text).map (· + 1)

/- Replace the first occurrence, if there is one. -/
def replaceFirst
    (text pattern new : List Char) : List Char :=
  match find pattern text with
  | none => text
  | some pos =>
      text.take pos ++ new ++
        text.drop (pos + pattern.length)

/-
  The texts before and after the first occurrence of a
  character.
-/
def strchr
    (c : Char) :
    List Char → Option (List Char × List Char)
| [] => none
| d :: text =>
    if d = c then some ([], text)
    else
      (strchr c text).map (fun parts =>
        (d :: parts.1, parts.2))

/- A pattern is found exactly if it occurs. -/
theorem find_isSome_iff
    {pattern text : List Char} :
    (find pattern text).isSome = true ↔
      pattern <:+: text := by
  induction text with
  | nil =>
      by_cases hEmpty : pattern = []
      · simp [find, hEmpty]
      · simp [find, hEmpty]
  | cons c text ih =>
      rw [List.infix_cons_iff, ← ih]
      by_cases hFirst : pattern <+: c :: text
      · simp [find, hFirst]
      · simp [find, hFirst]

/- The pattern stands where it is found. -/
theorem find_eq_some
    {pattern text : List Char}
    {pos : Nat}
    (hFind : find pattern text = some pos) :
    pos + pattern.length ≤ text.length := by
  induction text generalizing pos with
  | nil =>
      by_cases hEmpty : pattern = []
      · simp only [find, hEmpty, if_true,
          Option.some.injEq] at hFind
        simp [← hFind, hEmpty]
      · simp [find, hEmpty] at hFind
  | cons c text ih =>
      by_cases hFirst : pattern <+: c :: text
      · simp [find, hFirst] at hFind
        rw [← hFind, Nat.zero_add]
        exact hFirst.length_le
      · simp only [find, List.isPrefixOf_iff_prefix, hFirst,
          if_false, Option.map_eq_some_iff] at hFind
        rcases hFind with ⟨pos', hRest, rfl⟩
        have hBound := ih hRest
        rw [List.length_cons]
        omega

/- Replacing changes the length by that of the new text. -/
theorem length_replaceFirst
    {text pattern : List Char}
    (hFound : pattern <:+: text)
    (new : List Char) :
    (replaceFirst text pattern new).length +
        pattern.length =
      text.length + new.length := by
  rcases Option.isSome_iff_exists.mp
      (find_isSome_iff.mpr hFound) with ⟨pos, hFind⟩
  have hBound := find_eq_some hFind
  simp only [replaceFirst, hFind, List.length_append,
    List.length_take, List.length_drop]
  omega

/- The parts around the first occurrence make up the text. -/
theorem strchr_eq_some_iff
    {c : Char}
    {text before after : List Char} :
    strchr c text = some (before, after) ↔
      text = before ++ c :: after ∧ c ∉ before := by
  induction text generalizing before with
  | nil =>
      simp [strchr]
  | cons d text ih =>
      by_cases hSame : d = c
      · rcases before with _ | ⟨e, before⟩
        · simp [strchr, hSame]
        · simp [strchr, hSame]
          intro hFirst _ hOther
          exact absurd hFirst hOther
      · rcases before with _ | ⟨e, before⟩
        · simp [strchr, hSame]
        · simp only [strchr, if_neg hSame,
            Option.map_eq_some_iff, Prod.mk.injEq,
            List.cons.injEq, List.cons_append, List.mem_cons,
            not_or, Prod.exists]
          constructor
          · rintro ⟨pre, post, hRest, ⟨rfl, rfl⟩, rfl⟩
            rcases ih.mp hRest with ⟨hText, hOther⟩
            exact ⟨⟨rfl, hText⟩, Ne.symm hSame, hOther⟩
          · rintro ⟨⟨rfl, hText⟩, _, hOther⟩
            exact ⟨before, after, ih.mpr ⟨hText, hOther⟩,
              ⟨rfl, rfl⟩, rfl⟩

/- A character is not found exactly if it does not occur. -/
theorem strchr_eq_none_iff
    {c : Char}
    {text : List Char} :
    strchr c text = none ↔ c ∉ text := by
  induction text with
  | nil =>
      simp [strchr]
  | cons d text ih =>
      by_cases hSame : d = c
      · simp [strchr, hSame]
      · simp [strchr, hSame, ih, Ne.symm hSame]

end CText
