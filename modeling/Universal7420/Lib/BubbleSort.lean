import Mathlib.Data.List.Perm.Basic

/-
  Bubble sort of an array by index.

  A pass compares neighbours and remembers whether it swapped
  any.  Passes repeat while they swap, each on a prefix that
  is shorter by one.  An access outside the array has no
  result.

  Main declarations:
    * `BubbleSort.sort`
    * `BubbleSort.pass_perm`
    * `BubbleSort.sort_perm`
    * `BubbleSort.pass_eq`
    * `BubbleSort.sort_sorted`
-/

------------------------------------------------------------
-- Passes
------------------------------------------------------------

namespace BubbleSort

variable {α β : Type}
variable [LT β] [DecidableLT β]
variable (key : α → β)

/- Compare the elements at `i` and `i + 1`, and swap them. -/
def compareSwap
    (state : List α × Bool)
    (i : Nat) : Option (List α × Bool) :=
  match state.1[i]?, state.1[i + 1]? with
  | some a, some b =>
      if key b < key a then
        some ((state.1.set i b).set (i + 1) a, true)
      else
        some state
  | _, _ => none

/- One pass over the first `n` elements. -/
def pass
    (n : Nat)
    (l : List α) : Option (List α × Bool) :=
  (List.range (n - 1)).foldlM (compareSwap key) (l, false)

/- Passes over shrinking prefixes while they swap. -/
def sort :
    Nat → List α → Option (List α)
| 0, l => (pass key 0 l).map Prod.fst
| n + 1, l =>
    match pass key (n + 1) l with
    | none => none
    | some (l', true) => sort n l'
    | some (l', false) => some l'

end BubbleSort

------------------------------------------------------------
-- Permutation
------------------------------------------------------------

namespace BubbleSort

variable {α β : Type}
variable [LT β] [DecidableLT β]
variable (key : α → β)

/- A swap inside the array only moves elements. -/
theorem compareSwap_perm
    {state : List α × Bool}
    {i : Nat}
    (hIndex : i + 1 < state.1.length) :
    ∃ state', compareSwap key state i = some state' ∧
      state'.1.Perm state.1 := by
  have hFirst : i < state.1.length := by
    omega
  have hReduce :
      compareSwap key state i =
        if key state.1[i + 1] < key state.1[i] then
          some ((state.1.set i state.1[i + 1]).set (i + 1)
            state.1[i], true)
        else
          some state := by
    simp only [compareSwap,
      List.getElem?_eq_getElem hFirst,
      List.getElem?_eq_getElem hIndex]
  rw [hReduce]
  split
  · refine ⟨_, rfl, ?_⟩
    exact List.set_set_perm hFirst hIndex
  · exact ⟨state, rfl, List.Perm.refl _⟩

/- Steps that stay inside the array only move elements. -/
theorem foldlM_compareSwap_perm
    (state : List α × Bool)
    {indices : List Nat}
    (hIndices : ∀ i ∈ indices, i + 1 < state.1.length) :
    ∃ state',
      indices.foldlM (compareSwap key) state = some state' ∧
        state'.1.Perm state.1 := by
  induction indices generalizing state with
  | nil =>
      exact ⟨state, rfl, List.Perm.refl _⟩
  | cons i indices ih =>
      rcases compareSwap_perm key
          (hIndices i (by simp)) with
        ⟨middle, hStep, hMiddle⟩
      have hRest :
          ∀ j ∈ indices, j + 1 < middle.1.length := by
        intro j hj
        rw [hMiddle.length_eq]
        exact hIndices j (by simp [hj])
      rcases ih middle hRest with ⟨state', hFold, hPerm⟩
      refine ⟨state', ?_, hPerm.trans hMiddle⟩
      rw [List.foldlM_cons, hStep]
      exact hFold

theorem pass_perm
    {n : Nat}
    {l : List α}
    (hLength : n ≤ l.length) :
    ∃ l' swp, pass key n l = some (l', swp) ∧
      l'.Perm l := by
  have hIndices :
      ∀ i ∈ List.range (n - 1), i + 1 < l.length := by
    intro i hi
    have hRange := List.mem_range.mp hi
    omega
  rcases foldlM_compareSwap_perm key (l, false)
      hIndices with
    ⟨⟨l', swp⟩, hPass, hPerm⟩
  exact ⟨l', swp, hPass, hPerm⟩

/- Sorting stays inside the array and only moves elements. -/
theorem sort_perm
    {n : Nat}
    {l : List α}
    (hLength : n ≤ l.length) :
    ∃ l', sort key n l = some l' ∧ l'.Perm l := by
  induction n generalizing l with
  | zero =>
      exact ⟨l, rfl, List.Perm.refl l⟩
  | succ n ih =>
      rcases pass_perm key hLength with
        ⟨middle, swp, hPass, hMiddle⟩
      cases swp with
      | true =>
          have hShorter : n ≤ middle.length := by
            rw [hMiddle.length_eq]
            omega
          rcases ih hShorter with ⟨l', hSort, hPerm⟩
          refine ⟨l', ?_, hPerm.trans hMiddle⟩
          rw [sort, hPass]
          exact hSort
      | false =>
          refine ⟨middle, ?_, hMiddle⟩
          rw [sort, hPass]

end BubbleSort

------------------------------------------------------------
-- Order
------------------------------------------------------------

namespace BubbleSort

variable {α β : Type}
variable [LT β] [DecidableLT β]
variable (key : α → β)

/- A pass as a recursion that carries the greatest so far. -/
def bubble :
    α → List α → List α × Bool
| a, [] => ([a], false)
| a, b :: rest =>
    if key b < key a then
      (b :: (bubble a rest).1, true)
    else
      (a :: (bubble b rest).1, (bubble b rest).2)

theorem compareSwap_append
    (before after : List α)
    (a b : α)
    (swp : Bool) :
    compareSwap key (before ++ a :: b :: after, swp)
        before.length =
      if key b < key a then
        some (before ++ b :: a :: after, true)
      else
        some (before ++ a :: b :: after, swp) := by
  simp [compareSwap]

/- The steps from `before` on carry `a` through `front`. -/
theorem foldlM_compareSwap_eq
    (before : List α)
    (a : α)
    (front back : List α)
    (swp : Bool) :
    (List.range' before.length front.length).foldlM
        (compareSwap key) (before ++ a :: front ++ back, swp) =
      some (before ++ (bubble key a front).1 ++ back,
        swp || (bubble key a front).2) := by
  induction front generalizing before a swp with
  | nil =>
      simp [bubble]
  | cons b front ih =>
      have hLength :
          ∀ x : α,
            before.length + 1 = (before ++ [x]).length := by
        intro x
        rw [List.length_append, List.length_singleton]
      rw [List.length_cons, List.range'_succ,
        List.foldlM_cons, List.append_assoc,
        List.cons_append, List.cons_append,
        compareSwap_append]
      by_cases hSwap : key b < key a
      · have hRest := ih (before ++ [b]) a true
        rw [← hLength b] at hRest
        simp only [bubble, hSwap, if_true, Bool.or_true]
        simpa using hRest
      · have hRest := ih (before ++ [a]) b swp
        rw [← hLength a] at hRest
        simp only [bubble, hSwap, if_false]
        simpa using hRest

/- A pass over the whole front is one bubble. -/
theorem pass_eq
    (a : α)
    (front back : List α) :
    pass key (front.length + 1) (a :: front ++ back) =
      some ((bubble key a front).1 ++ back,
        (bubble key a front).2) := by
  have hPass :=
    foldlM_compareSwap_eq key [] a front back false
  rw [Bool.false_or] at hPass
  unfold pass
  rw [Nat.add_sub_cancel, List.range_eq_range']
  exact hPass

theorem bubble_perm
    (a : α)
    (front : List α) :
    (bubble key a front).1.Perm (a :: front) := by
  induction front generalizing a with
  | nil =>
      exact List.Perm.refl _
  | cons b front ih =>
      unfold bubble
      split
      · exact ((ih a).cons b).trans (List.Perm.swap a b front)
      · exact (ih b).cons a

variable [LE β] [Std.IsLinearOrder β] [Std.LawfulOrderLT β]

/- The last one of a bubble is the greatest. -/
theorem bubble_last
    (a : α)
    (front : List α) :
    ∃ init m, (bubble key a front).1 = init ++ [m] ∧
      ∀ x ∈ init, key x ≤ key m := by
  induction front generalizing a with
  | nil =>
      exact ⟨[], a, rfl, by simp⟩
  | cons b front ih =>
      have hCarried :
          ∀ c x, key x ≤ key c →
            ∃ init m,
              x :: (bubble key c front).1 = init ++ [m] ∧
                ∀ y ∈ init, key y ≤ key m := by
        intro c x hLe
        rcases ih c with ⟨init, m, hInit, hAll⟩
        have hMax : key c ≤ key m := by
          have hMem : c ∈ init ++ [m] := by
            rw [← hInit]
            exact (bubble_perm key c front).mem_iff.mpr
              List.mem_cons_self
          rcases List.mem_append.mp hMem with hIn | hLast
          · exact hAll c hIn
          · rw [List.mem_singleton.mp hLast]
            exact Std.le_refl _
        refine ⟨x :: init, m, by rw [hInit]; rfl, ?_⟩
        intro y hy
        rcases List.mem_cons.mp hy with hHead | hTail
        · rw [hHead]
          exact Std.le_trans hLe hMax
        · exact hAll y hTail
      unfold bubble
      split
      · rename_i hSwap
        exact hCarried a b (Std.le_of_lt hSwap)
      · rename_i hKeep
        exact hCarried b a (Std.not_lt.mp hKeep)

/- A bubble without a swap went over a sorted list. -/
theorem bubble_sorted
    {a : α}
    {front : List α}
    (hStill : (bubble key a front).2 = false) :
    (bubble key a front).1 = a :: front ∧
      (a :: front).Pairwise (fun x y => key x ≤ key y) := by
  induction front generalizing a with
  | nil =>
      exact ⟨rfl, List.pairwise_singleton _ _⟩
  | cons b front ih =>
      unfold bubble at hStill ⊢
      split at hStill
      · cases hStill
      · rename_i hKeep
        rw [if_neg hKeep]
        rcases ih hStill with ⟨hSame, hSorted⟩
        refine ⟨by rw [hSame], hSorted.cons ?_⟩
        have hFirst : key a ≤ key b :=
          Std.not_lt.mp hKeep
        intro y hy
        rcases List.mem_cons.mp hy with hHead | hTail
        · rw [hHead]
          exact hFirst
        · exact Std.le_trans hFirst
            (List.rel_of_pairwise_cons hSorted hTail)

/-
  The invariant of the passes: what is behind the prefix is
  sorted and not below it.
-/
theorem sort_append_sorted
    {front back : List α}
    (hBack : back.Pairwise (fun x y => key x ≤ key y))
    (hBelow :
      ∀ x ∈ front, ∀ y ∈ back, key x ≤ key y)
    {l : List α}
    (hSort :
      sort key front.length (front ++ back) = some l) :
    l.Pairwise (fun x y => key x ≤ key y) := by
  generalize hLength : front.length = n at hSort
  induction n generalizing front back with
  | zero =>
      rw [List.length_eq_zero_iff.mp hLength] at hSort
      cases hSort
      exact hBack
  | succ n ih =>
      rcases front with _ | ⟨a, front⟩
      · cases hLength
      have hFront : front.length = n := by
        simpa using hLength
      have hPerm := bubble_perm key a front
      rw [sort, ← hFront, pass_eq] at hSort
      cases hSwap : (bubble key a front).2 with
      | true =>
          rw [hSwap] at hSort
          rcases bubble_last key a front with
            ⟨init, m, hInit, hMax⟩
          rw [hInit] at hPerm
          have hInitLength : init.length = n := by
            have hSame := hPerm.length_eq
            simp at hSame
            omega
          simp only [hInit, List.append_assoc,
            List.singleton_append, hFront] at hSort
          have hMember :
              ∀ x ∈ init ++ [m], ∀ y ∈ back,
                key x ≤ key y := by
            intro x hx
            exact hBelow x (hPerm.mem_iff.mp hx)
          refine ih (hBack.cons ?_) ?_ hInitLength hSort
          · exact hMember m (by simp)
          · intro x hx y hy
            rcases List.mem_cons.mp hy with hHead | hTail
            · rw [hHead]
              exact hMax x hx
            · exact hMember x (by simp [hx]) y hTail
      | false =>
          rw [hSwap] at hSort
          cases hSort
          rcases bubble_sorted key hSwap with
            ⟨hSame, hSorted⟩
          rw [hSame]
          exact List.pairwise_append.mpr
            ⟨hSorted, hBack, hBelow⟩

/- The result of a whole sort is sorted. -/
theorem sort_sorted
    {l l' : List α}
    (hSort : sort key l.length l = some l') :
    l'.Pairwise (fun x y => key x ≤ key y) := by
  have hNone :
      ∀ x ∈ l, ∀ y ∈ ([] : List α), key x ≤ key y := by
    simp
  apply sort_append_sorted key List.Pairwise.nil hNone
  rw [List.append_nil]
  exact hSort

end BubbleSort
