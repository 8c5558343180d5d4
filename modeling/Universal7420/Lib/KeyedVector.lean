import Mathlib.Order.Basic
import Mathlib.Order.Lattice

/-
  Vectors of key-value pairs, sorted by key.

  A key occurs once.  Adding a pair under a key that is there
  replaces its value.

  Main declarations:
    * `KeyedVector`
    * `KeyedVector.add`
    * `KeyedVector.replaceValueFor`
    * `KeyedVector.lookup_add`
    * `KeyedVector.foldl_add_entries`
-/

------------------------------------------------------------
-- Sorted Pairs
------------------------------------------------------------

variable {κ ν : Type}
variable [LinearOrder κ]

@[ext] structure KeyedVector
    (κ ν : Type)
    [LinearOrder κ] where
  entries : List (κ × ν)
  sorted : entries.Pairwise (fun d e => d.1 < e.1)

namespace KeyedVector

/- Put a pair at its place, or in the place of its key. -/
def insertEntry
    (k : κ)
    (v : ν) :
    List (κ × ν) → List (κ × ν)
| [] => [(k, v)]
| e :: rest =>
    if k < e.1 then
      (k, v) :: e :: rest
    else if e.1 < k then
      e :: insertEntry k v rest
    else
      (k, v) :: rest

theorem mem_insertEntry
    {k : κ}
    {v : ν}
    {l : List (κ × ν)}
    {e : κ × ν}
    (hMem : e ∈ insertEntry k v l) :
    e = (k, v) ∨ e ∈ l := by
  induction l with
  | nil =>
      exact Or.inl (List.mem_singleton.mp hMem)
  | cons d rest ih =>
      unfold insertEntry at hMem
      split at hMem
      · exact List.mem_cons.mp hMem
      · split at hMem
        · rcases List.mem_cons.mp hMem with hHead | hTail
          · exact Or.inr (by simp [hHead])
          · rcases ih hTail with hNew | hOld
            · exact Or.inl hNew
            · exact Or.inr (List.mem_cons_of_mem d hOld)
        · rcases List.mem_cons.mp hMem with hNew | hOld
          · exact Or.inl hNew
          · exact Or.inr (List.mem_cons_of_mem d hOld)

theorem insertEntry_sorted
    (k : κ)
    (v : ν)
    {l : List (κ × ν)}
    (hSorted : l.Pairwise (fun d e => d.1 < e.1)) :
    (insertEntry k v l).Pairwise (fun d e => d.1 < e.1) := by
  induction l with
  | nil =>
      exact List.pairwise_singleton _ _
  | cons d rest ih =>
      unfold insertEntry
      split
      · rename_i hBefore
        refine List.Pairwise.cons ?_ hSorted
        intro e he
        rcases List.mem_cons.mp he with hHead | hTail
        · rw [hHead]
          exact hBefore
        · exact hBefore.trans
            (List.rel_of_pairwise_cons hSorted hTail)
      · split
        · rename_i hAfter
          refine List.Pairwise.cons ?_ (ih hSorted.of_cons)
          intro e he
          rcases mem_insertEntry he with hNew | hOld
          · rw [hNew]
            exact hAfter
          · exact List.rel_of_pairwise_cons hSorted hOld
        · rename_i hNotBefore hNotAfter
          have hSame : k = d.1 :=
            le_antisymm (not_lt.mp hNotAfter)
              (not_lt.mp hNotBefore)
          refine List.Pairwise.cons ?_ hSorted.of_cons
          intro e he
          rw [hSame]
          exact List.rel_of_pairwise_cons hSorted he

/- A pair behind all others goes to the end. -/
theorem insertEntry_last
    {k : κ}
    {l : List (κ × ν)}
    (hLast : ∀ e ∈ l, e.1 < k)
    (v : ν) :
    insertEntry k v l = l ++ [(k, v)] := by
  induction l with
  | nil =>
      rfl
  | cons d rest ih =>
      have hFirst := hLast d List.mem_cons_self
      have hRest :=
        ih (fun e he => hLast e (List.mem_cons_of_mem d he))
      rw [insertEntry, if_neg hFirst.not_gt, if_pos hFirst,
        hRest, List.cons_append]

end KeyedVector

------------------------------------------------------------
-- Operations
------------------------------------------------------------

namespace KeyedVector

def empty : KeyedVector κ ν where
  entries := []
  sorted := List.Pairwise.nil

def add
    (m : KeyedVector κ ν)
    (k : κ)
    (v : ν) : KeyedVector κ ν where
  entries := insertEntry k v m.entries
  sorted := insertEntry_sorted k v m.sorted

def removeItem
    (m : KeyedVector κ ν)
    (k : κ) : KeyedVector κ ν where
  entries := m.entries.filter (fun e => e.1 ≠ k)
  sorted := m.sorted.filter _

/- The pair of the key is removed before it is added. -/
def replaceValueFor
    (m : KeyedVector κ ν)
    (k : κ)
    (v : ν) : KeyedVector κ ν :=
  (m.removeItem k).add k v

/- The value of a key, if it has one. -/
def lookup
    (m : KeyedVector κ ν)
    (k : κ) : Option ν :=
  (m.entries.find? (fun e => e.1 = k)).map Prod.snd

variable (m : KeyedVector κ ν)

theorem mem_add
    {m : KeyedVector κ ν}
    {k : κ}
    {v : ν}
    {e : κ × ν}
    (hMem : e ∈ (m.add k v).entries) :
    e = (k, v) ∨ e ∈ m.entries :=
  mem_insertEntry hMem

theorem find?_insertEntry
    (k : κ)
    (v : ν)
    (k' : κ)
    (l : List (κ × ν)) :
    ((insertEntry k v l).find?
        (fun e => e.1 = k')).map Prod.snd =
      if k' = k then
        some v
      else
        (l.find? (fun e => e.1 = k')).map Prod.snd := by
  induction l with
  | nil =>
      by_cases hKey : k = k'
      · simp [insertEntry, hKey]
      · simp [insertEntry, hKey, Ne.symm hKey]
  | cons d rest ih =>
      unfold insertEntry
      split
      · by_cases hKey : k = k'
        · simp [hKey]
        · simp [hKey, Ne.symm hKey]
      · split
        · rename_i hAfter
          by_cases hFound : d.1 = k'
          · have hOther : k' ≠ k := by
              rw [← hFound]
              exact hAfter.ne
            simp [hFound, hOther]
          · simp only [List.find?_cons, hFound,
              decide_false, ih]
        · rename_i hNotBefore hNotAfter
          have hSame : d.1 = k :=
            le_antisymm (not_lt.mp hNotBefore)
              (not_lt.mp hNotAfter)
          by_cases hKey : k = k'
          · simp [hKey]
          · simp [hSame, hKey, Ne.symm hKey]

/- Adding a pair changes the value of its key only. -/
theorem lookup_add
    (k : κ)
    (v : ν)
    (k' : κ) :
    (m.add k v).lookup k' =
      if k' = k then some v else m.lookup k' :=
  find?_insertEntry k v k' m.entries

theorem lookup_removeItem
    {k k' : κ}
    (hOther : k' ≠ k) :
    (m.removeItem k).lookup k' = m.lookup k' := by
  unfold lookup removeItem
  rw [List.find?_filter]
  congr 2
  funext e
  by_cases hFound : e.1 = k'
  · simp [hFound, hOther]
  · simp [hFound]

theorem lookup_replaceValueFor
    (k : κ)
    (v : ν)
    (k' : κ) :
    (m.replaceValueFor k v).lookup k' =
      if k' = k then some v else m.lookup k' := by
  unfold replaceValueFor
  rw [lookup_add]
  split
  · rfl
  · rename_i hOther
    exact m.lookup_removeItem hOther

/- Adding the pairs of a vector one by one gives it back. -/
theorem foldl_add_entries :
    m.entries.foldl (fun acc e => acc.add e.1 e.2) empty =
      m := by
  have hGeneral :
      ∀ (l : List (κ × ν)) (acc : KeyedVector κ ν),
        (acc.entries ++ l).Pairwise
          (fun d e => d.1 < e.1) →
        (l.foldl (fun acc e => acc.add e.1 e.2)
          acc).entries = acc.entries ++ l := by
    intro l
    induction l with
    | nil =>
        intro acc _
        rw [List.append_nil]
        rfl
    | cons e rest ih =>
        intro acc hSorted
        have hLast : ∀ d ∈ acc.entries, d.1 < e.1 := by
          intro d hd
          exact (List.pairwise_append.mp hSorted).2.2 d hd e
            List.mem_cons_self
        have hAdd :
            (acc.add e.1 e.2).entries =
              acc.entries ++ [e] :=
          insertEntry_last hLast e.2
        have hMove :
            (acc.add e.1 e.2).entries ++ rest =
              acc.entries ++ e :: rest := by
          rw [hAdd, List.append_assoc, List.singleton_append]
        rw [List.foldl_cons, ih, hMove]
        rw [hMove]
        exact hSorted
  ext1
  exact hGeneral m.entries empty m.sorted

end KeyedVector
