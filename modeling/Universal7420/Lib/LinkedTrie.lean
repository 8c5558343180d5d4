import Mathlib.Logic.Function.Basic

/-
  Tries whose nodes are cells of a memory.

  Every cell has a key, a value and three links.  The siblings
  of one level hang in a binary tree, and `down` leads to the
  level below.  A link is an address, and zero is no link; the
  root has the address zero, and nothing leads to it.  Links
  lead to cells that are younger, so every walk ends.

  The level of a cell is the path of the cell above it.  All
  links respect the levels, so that a cell that is attached for
  one path is not met on any other.

  Main declarations:
    * `LinkedTrie.Walk`
    * `LinkedTrie.FallsOff`
    * `LinkedTrie.WellLinked`
    * `LinkedTrie.walk_attach_iff`
    * `LinkedTrie.WellLinked.attach`
    * `LinkedTrie.WellLinked.below_disjoint`
-/

------------------------------------------------------------
-- Cells And Walks
------------------------------------------------------------

namespace LinkedTrie

/- The three links of a cell. -/
inductive Link where
| left
| right
| down
deriving DecidableEq, Repr

structure Cell (κ ν : Type) where
  key : κ
  value : ν
  link : Link → Nat

/- A memory with cells at some addresses. -/
abbrev Cells (κ ν : Type) : Type :=
  Nat → Option (Cell κ ν)

/- What the walk for a path does at a cell. -/
inductive Move (κ : Type) where
| arrived
| follow (l : Link) (rest : List κ)
| lost

variable {κ ν : Type}
variable (cmp : κ → κ → Int)

/- The side on which a key is looked for. -/
def side (k key : κ) : Link :=
  if cmp k key < 0 then .left else .right

/- The walk with the rest of a path, at an address. -/
def move
    (a : Nat)
    (key : κ) :
    List κ → Move κ
| [] => if a = 0 then .arrived else .lost
| k :: ks =>
    if a = 0 then
      .follow .down (k :: ks)
    else if cmp k key = 0 then
      match ks with
      | [] => .arrived
      | k' :: ks' => .follow .down (k' :: ks')
    else
      .follow (side cmp k key) (k :: ks)

/- The walk arrives at a cell. -/
inductive Walk
    (cells : Cells κ ν) :
    Nat → List κ → Nat → Prop
| found
    {a : Nat}
    {c : Cell κ ν}
    {ks : List κ}
    (hCell : cells a = some c)
    (hMove : move cmp a c.key ks = .arrived) :
    Walk cells a ks a
| step
    {a x : Nat}
    {c : Cell κ ν}
    {l : Link}
    {ks rest : List κ}
    (hCell : cells a = some c)
    (hMove : move cmp a c.key ks = .follow l rest)
    (hLink : c.link l ≠ 0)
    (hRest : Walk cells (c.link l) rest x) :
    Walk cells a ks x

/- The walk ends where a link is missing. -/
inductive FallsOff
    (cells : Cells κ ν) :
    Nat → List κ → Nat → Link → List κ → Prop
| here
    {a : Nat}
    {c : Cell κ ν}
    {l : Link}
    {ks rest : List κ}
    (hCell : cells a = some c)
    (hMove : move cmp a c.key ks = .follow l rest)
    (hLink : c.link l = 0) :
    FallsOff cells a ks a l rest
| step
    {a e : Nat}
    {c : Cell κ ν}
    {l m : Link}
    {ks rest last : List κ}
    (hCell : cells a = some c)
    (hMove : move cmp a c.key ks = .follow l rest)
    (hLink : c.link l ≠ 0)
    (hRest : FallsOff cells (c.link l) rest e m last) :
    FallsOff cells a ks e m last

end LinkedTrie

------------------------------------------------------------
-- Moves
------------------------------------------------------------

namespace LinkedTrie

variable {κ ν : Type}
variable {cmp : κ → κ → Int}

/- A path that leads on is not empty. -/
theorem move_follow_rest
    {a : Nat}
    {key : κ}
    {l : Link}
    {ks rest : List κ}
    (hMove : move cmp a key ks = .follow l rest) :
    rest ≠ [] := by
  rcases ks with _ | ⟨k, ks⟩
  · simp only [move] at hMove
    split at hMove
    · cases hMove
    · cases hMove
  · simp only [move] at hMove
    split at hMove
    · cases hMove
      simp
    · split at hMove
      · split at hMove
        · cases hMove
        · cases hMove
          simp
      · cases hMove
        simp

/- A path that is longer makes the same moves. -/
theorem move_append
    {a : Nat}
    {key : κ}
    {l : Link}
    {ks : List κ}
    {k : κ}
    {rest : List κ}
    (hMove :
      move cmp a key ks = .follow l (k :: rest))
    (more : List κ) :
    move cmp a key (ks ++ more) =
      .follow l (k :: rest ++ more) := by
  rcases ks with _ | ⟨k', ks⟩
  · simp only [move] at hMove
    split at hMove
    · cases hMove
    · cases hMove
  · simp only [move, List.cons_append] at hMove ⊢
    split at hMove
    · rename_i hRoot
      rw [if_pos hRoot]
      cases hMove
      rfl
    · rename_i hRoot
      rw [if_neg hRoot]
      split at hMove
      · rename_i hSame
        rw [if_pos hSame]
        rcases ks with _ | ⟨k'', ks⟩
        · cases hMove
        · cases hMove
          rfl
      · rename_i hOther
        rw [if_neg hOther]
        cases hMove
        rfl

/- Where a path ends, a longer path leads down. -/
theorem move_append_of_arrived
    {a : Nat}
    {key : κ}
    {ks : List κ}
    (hMove : move cmp a key ks = .arrived)
    (k : κ)
    (more : List κ) :
    move cmp a key (ks ++ k :: more) =
      .follow .down (k :: more) := by
  rcases ks with _ | ⟨k', ks⟩
  · simp only [move] at hMove
    split at hMove
    · rename_i hRoot
      simp [move, hRoot]
    · cases hMove
  · simp only [move, List.cons_append] at hMove ⊢
    split at hMove
    · cases hMove
    · rename_i hRoot
      rw [if_neg hRoot]
      split at hMove
      · rename_i hSame
        rw [if_pos hSame]
        rcases ks with _ | ⟨k'', ks⟩
        · rfl
        · cases hMove
      · cases hMove

variable {cells : Cells κ ν}

/- A walk goes on below the cell at which it arrived. -/
theorem Walk.append
    {a x y : Nat}
    {ks : List κ}
    (hWalk : Walk cmp cells a ks x)
    {c : Cell κ ν}
    (hCell : cells x = some c)
    (hLink : c.link .down ≠ 0)
    {k : κ}
    {more : List κ}
    (hBelow : Walk cmp cells (c.link .down) (k :: more) y) :
    Walk cmp cells a (ks ++ k :: more) y := by
  induction hWalk with
  | found hHere hMove =>
      rw [hCell] at hHere
      cases hHere
      exact
        .step hCell (move_append_of_arrived hMove k more)
          hLink hBelow
  | @step a x c' l ks rest hHere hMove hOn hRest ih =>
      rcases hTail : rest with _ | ⟨k', rest'⟩
      · exact absurd hTail (move_follow_rest hMove)
      · subst hTail
        exact
          .step hHere (move_append hMove (k :: more)) hOn
            (ih hCell)

/- A walk ends below the cell at which it arrived. -/
theorem Walk.append_fallsOff
    {a x e : Nat}
    {l : Link}
    {ks last : List κ}
    (hWalk : Walk cmp cells a ks x)
    {c : Cell κ ν}
    (hCell : cells x = some c)
    (hLink : c.link .down ≠ 0)
    {k : κ}
    {more : List κ}
    (hBelow :
      FallsOff cmp cells (c.link .down) (k :: more) e l
        last) :
    FallsOff cmp cells a (ks ++ k :: more) e l last := by
  induction hWalk with
  | found hHere hMove =>
      rw [hCell] at hHere
      cases hHere
      exact
        .step hCell (move_append_of_arrived hMove k more)
          hLink hBelow
  | @step a x c' m ks rest hHere hMove hOn hRest ih =>
      rcases hTail : rest with _ | ⟨k', rest'⟩
      · exact absurd hTail (move_follow_rest hMove)
      · subst hTail
        exact
          .step hHere (move_append hMove (k :: more)) hOn
            (ih hCell)

/- A walk ends at a cell that has nothing below it. -/
theorem Walk.append_fallsOff_here
    {a x : Nat}
    {ks : List κ}
    (hWalk : Walk cmp cells a ks x)
    {c : Cell κ ν}
    (hCell : cells x = some c)
    (hLink : c.link .down = 0)
    (k : κ)
    (more : List κ) :
    FallsOff cmp cells a (ks ++ k :: more) x .down
      (k :: more) := by
  induction hWalk with
  | found hHere hMove =>
      rw [hCell] at hHere
      cases hHere
      exact
        .here hCell (move_append_of_arrived hMove k more)
          hLink
  | @step a x c' m ks rest hHere hMove hOn hRest ih =>
      rcases hTail : rest with _ | ⟨k', rest'⟩
      · exact absurd hTail (move_follow_rest hMove)
      · subst hTail
        exact
          .step hHere (move_append hMove (k :: more)) hOn
            (ih hCell)

/- A longer path ends at the same link. -/
theorem FallsOff.append
    {a e : Nat}
    {l : Link}
    {ks last : List κ}
    (hFalls : FallsOff cmp cells a ks e l last)
    (more : List κ) :
    FallsOff cmp cells a (ks ++ more) e l
      (last ++ more) := by
  induction hFalls with
  | @here a c m ks rest hHere hMove hNone =>
      rcases hTail : rest with _ | ⟨k', rest'⟩
      · exact absurd hTail (move_follow_rest hMove)
      · subst hTail
        exact .here hHere (move_append hMove more) hNone
  | @step a e c m l' ks rest last hHere hMove hOn hRest ih =>
      rcases hTail : rest with _ | ⟨k', rest'⟩
      · exact absurd hTail (move_follow_rest hMove)
      · subst hTail
        exact .step hHere (move_append hMove more) hOn ih

/- A path leads to one cell at most. -/
theorem Walk.unique
    {a x y : Nat}
    {ks : List κ}
    (hX : Walk cmp cells a ks x)
    (hY : Walk cmp cells a ks y) :
    x = y := by
  induction hX with
  | found hCell hMove =>
      cases hY with
      | found hCell' hMove' => rfl
      | step hCell' hMove' hLink hRest =>
          rw [hCell] at hCell'
          cases hCell'
          rw [hMove] at hMove'
          cases hMove'
  | step hCell hMove hLink hRest ih =>
      cases hY with
      | found hCell' hMove' =>
          rw [hCell] at hCell'
          cases hCell'
          rw [hMove] at hMove'
          cases hMove'
      | step hCell' hMove' hLink' hRest' =>
          rw [hCell] at hCell'
          cases hCell'
          rw [hMove] at hMove'
          cases hMove'
          exact ih hRest'

/- A walk that ends at a missing link does not arrive. -/
theorem FallsOff.not_walk
    {a e x : Nat}
    {l : Link}
    {ks last : List κ}
    (hFalls : FallsOff cmp cells a ks e l last) :
    ¬ Walk cmp cells a ks x := by
  induction hFalls with
  | here hCell hMove hLink =>
      intro hWalk
      cases hWalk with
      | found hCell' hMove' =>
          rw [hCell] at hCell'
          cases hCell'
          rw [hMove] at hMove'
          cases hMove'
      | step hCell' hMove' hLink' hRest' =>
          rw [hCell] at hCell'
          cases hCell'
          rw [hMove] at hMove'
          cases hMove'
          exact hLink' hLink
  | step hCell hMove hLink hRest ih =>
      intro hWalk
      cases hWalk with
      | found hCell' hMove' =>
          rw [hCell] at hCell'
          cases hCell'
          rw [hMove] at hMove'
          cases hMove'
      | step hCell' hMove' hLink' hRest' =>
          rw [hCell] at hCell'
          cases hCell'
          rw [hMove] at hMove'
          cases hMove'
          exact ih hRest'

end LinkedTrie

------------------------------------------------------------
-- Levels
------------------------------------------------------------

namespace LinkedTrie

variable {κ ν : Type}

/- The path that leads to a cell of a level. -/
def pathOf
    (home : Nat → List κ)
    (a : Nat)
    (key : κ) :
    List κ :=
  if a = 0 then [] else home a ++ [key]

/- The level to which a link of a cell leads. -/
def level
    (home : Nat → List κ)
    (a : Nat)
    (key : κ) :
    Link → List κ
| .left => home a
| .right => home a
| .down => pathOf home a key

/-
  The links of the cells form one tree, in which every cell is
  found by the walk for its own path.
-/
structure WellLinked
    (cmp : κ → κ → Int)
    (cells : Cells κ ν)
    (home : Nat → List κ)
    (bound : Nat) :
    Prop where
  root :
    ∃ c,
      cells 0 = some c ∧
      c.link .left = 0 ∧
      c.link .right = 0
  home_root : home 0 = []
  bounded :
    ∀ a c, cells a = some c → a < bound
  younger :
    ∀ a c l,
      cells a = some c →
      c.link l ≠ 0 →
      a < c.link l
  target :
    ∀ a c l,
      cells a = some c →
      c.link l ≠ 0 →
      ∃ t, cells (c.link l) = some t
  home_target :
    ∀ a c l,
      cells a = some c →
      c.link l ≠ 0 →
      home (c.link l) = level home a c.key l
  found :
    ∀ a c,
      cells a = some c →
      Walk cmp cells 0 (pathOf home a c.key) a
  owner :
    ∀ a c l b d m,
      cells a = some c →
      cells b = some d →
      c.link l ≠ 0 →
      c.link l = d.link m →
      a = b ∧ l = m

variable {cmp : κ → κ → Int}

/- A move stays on the path. -/
theorem level_append_of_move
    (hCmp : ∀ k key, cmp k key = 0 → k = key)
    {home : Nat → List κ}
    (hRoot : home 0 = [])
    {a : Nat}
    {key : κ}
    {l : Link}
    {ks rest : List κ}
    (hMove : move cmp a key ks = .follow l rest) :
    level home a key l ++ rest = home a ++ ks := by
  rcases ks with _ | ⟨k, ks⟩
  · simp only [move] at hMove
    split at hMove
    · cases hMove
    · cases hMove
  · simp only [move] at hMove
    split at hMove
    · rename_i hZero
      cases hMove
      simp [level, pathOf, hZero, hRoot]
    · rename_i hZero
      split at hMove
      · rename_i hSame
        have hKey : k = key := hCmp k key hSame
        rcases ks with _ | ⟨k', ks⟩
        · cases hMove
        · cases hMove
          simp [level, pathOf, hZero, hKey]
      · cases hMove
        unfold side
        split
        · rfl
        · rfl

/- Where the walk arrives, the path ends. -/
theorem pathOf_of_arrived
    (hCmp : ∀ k key, cmp k key = 0 → k = key)
    {home : Nat → List κ}
    (hRoot : home 0 = [])
    {a : Nat}
    {key : κ}
    {ks : List κ}
    (hMove : move cmp a key ks = .arrived) :
    pathOf home a key = home a ++ ks := by
  rcases ks with _ | ⟨k, ks⟩
  · simp only [move] at hMove
    split at hMove
    · rename_i hZero
      simp [pathOf, hZero, hRoot]
    · cases hMove
  · simp only [move] at hMove
    split at hMove
    · cases hMove
    · rename_i hZero
      split at hMove
      · rename_i hSame
        have hKey : k = key := hCmp k key hSame
        rcases ks with _ | ⟨k', ks⟩
        · simp [pathOf, hZero, hKey]
        · cases hMove
      · cases hMove

end LinkedTrie

------------------------------------------------------------
-- Walks In A Well Linked Memory
------------------------------------------------------------

namespace LinkedTrie

variable {κ ν : Type}
variable {cmp : κ → κ → Int}
variable {cells : Cells κ ν}
variable {home : Nat → List κ}
variable {bound : Nat}

/- The cell at which a walk arrives belongs to the path. -/
theorem Walk.path
    (hCmp : ∀ k key, cmp k key = 0 → k = key)
    (hLinked : WellLinked cmp cells home bound)
    {a x : Nat}
    {ks : List κ}
    (hWalk : Walk cmp cells a ks x) :
    ∃ c,
      cells x = some c ∧
      pathOf home x c.key = home a ++ ks := by
  induction hWalk with
  | found hCell hMove =>
      exact
        ⟨_, hCell,
          pathOf_of_arrived hCmp hLinked.home_root hMove⟩
  | step hCell hMove hLink hRest ih =>
      rcases ih with ⟨c, hTarget, hPath⟩
      refine ⟨c, hTarget, ?_⟩
      rw [
        hPath,
        hLinked.home_target _ _ _ hCell hLink,
        level_append_of_move hCmp hLinked.home_root hMove
      ]

/- The place where a walk ends belongs to the path. -/
theorem FallsOff.path
    (hCmp : ∀ k key, cmp k key = 0 → k = key)
    (hLinked : WellLinked cmp cells home bound)
    {a e : Nat}
    {l : Link}
    {ks rest : List κ}
    (hFalls : FallsOff cmp cells a ks e l rest) :
    ∃ c,
      cells e = some c ∧
      c.link l = 0 ∧
      level home e c.key l ++ rest = home a ++ ks := by
  induction hFalls with
  | here hCell hMove hLink =>
      exact
        ⟨_, hCell, hLink,
          level_append_of_move hCmp hLinked.home_root hMove⟩
  | step hCell hMove hLink hRest ih =>
      rcases ih with ⟨c, hEnd, hFree, hPath⟩
      refine ⟨c, hEnd, hFree, ?_⟩
      rw [
        hPath,
        hLinked.home_target _ _ _ hCell hLink,
        level_append_of_move hCmp hLinked.home_root hMove
      ]

end LinkedTrie

------------------------------------------------------------
-- Attaching A Cell
------------------------------------------------------------

namespace LinkedTrie

variable {κ ν : Type}

/- A cell whose link is set. -/
def Cell.setLink
    (c : Cell κ ν)
    (l : Link)
    (n : Nat) :
    Cell κ ν :=
  { c with link := Function.update c.link l n }

/- A cell without links. -/
def bare (k : κ) (v : ν) : Cell κ ν :=
  ⟨k, v, fun _ => 0⟩

/- A bare cell at a new address, to which a link is set. -/
def attach
    (cells : Cells κ ν)
    (e : Nat)
    (l : Link)
    (n : Nat)
    (k : κ)
    (v : ν) :
    Cells κ ν :=
  fun a =>
    if a = n then
      some (bare k v)
    else if a = e then
      (cells a).map fun c => c.setLink l n
    else
      cells a

theorem attach_new
    (cells : Cells κ ν)
    (e : Nat)
    (l : Link)
    (n : Nat)
    (k : κ)
    (v : ν) :
    attach cells e l n k v n = some (bare k v) := by
  simp [attach]

/- An old cell keeps its key and the links it had. -/
theorem attach_old
    {cells : Cells κ ν}
    {e n a : Nat}
    {l : Link}
    {c c' : Cell κ ν}
    (k : κ)
    (v : ν)
    (hNe : a ≠ n)
    (hCell : cells a = some c)
    (hCell' : attach cells e l n k v a = some c') :
    c'.key = c.key ∧
    c'.value = c.value ∧
    ∀ m,
      c'.link m =
        if a = e ∧ m = l then n else c.link m := by
  unfold attach at hCell'
  rw [if_neg hNe, hCell] at hCell'
  split at hCell'
  · rename_i hAt
    cases hCell'
    refine ⟨rfl, rfl, ?_⟩
    intro m
    simp [Cell.setLink, Function.update_apply, hAt]
  · rename_i hAt
    cases hCell'
    simp [hAt]

theorem attach_isSome
    {cells : Cells κ ν}
    {a : Nat}
    {c : Cell κ ν}
    (hCell : cells a = some c)
    (e : Nat)
    (l : Link)
    (n : Nat)
    (k : κ)
    (v : ν) :
    ∃ c', attach cells e l n k v a = some c' := by
  unfold attach
  split
  · exact ⟨_, rfl⟩
  · split
    · rw [hCell]
      exact ⟨_, rfl⟩
    · exact ⟨c, hCell⟩

/- Only the new address has a cell that was not there. -/
theorem attach_cell
    {cells : Cells κ ν}
    {e n a : Nat}
    {l : Link}
    {k : κ}
    {v : ν}
    {c' : Cell κ ν}
    (hNe : a ≠ n)
    (hCell' : attach cells e l n k v a = some c') :
    ∃ c, cells a = some c := by
  unfold attach at hCell'
  rw [if_neg hNe] at hCell'
  split at hCell'
  · cases hOld : cells a with
    | none => simp [hOld] at hCell'
    | some c => exact ⟨c, rfl⟩
  · exact ⟨c', hCell'⟩

variable {cmp : κ → κ → Int}
variable {cells : Cells κ ν}
variable {home : Nat → List κ}
variable {bound : Nat}

/- At the new cell a walk arrives at once or not at all. -/
theorem walk_attach_new
    (hCmp : ∀ k key, cmp k key = 0 → k = key)
    {e n x : Nat}
    {l : Link}
    {k : κ}
    {v : ν}
    {ks : List κ}
    (hNew : n ≠ 0)
    (hWalk :
      Walk cmp (attach cells e l n k v) n ks x) :
    x = n ∧ ks = [k] := by
  cases hWalk with
  | found hCell hMove =>
      rw [attach_new] at hCell
      cases hCell
      refine ⟨rfl, ?_⟩
      rcases ks with _ | ⟨k', _ | ⟨k'', ks⟩⟩
      · simp [move, hNew] at hMove
      · simp only [move, if_neg hNew] at hMove
        split at hMove
        · rename_i hSame
          rw [hCmp _ _ hSame]
          rfl
        · cases hMove
      · simp only [move, if_neg hNew] at hMove
        split at hMove
        · cases hMove
        · cases hMove
  | step hCell hMove hLink hRest =>
      rw [attach_new] at hCell
      cases hCell
      exact absurd rfl hLink

/- A cell keeps its key and the links that were set. -/
theorem attach_keeps
    {e n a : Nat}
    {l : Link}
    {c d : Cell κ ν}
    (hEnd : cells e = some d)
    (hFree : d.link l = 0)
    (hFresh : cells n = none)
    (k : κ)
    (v : ν)
    (hCell : cells a = some c) :
    ∃ c',
      attach cells e l n k v a = some c' ∧
      c'.key = c.key ∧
      ∀ m, c.link m ≠ 0 → c'.link m = c.link m := by
  have hNe : a ≠ n := by
    rintro rfl
    simp [hFresh] at hCell
  rcases attach_isSome hCell e l n k v with ⟨c', hCell'⟩
  rcases attach_old k v hNe hCell hCell' with
    ⟨hKey, _, hLinks⟩
  refine ⟨c', hCell', hKey, ?_⟩
  intro m hLink
  rw [hLinks, if_neg]
  rintro ⟨rfl, rfl⟩
  rw [hCell] at hEnd
  cases hEnd
  exact hLink hFree

/- A walk of the old memory is one of the new memory. -/
theorem Walk.attach
    {e n a x : Nat}
    {l : Link}
    {d : Cell κ ν}
    (hEnd : cells e = some d)
    (hFree : d.link l = 0)
    (hFresh : cells n = none)
    (k : κ)
    (v : ν)
    {ks : List κ}
    (hWalk : Walk cmp cells a ks x) :
    Walk cmp (attach cells e l n k v) a ks x := by
  induction hWalk with
  | found hCell hMove =>
      rcases attach_keeps hEnd hFree hFresh k v hCell with
        ⟨c', hCell', hKey, _⟩
      exact .found hCell' (by rw [hKey]; exact hMove)
  | @step a x c m ks rest hCell hMove hLink hRest ih =>
      rcases attach_keeps hEnd hFree hFresh k v hCell with
        ⟨c', hCell', hKey, hLinks⟩
      have hSame : c'.link m = c.link m := hLinks m hLink
      refine
        .step hCell' (by rw [hKey]; exact hMove)
          (by rw [hSame]; exact hLink) ?_
      rw [hSame]
      exact ih

/- Where a walk ends, a link is missing. -/
theorem FallsOff.free
    {a e : Nat}
    {l : Link}
    {ks rest : List κ}
    (hFalls : FallsOff cmp cells a ks e l rest) :
    ∃ d, cells e = some d ∧ d.link l = 0 := by
  induction hFalls with
  | here hCell hMove hLink => exact ⟨_, hCell, hLink⟩
  | step hCell hMove hLink hRest ih => exact ih

/- A walk that ended at the new link goes on to the cell. -/
theorem FallsOff.attach
    {e n a : Nat}
    {l : Link}
    (hNew : n ≠ 0)
    (hFresh : cells n = none)
    {k : κ}
    (hRefl : cmp k k = 0)
    (v : ν)
    {ks : List κ}
    (hFalls : FallsOff cmp cells a ks e l [k]) :
    Walk cmp (attach cells e l n k v) a ks n := by
  rcases hFalls.free with ⟨d, hEnd, hFree⟩
  generalize hRest : [k] = last at hFalls
  induction hFalls with
  | @here a c l ks rest hCell hMove hLink =>
      subst hRest
      have hNe : a ≠ n := by
        rintro rfl
        simp [hFresh] at hCell
      rcases attach_isSome hCell a l n k v with ⟨c', hCell'⟩
      rcases attach_old k v hNe hCell hCell' with
        ⟨hKey, _, hLinks⟩
      have hLink' : c'.link l = n := by
        rw [hLinks, if_pos ⟨rfl, rfl⟩]
      refine
        .step hCell' (by rw [hKey]; exact hMove)
          (by rw [hLink']; exact hNew) ?_
      rw [hLink']
      exact
        .found (attach_new _ _ _ _ _ _)
          (by simp [move, hNew, bare, hRefl])
  | @step a e c m l ks rest last hCell hMove hLink hOn ih =>
      rcases attach_keeps hEnd hFree hFresh k v hCell with
        ⟨c', hCell', hKey, hLinks⟩
      have hSame : c'.link m = c.link m := hLinks m hLink
      refine
        .step hCell' (by rw [hKey]; exact hMove)
          (by rw [hSame]; exact hLink) ?_
      rw [hSame]
      exact ih hEnd hFree hRest

/-
  A walk of the new memory is an old one, or it is the walk
  for the path of the new cell.
-/
theorem walk_of_walk_attach
    (hCmp : ∀ k key, cmp k key = 0 → k = key)
    (hLinked : WellLinked cmp cells home bound)
    {e n a x : Nat}
    {l : Link}
    {d : Cell κ ν}
    (hNew : n ≠ 0)
    (hFresh : cells n = none)
    (hEnd : cells e = some d)
    {k : κ}
    {v : ν}
    {ks : List κ}
    (hNe : a ≠ n)
    (hWalk :
      Walk cmp (attach cells e l n k v) a ks x) :
    Walk cmp cells a ks x ∨
    (x = n ∧ home a ++ ks = level home e d.key l ++ [k]) := by
  induction hWalk with
  | found hCell' hMove =>
      rcases attach_cell hNe hCell' with ⟨c, hCell⟩
      rcases attach_old k v hNe hCell hCell' with
        ⟨hKey, _, _⟩
      rw [hKey] at hMove
      exact Or.inl (.found hCell hMove)
  | @step a x c' m ks rest hCell' hMove hLink hRest ih =>
      rcases attach_cell hNe hCell' with ⟨c, hCell⟩
      rcases attach_old k v hNe hCell hCell' with
        ⟨hKey, _, hLinks⟩
      rw [hKey] at hMove
      have hPath :=
        level_append_of_move hCmp hLinked.home_root hMove
      rw [hLinks] at hLink hRest ih
      by_cases hAt : a = e ∧ m = l
      · -- The walk takes the new link.
        rw [if_pos hAt] at hRest
        rcases hAt with ⟨rfl, rfl⟩
        rcases walk_attach_new hCmp hNew hRest with
          ⟨rfl, rfl⟩
        rw [hCell] at hEnd
        cases hEnd
        exact Or.inr ⟨rfl, hPath.symm⟩
      · rw [if_neg hAt] at hLink ih
        rcases hLinked.target a c m hCell hLink with
          ⟨t, hTarget⟩
        have hOther : c.link m ≠ n := by
          intro hSame
          rw [hSame, hFresh] at hTarget
          cases hTarget
        rcases ih hOther with hOld | ⟨rfl, hLevel⟩
        · exact Or.inl (.step hCell hMove hLink hOld)
        · right
          refine ⟨rfl, ?_⟩
          rw [← hLevel, ← hPath]
          rw [hLinked.home_target a c m hCell hLink]

/-
  Attaching a cell where the walk for a path ended makes
  exactly this path lead to it.
-/
theorem walk_attach_iff
    (hCmp : ∀ k key, cmp k key = 0 ↔ k = key)
    (hLinked : WellLinked cmp cells home bound)
    {e n : Nat}
    {l : Link}
    (hNew : n ≠ 0)
    (hFresh : cells n = none)
    {k : κ}
    {path : List κ}
    (v : ν)
    (hFalls : FallsOff cmp cells 0 path e l [k])
    (q : List κ)
    (x : Nat) :
    Walk cmp (attach cells e l n k v) 0 q x ↔
      Walk cmp cells 0 q x ∨ (q = path ∧ x = n) := by
  have hSound : ∀ k key, cmp k key = 0 → k = key :=
    fun k key => (hCmp k key).1
  rcases hFalls.path hSound hLinked with
    ⟨d, hEnd, hFree, hPath⟩
  rw [hLinked.home_root, List.nil_append] at hPath
  constructor
  · intro hWalk
    rcases
      walk_of_walk_attach hSound hLinked hNew hFresh hEnd
        (Ne.symm hNew) hWalk with
      hOld | ⟨rfl, hLevel⟩
    · exact Or.inl hOld
    · rw [hLinked.home_root, List.nil_append] at hLevel
      exact Or.inr ⟨hLevel.trans hPath, rfl⟩
  · rintro (hOld | ⟨rfl, rfl⟩)
    · exact hOld.attach hEnd hFree hFresh k v
    · exact hFalls.attach hNew hFresh ((hCmp k k).2 rfl) v

end LinkedTrie

------------------------------------------------------------
-- The Tree Stays Well Linked
------------------------------------------------------------

namespace LinkedTrie

variable {κ ν : Type}
variable {cmp : κ → κ → Int}
variable {cells : Cells κ ν}
variable {home : Nat → List κ}
variable {bound : Nat}

theorem WellLinked.fresh
    (hLinked : WellLinked cmp cells home bound)
    {n : Nat}
    (hBound : bound ≤ n) :
    cells n = none := by
  cases hCell : cells n with
  | none => rfl
  | some c =>
      have hBelow := hLinked.bounded n c hCell
      omega

theorem WellLinked.mono
    (hLinked : WellLinked cmp cells home bound)
    {more : Nat}
    (hMore : bound ≤ more) :
    WellLinked cmp cells home more :=
  { hLinked with
    bounded := fun a c hCell =>
      Nat.lt_of_lt_of_le (hLinked.bounded a c hCell) hMore }

theorem WellLinked.positive
    (hLinked : WellLinked cmp cells home bound) :
    0 < bound := by
  rcases hLinked.root with ⟨c, hCell, _, _⟩
  exact hLinked.bounded 0 c hCell

/- The level of a cell does not change by a new one. -/
theorem level_update
    {n a : Nat}
    (hNe : a ≠ n)
    (path : List κ)
    (key : κ)
    (l : Link) :
    level (Function.update home n path) a key l =
      level home a key l := by
  cases l with
  | left => simp [level, hNe]
  | right => simp [level, hNe]
  | down => simp [level, pathOf, hNe]

/- At the root a walk can only lead down. -/
theorem FallsOff.down_of_root
    {a e : Nat}
    {l : Link}
    {ks rest : List κ}
    (hFalls : FallsOff cmp cells a ks e l rest)
    (hRoot : e = 0) :
    l = .down := by
  induction hFalls with
  | @here a c l ks rest hCell hMove hLink =>
      rcases ks with _ | ⟨k, ks⟩
      · simp [move, hRoot] at hMove
      · simp only [move, if_pos hRoot] at hMove
        cases hMove
        rfl
  | step hCell hMove hLink hRest ih => exact ih hRoot

/- A link of the new memory is the new one or an old one. -/
theorem attach_link_cases
    {e n a : Nat}
    {l m : Link}
    {d c : Cell κ ν}
    {k : κ}
    {v : ν}
    (hEnd : cells e = some d)
    (hCell : attach cells e l n k v a = some c)
    (hLink : c.link m ≠ 0) :
    a ≠ n ∧
    ((a = e ∧ m = l ∧ c.link m = n ∧ c.key = d.key) ∨
    ∃ o,
      cells a = some o ∧
      c.key = o.key ∧
      c.link m = o.link m) := by
  by_cases hAt : a = n
  · subst hAt
    rw [attach_new] at hCell
    cases hCell
    exact absurd rfl hLink
  · refine ⟨hAt, ?_⟩
    rcases attach_cell hAt hCell with ⟨o, hOld⟩
    rcases attach_old k v hAt hOld hCell with
      ⟨hKey, _, hLinks⟩
    have hThis := hLinks m
    split at hThis
    · rename_i hBoth
      rcases hBoth with ⟨rfl, rfl⟩
      rw [hOld] at hEnd
      cases hEnd
      exact Or.inl ⟨rfl, rfl, hThis, hKey⟩
    · exact Or.inr ⟨o, hOld, hKey, hThis⟩

/- No link of the old memory leads to a free address. -/
theorem WellLinked.link_ne_fresh
    (hLinked : WellLinked cmp cells home bound)
    {n a : Nat}
    {c : Cell κ ν}
    {m : Link}
    (hFresh : cells n = none)
    (hCell : cells a = some c)
    (hLink : c.link m ≠ 0) :
    c.link m ≠ n := by
  intro hSame
  rcases hLinked.target a c m hCell hLink with ⟨t, hTarget⟩
  rw [hSame, hFresh] at hTarget
  cases hTarget

/- Every cell of the new memory has one link to it. -/
theorem WellLinked.attach_owner
    (hLinked : WellLinked cmp cells home bound)
    {e n a b : Nat}
    {l m m' : Link}
    {d c c' : Cell κ ν}
    {k : κ}
    {v : ν}
    (hFresh : cells n = none)
    (hEnd : cells e = some d)
    (hCell : LinkedTrie.attach cells e l n k v a = some c)
    (hCell' : LinkedTrie.attach cells e l n k v b = some c')
    (hLink : c.link m ≠ 0)
    (hSame : c.link m = c'.link m') :
    a = b ∧ m = m' := by
  have hLink' : c'.link m' ≠ 0 := by
    rw [← hSame]
    exact hLink
  rcases attach_link_cases hEnd hCell hLink with
    ⟨_, ⟨rfl, rfl, hNew, _⟩ | ⟨o, hOld, _, hOldLink⟩⟩
  · rcases attach_link_cases hEnd hCell' hLink' with
      ⟨_, ⟨rfl, rfl, _, _⟩ | ⟨o', hOld', _, hOldLink'⟩⟩
    · exact ⟨rfl, rfl⟩
    · rw [hOldLink'] at hSame hLink'
      exact
        absurd (hSame.symm.trans hNew)
          (hLinked.link_ne_fresh hFresh hOld' hLink')
  · rw [hOldLink] at hSame hLink
    rcases attach_link_cases hEnd hCell' hLink' with
      ⟨_, ⟨rfl, rfl, hNew, _⟩ | ⟨o', hOld', _, hOldLink'⟩⟩
    · exact
        absurd (hSame.trans hNew)
          (hLinked.link_ne_fresh hFresh hOld hLink)
    · rw [hOldLink'] at hSame
      exact
        hLinked.owner a o m b o' m' hOld hOld' hLink hSame

/-
  A cell that is attached where the walk for its path ended
  belongs to the tree.
-/
theorem WellLinked.attach
    (hCmp : ∀ k key, cmp k key = 0 ↔ k = key)
    (hLinked : WellLinked cmp cells home bound)
    {e n next : Nat}
    {l : Link}
    (hBound : bound ≤ n)
    (hNext : n < next)
    {k : κ}
    {path : List κ}
    (v : ν)
    (hFalls : FallsOff cmp cells 0 (path ++ [k]) e l [k]) :
    WellLinked cmp
      (LinkedTrie.attach cells e l n k v)
      (Function.update home n path)
      next := by
  have hSound : ∀ k key, cmp k key = 0 → k = key :=
    fun k key => (hCmp k key).1
  have hPositive := hLinked.positive
  have hNew : n ≠ 0 := by omega
  have hFresh : cells n = none := hLinked.fresh hBound
  rcases hFalls.path hSound hLinked with
    ⟨d, hEnd, hFree, hPath⟩
  rw [hLinked.home_root, List.nil_append] at hPath
  have hLevel : level home e d.key l = path :=
    List.append_cancel_right hPath
  refine
    { root := ?_
      home_root := ?_
      bounded := ?_
      younger := ?_
      target := ?_
      home_target := ?_
      found := ?_
      owner := ?_ }
  · -- The new link is none of the root's side links.
    rcases hLinked.root with ⟨c, hCell, hLeft, hRight⟩
    rcases attach_isSome hCell e l n k v with ⟨c', hCell'⟩
    rcases attach_old k v (Ne.symm hNew) hCell hCell' with
      ⟨_, _, hLinks⟩
    have hDown : 0 = e → l = .down :=
      fun hRoot => hFalls.down_of_root hRoot.symm
    refine ⟨c', hCell', ?_, ?_⟩
    · rw [hLinks, if_neg, hLeft]
      rintro ⟨hRoot, hSide⟩
      rw [hDown hRoot] at hSide
      cases hSide
    · rw [hLinks, if_neg, hRight]
      rintro ⟨hRoot, hSide⟩
      rw [hDown hRoot] at hSide
      cases hSide
  · simp [Ne.symm hNew, hLinked.home_root]
  · intro a c hCell
    by_cases hAt : a = n
    · omega
    · rcases attach_cell hAt hCell with ⟨o, hOld⟩
      have hBelow := hLinked.bounded a o hOld
      omega
  · intro a c m hCell hLink
    rcases attach_link_cases hEnd hCell hLink with
      ⟨_, ⟨rfl, rfl, hNewLink, _⟩ | ⟨o, hOld, _, hSame⟩⟩
    · have hBelow := hLinked.bounded a d hEnd
      omega
    · rw [hSame] at hLink ⊢
      exact hLinked.younger a o m hOld hLink
  · intro a c m hCell hLink
    rcases attach_link_cases hEnd hCell hLink with
      ⟨_, ⟨rfl, rfl, hNewLink, _⟩ | ⟨o, hOld, _, hSame⟩⟩
    · rw [hNewLink]
      exact ⟨_, attach_new _ _ _ _ _ _⟩
    · rw [hSame] at hLink ⊢
      rcases hLinked.target a o m hOld hLink with
        ⟨t, hTarget⟩
      exact attach_isSome hTarget e l n k v
  · intro a c m hCell hLink
    rcases attach_link_cases hEnd hCell hLink with
      ⟨hNe, ⟨rfl, rfl, hNewLink, hKey⟩ |
        ⟨o, hOld, hKey, hSame⟩⟩
    · rw [hNewLink, Function.update_self]
      rw [level_update hNe, hKey, hLevel]
    · rw [hSame] at hLink ⊢
      rw [
        Function.update_of_ne
          (hLinked.link_ne_fresh hFresh hOld hLink)
      ]
      rw [level_update hNe, hKey]
      exact hLinked.home_target a o m hOld hLink
  · intro a c hCell
    by_cases hAt : a = n
    · subst hAt
      rw [attach_new] at hCell
      cases hCell
      have hOwn :
          pathOf (Function.update home a path) a k =
            path ++ [k] := by
        simp [pathOf, hNew]
      unfold bare
      rw [hOwn]
      exact hFalls.attach hNew hFresh ((hCmp k k).2 rfl) v
    · rcases attach_cell hAt hCell with ⟨o, hOld⟩
      rcases attach_old k v hAt hOld hCell with
        ⟨hKey, _, _⟩
      have hOwn :
          pathOf (Function.update home n path) a c.key =
            pathOf home a o.key := by
        simp [pathOf, hAt, hKey]
      rw [hOwn]
      exact
        (hLinked.found a o hOld).attach hEnd hFree hFresh
          k v
  · intro a c m b c' m' hCell hCell' hLink hSame
    exact
      hLinked.attach_owner hFresh hEnd hCell hCell' hLink
        hSame

end LinkedTrie

------------------------------------------------------------
-- Values
------------------------------------------------------------

namespace LinkedTrie

variable {κ ν : Type}
variable {cmp : κ → κ → Int}

/- Two memories whose cells differ in their values only. -/
def SameLinks (cells cells' : Cells κ ν) : Prop :=
  ∀ a,
    (cells a).map (fun c => (c.key, c.link)) =
      (cells' a).map fun c => (c.key, c.link)

theorem SameLinks.symm
    {cells cells' : Cells κ ν}
    (hSame : SameLinks cells cells') :
    SameLinks cells' cells :=
  fun a => (hSame a).symm

theorem SameLinks.cell
    {cells cells' : Cells κ ν}
    (hSame : SameLinks cells cells')
    {a : Nat}
    {c : Cell κ ν}
    (hCell : cells a = some c) :
    ∃ c',
      cells' a = some c' ∧
      c'.key = c.key ∧
      c'.link = c.link := by
  have hThis := hSame a
  rw [hCell] at hThis
  cases hCell' : cells' a with
  | none => simp [hCell'] at hThis
  | some c' =>
      rw [hCell'] at hThis
      simp only [Option.map_some, Option.some.injEq,
        Prod.mk.injEq] at hThis
      exact ⟨c', rfl, hThis.1.symm, hThis.2.symm⟩

/- Walks do not read the values. -/
theorem SameLinks.walk
    {cells cells' : Cells κ ν}
    (hSame : SameLinks cells cells')
    {a x : Nat}
    {ks : List κ}
    (hWalk : Walk cmp cells a ks x) :
    Walk cmp cells' a ks x := by
  induction hWalk with
  | found hCell hMove =>
      rcases hSame.cell hCell with ⟨c', hCell', hKey, _⟩
      exact .found hCell' (by rw [hKey]; exact hMove)
  | step hCell hMove hLink hRest ih =>
      rcases hSame.cell hCell with
        ⟨c', hCell', hKey, hLinks⟩
      refine
        .step hCell' (by rw [hKey]; exact hMove)
          (by rw [hLinks]; exact hLink) ?_
      rw [hLinks]
      exact ih

theorem SameLinks.wellLinked
    {cells cells' : Cells κ ν}
    {home : Nat → List κ}
    {bound : Nat}
    (hSame : SameLinks cells cells')
    (hLinked : WellLinked cmp cells home bound) :
    WellLinked cmp cells' home bound := by
  have hBack :
      ∀ {a c'}, cells' a = some c' →
        ∃ c,
          cells a = some c ∧
          c.key = c'.key ∧
          c.link = c'.link :=
    fun hCell' => hSame.symm.cell hCell'
  refine
    { root := ?_
      home_root := hLinked.home_root
      bounded := ?_
      younger := ?_
      target := ?_
      home_target := ?_
      found := ?_
      owner := ?_ }
  · rcases hLinked.root with ⟨c, hCell, hLeft, hRight⟩
    rcases hSame.cell hCell with ⟨c', hCell', _, hLinks⟩
    rw [← hLinks] at hLeft hRight
    exact ⟨c', hCell', hLeft, hRight⟩
  · intro a c' hCell'
    rcases hBack hCell' with ⟨c, hCell, _, _⟩
    exact hLinked.bounded a c hCell
  · intro a c' l hCell' hLink
    rcases hBack hCell' with ⟨c, hCell, _, hLinks⟩
    rw [← hLinks] at hLink ⊢
    exact hLinked.younger a c l hCell hLink
  · intro a c' l hCell' hLink
    rcases hBack hCell' with ⟨c, hCell, _, hLinks⟩
    rw [← hLinks] at hLink ⊢
    rcases hLinked.target a c l hCell hLink with
      ⟨t, hTarget⟩
    rcases hSame.cell hTarget with ⟨t', hTarget', _, _⟩
    exact ⟨t', hTarget'⟩
  · intro a c' l hCell' hLink
    rcases hBack hCell' with ⟨c, hCell, hKey, hLinks⟩
    rw [← hLinks] at hLink ⊢
    rw [← hKey]
    exact hLinked.home_target a c l hCell hLink
  · intro a c' hCell'
    rcases hBack hCell' with ⟨c, hCell, hKey, _⟩
    rw [← hKey]
    exact hSame.walk (hLinked.found a c hCell)
  · intro a c' l b d' m hCell' hCellB hLink hEq
    rcases hBack hCell' with ⟨c, hCell, _, hLinks⟩
    rcases hBack hCellB with ⟨d, hCellD, _, hLinksD⟩
    rw [← hLinks] at hLink
    rw [← hLinks, ← hLinksD] at hEq
    exact hLinked.owner a c l b d m hCell hCellD hLink hEq

end LinkedTrie

------------------------------------------------------------
-- The Cells Below A Cell
------------------------------------------------------------

namespace LinkedTrie

variable {κ ν : Type}

/- The cells that links lead to from a cell, and itself. -/
inductive Below
    (cells : Cells κ ν)
    (a : Nat) :
    Nat → Prop
| self : Below cells a a
| step
    {y : Nat}
    {c : Cell κ ν}
    {l : Link}
    (hBelow : Below cells a y)
    (hCell : cells y = some c)
    (hLink : c.link l ≠ 0) :
    Below cells a (c.link l)

variable {cmp : κ → κ → Int}
variable {cells : Cells κ ν}
variable {home : Nat → List κ}
variable {bound : Nat}

/- What is below a link of a cell is below the cell. -/
theorem Below.of_link
    {a x : Nat}
    {c : Cell κ ν}
    {l : Link}
    (hCell : cells a = some c)
    (hLink : c.link l ≠ 0)
    (hBelow : Below cells (c.link l) x) :
    Below cells a x := by
  induction hBelow with
  | self => exact .step .self hCell hLink
  | step hBelow hHere hOn ih => exact .step ih hHere hOn

/- What is below a cell is itself or below a link of it. -/
theorem Below.cases_link
    {a x : Nat}
    {c : Cell κ ν}
    (hCell : cells a = some c)
    (hBelow : Below cells a x) :
    x = a ∨
    ∃ l, c.link l ≠ 0 ∧ Below cells (c.link l) x := by
  induction hBelow with
  | self => exact Or.inl rfl
  | step hBelow hHere hOn ih =>
      rcases ih with rfl | ⟨m, hLink, hRest⟩
      · rw [hCell] at hHere
        cases hHere
        exact Or.inr ⟨_, hOn, .self⟩
      · exact Or.inr ⟨m, hLink, .step hRest hHere hOn⟩

theorem Walk.to_below
    {a x : Nat}
    {ks : List κ}
    (hWalk : Walk cmp cells a ks x) :
    Below cells a x := by
  induction hWalk with
  | found hCell hMove => exact .self
  | step hCell hMove hLink hRest ih =>
      exact ih.of_link hCell hLink

theorem Below.le
    (hLinked : WellLinked cmp cells home bound)
    {a x : Nat}
    (hBelow : Below cells a x) :
    a ≤ x := by
  induction hBelow with
  | self => exact Nat.le_refl a
  | step hBelow hCell hLink ih =>
      have hUp := hLinked.younger _ _ _ hCell hLink
      omega

theorem Below.isSome
    (hLinked : WellLinked cmp cells home bound)
    {a x : Nat}
    {c : Cell κ ν}
    (hCell : cells a = some c)
    (hBelow : Below cells a x) :
    ∃ t, cells x = some t := by
  induction hBelow with
  | self => exact ⟨c, hCell⟩
  | step hBelow hHere hLink ih =>
      exact hLinked.target _ _ _ hHere hLink

/- Of two cells above one cell, one is above the other. -/
theorem Below.linear
    (hLinked : WellLinked cmp cells home bound)
    {a b x : Nat}
    (hA : Below cells a x)
    (hB : Below cells b x) :
    Below cells a b ∨ Below cells b a := by
  induction hA with
  | self => exact Or.inr hB
  | @step y c l hBelow hCell hLink ih =>
      generalize hTarget : c.link l = x at hB
      cases hB with
      | self =>
          rw [← hTarget]
          exact Or.inl (.step hBelow hCell hLink)
      | step hBelow' hCell' hLink' =>
          rcases
            hLinked.owner _ _ _ _ _ _ hCell hCell' hLink
              hTarget with
            ⟨rfl, _⟩
          exact ih hBelow'

/- A link does not lead to a cell below another link. -/
theorem Below.ne_link
    (hLinked : WellLinked cmp cells home bound)
    {a : Nat}
    {c : Cell κ ν}
    {l m : Link}
    (hCell : cells a = some c)
    (hLink : c.link l ≠ 0)
    (hLink' : c.link m ≠ 0)
    (hOther : l ≠ m) :
    ¬ Below cells (c.link l) (c.link m) := by
  intro hBelow
  have hUp := hLinked.younger a c l hCell hLink
  generalize hTarget : c.link m = t at hBelow hLink'
  cases hBelow with
  | self =>
      rcases
        hLinked.owner a c m a c l hCell hCell
          (by rw [hTarget]; exact hLink') hTarget with
        ⟨_, hSame⟩
      exact hOther hSame.symm
  | step hRest hHere hOn =>
      rcases
        hLinked.owner _ _ _ _ _ _ hCell hHere
          (by rw [hTarget]; exact hOn) hTarget with
        ⟨rfl, _⟩
      have hDown := hRest.le hLinked
      omega

/- The trees below two links of a cell have no cell in common. -/
theorem WellLinked.below_disjoint
    (hLinked : WellLinked cmp cells home bound)
    {a x : Nat}
    {c : Cell κ ν}
    {l m : Link}
    (hCell : cells a = some c)
    (hLink : c.link l ≠ 0)
    (hLink' : c.link m ≠ 0)
    (hOther : l ≠ m)
    (hBelow : Below cells (c.link l) x) :
    ¬ Below cells (c.link m) x := by
  intro hBelow'
  rcases hBelow.linear hLinked hBelow' with hUp | hUp
  · exact
      Below.ne_link hLinked hCell hLink hLink' hOther hUp
  · exact
      Below.ne_link hLinked hCell hLink' hLink
        (Ne.symm hOther) hUp

end LinkedTrie

------------------------------------------------------------
-- Traversal
------------------------------------------------------------

namespace LinkedTrie

variable {κ ν : Type}

/-
  The cells below a cell, in the order of the binary trees:
  what is left of it, the cell, the level below and what is
  right of it.
-/
def inorder
    (cells : Cells κ ν) :
    Nat → Nat → List Nat
| 0, _ => []
| fuel + 1, a =>
    match cells a with
    | none => []
    | some c =>
        let visit :=
          fun l =>
            if c.link l = 0 then
              []
            else
              inorder cells fuel (c.link l)
        visit .left ++ a :: (visit .down ++ visit .right)

/- The cells below a link. -/
def branch
    (cells : Cells κ ν)
    (fuel : Nat)
    (c : Cell κ ν)
    (l : Link) :
    List Nat :=
  if c.link l = 0 then
    []
  else
    inorder cells fuel (c.link l)

theorem inorder_of_cell
    {cells : Cells κ ν}
    (fuel : Nat)
    {a : Nat}
    {c : Cell κ ν}
    (hCell : cells a = some c) :
    inorder cells (fuel + 1) a =
      branch cells fuel c .left ++
        a ::
          (branch cells fuel c .down ++
            branch cells fuel c .right) := by
  simp only [inorder, hCell, branch]

variable {cmp : κ → κ → Int}
variable {cells : Cells κ ν}
variable {home : Nat → List κ}
variable {bound : Nat}

/- The traversal meets exactly the cells below. -/
theorem mem_inorder
    (hLinked : WellLinked cmp cells home bound)
    (fuel : Nat)
    {a : Nat}
    {c : Cell κ ν}
    (hCell : cells a = some c)
    (hFuel : bound - a ≤ fuel)
    (x : Nat) :
    x ∈ inorder cells fuel a ↔ Below cells a x := by
  induction fuel generalizing a c with
  | zero =>
      have hBelow := hLinked.bounded a c hCell
      omega
  | succ fuel ih =>
      have hBranch :
          ∀ l,
            x ∈ branch cells fuel c l ↔
              c.link l ≠ 0 ∧ Below cells (c.link l) x := by
        intro l
        unfold branch
        split
        · rename_i hNone
          simp [hNone]
        · rename_i hLink
          rcases hLinked.target a c l hCell hLink with
            ⟨t, hTarget⟩
          have hUp := hLinked.younger a c l hCell hLink
          rw [ih hTarget (by omega)]
          simp [hLink]
      rw [inorder_of_cell fuel hCell]
      simp only [List.mem_append, List.mem_cons, hBranch]
      constructor
      · rintro (⟨hLink, hBelow⟩ | rfl |
          ⟨hLink, hBelow⟩ | ⟨hLink, hBelow⟩)
        · exact hBelow.of_link hCell hLink
        · exact .self
        · exact hBelow.of_link hCell hLink
        · exact hBelow.of_link hCell hLink
      · intro hBelow
        rcases hBelow.cases_link hCell with
          rfl | ⟨l, hLink, hRest⟩
        · exact Or.inr (Or.inl rfl)
        · cases l with
          | left => exact Or.inl ⟨hLink, hRest⟩
          | right =>
              exact
                Or.inr (Or.inr (Or.inr ⟨hLink, hRest⟩))
          | down =>
              exact
                Or.inr (Or.inr (Or.inl ⟨hLink, hRest⟩))

theorem mem_branch
    (hLinked : WellLinked cmp cells home bound)
    {fuel : Nat}
    {a : Nat}
    {c : Cell κ ν}
    (hCell : cells a = some c)
    (hFuel : bound - a ≤ fuel + 1)
    {l : Link}
    {x : Nat}
    (hIn : x ∈ branch cells fuel c l) :
    c.link l ≠ 0 ∧ Below cells (c.link l) x := by
  unfold branch at hIn
  split at hIn
  · cases hIn
  · rename_i hLink
    rcases hLinked.target a c l hCell hLink with
      ⟨t, hTarget⟩
    have hUp := hLinked.younger a c l hCell hLink
    rw [mem_inorder hLinked fuel hTarget (by omega)] at hIn
    exact ⟨hLink, hIn⟩

/- No cell is met twice. -/
theorem nodup_inorder
    (hLinked : WellLinked cmp cells home bound)
    (fuel : Nat)
    {a : Nat}
    {c : Cell κ ν}
    (hCell : cells a = some c)
    (hFuel : bound - a ≤ fuel) :
    (inorder cells fuel a).Nodup := by
  induction fuel generalizing a c with
  | zero => simp [inorder]
  | succ fuel ih =>
      have hNodup :
          ∀ l, (branch cells fuel c l).Nodup := by
        intro l
        unfold branch
        split
        · exact List.nodup_nil
        · rename_i hLink
          rcases hLinked.target a c l hCell hLink with
            ⟨t, hTarget⟩
          have hUp := hLinked.younger a c l hCell hLink
          exact ih hTarget (by omega)
      -- The cell is older than all that is below its links.
      have hSelf : ∀ l, a ∉ branch cells fuel c l := by
        intro l hIn
        rcases mem_branch hLinked hCell hFuel hIn with
          ⟨hLink, hBelow⟩
        have hUp := hLinked.younger a c l hCell hLink
        have hDown := hBelow.le hLinked
        omega
      have hApart :
          ∀ l m x,
            l ≠ m →
            x ∈ branch cells fuel c l →
            x ∉ branch cells fuel c m := by
        intro l m x hOther hIn hIn'
        rcases mem_branch hLinked hCell hFuel hIn with
          ⟨hLink, hBelow⟩
        rcases mem_branch hLinked hCell hFuel hIn' with
          ⟨hLink', hBelow'⟩
        exact
          hLinked.below_disjoint hCell hLink hLink' hOther
            hBelow hBelow'
      rw [inorder_of_cell fuel hCell]
      simp only [List.nodup_append, List.nodup_cons,
        List.mem_append, List.mem_cons, not_or]
      refine
        ⟨hNodup _, ⟨⟨hSelf _, hSelf _⟩, hNodup _,
          hNodup _, ?_⟩, ?_⟩
      · rintro x hIn y hIn' rfl
        exact hApart .down .right x nofun hIn hIn'
      · rintro x hIn y (rfl | hIn' | hIn') rfl
        · exact hSelf _ hIn
        · exact hApart .left .down x nofun hIn hIn'
        · exact hApart .left .right x nofun hIn hIn'

/- From the root every cell is met. -/
theorem mem_inorder_root
    (hLinked : WellLinked cmp cells home bound)
    {fuel : Nat}
    (hFuel : bound ≤ fuel)
    (x : Nat) :
    x ∈ inorder cells fuel 0 ↔ ∃ c, cells x = some c := by
  rcases hLinked.root with ⟨r, hRoot, _, _⟩
  rw [mem_inorder hLinked fuel hRoot (by omega)]
  constructor
  · intro hBelow
    exact hBelow.isSome hLinked hRoot
  · rintro ⟨c, hCell⟩
    exact (hLinked.found x c hCell).to_below

end LinkedTrie
