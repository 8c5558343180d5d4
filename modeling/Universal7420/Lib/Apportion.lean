import Mathlib.Algebra.Order.Floor.Ring
import Mathlib.Tactic.Linarith
import Mathlib.Tactic.Positivity
import Mathlib.Tactic.Ring

/-
  Dealing out a number by shares of what is left.

  The takers come one after the other.  Each takes a part of
  what is left, given by its load, divided by the number of
  takers behind it and rounded up; the last takes the rest.
  The parts grow as the loads fall.  It is settled when every
  taker gets at most as many as each one of a lower load.

  Main declarations:
    * `Apportion.deal`
    * `Apportion.FairTurns`
    * `Apportion.EvenShares`
    * `Apportion.share_le_share_next`
    * `Apportion.remaining_le_zero`
    * `Apportion.deal_le_iff`
    * `Apportion.EvenShares.fairTurns`
    * `Apportion.FairTurns.atMostEven`
-/

------------------------------------------------------------
-- Shares
------------------------------------------------------------

namespace Apportion

variable {K : Type}
variable [Field K] [LinearOrder K] [FloorRing K]

/- The rounded-up part `a` of what is left. -/
def share
    (a : K)
    (left : Int)
    (others : Nat) : Int :=
  if others = 0 then
    left
  else
    ⌈a * (left : K) / (others : K)⌉

@[simp] theorem share_zero
    (a : K)
    (left : Int) :
    share a left 0 = left :=
  rfl

variable [IsStrictOrderedRing K]
variable {a b : K}
variable {left c : Int}
variable {others : Nat}

theorem share_le_iff
    (hOthers : 0 < others) :
    share a left others ≤ c ↔
      a * (left : K) ≤ (others : K) * (c : K) := by
  have hPositive : (0 : K) < (others : K) := by
    exact_mod_cast hOthers
  rw [share, if_neg hOthers.ne', Int.ceil_le,
    div_le_iff₀ hPositive, mul_comm (c : K)]

theorem lt_share_iff
    (hOthers : 0 < others) :
    c < share a left others ↔
      (others : K) * (c : K) < a * (left : K) := by
  rw [← not_le, share_le_iff hOthers, not_le]

theorem share_nonneg
    (hPart : 0 ≤ a)
    (hLeft : 0 ≤ left) :
    0 ≤ share a left others := by
  have hLeftK : (0 : K) ≤ (left : K) := by
    exact_mod_cast hLeft
  unfold share
  split
  · exact hLeft
  · apply Int.ceil_nonneg
    positivity

theorem share_le_left
    (hWhole : a ≤ 1)
    (hLeft : 0 ≤ left) :
    share a left others ≤ left := by
  rcases Nat.eq_zero_or_pos others with hNone | hSome
  · rw [hNone, share_zero]
  · have hLeftK : (0 : K) ≤ (left : K) := by
      exact_mod_cast hLeft
    have hOne : (1 : K) ≤ (others : K) := by
      exact_mod_cast hSome
    rw [share_le_iff hSome]
    nlinarith

/-
  The next share is not smaller, if this one left as much for
  each taker behind but one.
-/
theorem share_le_share_next
    (hPart : 0 ≤ a)
    (hGrow : a ≤ b)
    (hLeft : 0 ≤ left)
    (hOthers : 0 < others)
    (hEnough :
      share a left (others + 1) * ((others : Int) + 1) ≤
        left) :
    share a left (others + 1) ≤
      share b (left - share a left (others + 1)) others := by
  generalize hShare : share a left (others + 1) = c
    at hEnough ⊢
  have hNonneg : 0 ≤ c := by
    rw [← hShare]
    exact share_nonneg hPart hLeft
  have hBelow :
      ((others : K) + 1) * ((c : K) - 1) < a * (left : K) := by
    have hLt : c - 1 < share a left (others + 1) := by
      omega
    rw [lt_share_iff (Nat.succ_pos others)] at hLt
    push_cast at hLt
    exact hLt
  have hOthersK : (0 : K) < (others : K) := by
    exact_mod_cast hOthers
  have hEnoughK :
      (c : K) * ((others : K) + 1) ≤ (left : K) := by
    exact_mod_cast hEnough
  have hNonnegK : (0 : K) ≤ (c : K) := by
    exact_mod_cast hNonneg
  suffices hNext :
      c - 1 < share b (left - c) others by
    omega
  rw [lt_share_iff hOthers]
  push_cast
  have hRest : 0 ≤ (left : K) - (c : K) := by
    nlinarith
  have hGrowRest :
      a * ((left : K) - (c : K)) ≤
        b * ((left : K) - (c : K)) :=
    mul_le_mul_of_nonneg_right hGrow hRest
  rcases le_or_gt (a * (c : K)) ((c : K) - 1) with
    hSmall | hLarge
  · linarith
  · have hScaled :
        (others : K) * ((c : K) - 1) <
          (others : K) * (a * (c : K)) :=
      mul_lt_mul_of_pos_left hLarge hOthersK
    have hKept :
        a * ((others : K) * (c : K)) ≤
          a * ((left : K) - (c : K)) := by
      apply mul_le_mul_of_nonneg_left _ hPart
      linarith
    linarith

/- A share that is too large comes from a large part. -/
theorem share_sub_one_lt
    (hPart : 0 ≤ a)
    (hOthers : 0 < others)
    (hScarce : left ≤ share a left others * (others : Int)) :
    (share a left others : K) - 1 <
      a * (share a left others : K) := by
  have hBelow :
      share a left others - 1 < share a left others := by
    omega
  rw [lt_share_iff hOthers] at hBelow
  push_cast at hBelow
  have hOthersK : (0 : K) < (others : K) := by
    exact_mod_cast hOthers
  have hScarceK :
      (left : K) ≤
        (share a left others : K) * (others : K) := by
    exact_mod_cast hScarce
  apply lt_of_mul_lt_mul_left _ hOthersK.le
  calc
    (others : K) * ((share a left others : K) - 1) <
        a * (left : K) := hBelow
    _ ≤ a * ((share a left others : K) * (others : K)) :=
        mul_le_mul_of_nonneg_left hScarceK hPart
    _ = (others : K) * (a * (share a left others : K)) := by
        ring

/- A share that is too large for what is left stays so. -/
theorem left_sub_share_le
    (hWhole : a ≤ 1)
    (hGrow : a ≤ b)
    (hLeft : 0 ≤ left)
    (hPart : (c : K) - 1 < a * (c : K))
    (hScarce : left ≤ c * ((others : Int) + 1)) :
    left - share b left (others + 1) ≤ c * (others : Int) := by
  by_contra hMore
  have hSmall :
      share b left (others + 1) ≤
        left - c * (others : Int) - 1 := by
    omega
  rw [share_le_iff (Nat.succ_pos others)] at hSmall
  push_cast at hSmall
  have hLeftK : (0 : K) ≤ (left : K) := by
    exact_mod_cast hLeft
  have hScarceK :
      (left : K) ≤ (c : K) * ((others : K) + 1) := by
    exact_mod_cast hScarce
  have hOthersK : (0 : K) ≤ (others : K) := by
    positivity
  have hGrowLeft :
      a * (left : K) ≤ b * (left : K) :=
    mul_le_mul_of_nonneg_right hGrow hLeftK
  have hGap :
      0 ≤ ((others : K) + 1 - a) *
        ((c : K) * ((others : K) + 1) - (left : K)) := by
    apply mul_nonneg
    · linarith
    · linarith
  have hScaled :
      ((others : K) + 1) * ((c : K) - 1) <
        ((others : K) + 1) * (a * (c : K)) :=
    mul_lt_mul_of_pos_left hPart (by linarith)
  nlinarith

end Apportion

------------------------------------------------------------
-- Dealing
------------------------------------------------------------

namespace Apportion

variable {α β K : Type}
variable [LinearOrder β]
variable [Field K] [LinearOrder K] [FloorRing K]
variable (load : α → β)
variable (coef : β → K)

/- The takers with what they get. -/
def deal :
    List α → Int → List (α × Int)
| [], _ => []
| x :: rest, left =>
    (x, share (coef (load x)) left rest.length) ::
      deal rest
        (left - share (coef (load x)) left rest.length)

/- What is left for the last taker. -/
def remaining :
    List α → Int → Int
| [], left => left
| [_], left => left
| x :: y :: rest, left =>
    remaining (y :: rest)
      (left - share (coef (load x)) left (rest.length + 1))

/-
  The condition on every turn but the last.  A taker above the
  least load may take an equal part of what is left; one of the
  least load must leave for each one behind it as many as the
  last taker above the least load was given.
-/
def FairTurns
    (least : β) :
    Int → List β → Int → Prop
| _, [], _ => True
| given, u :: rest, left =>
    (rest ≠ [] →
      coef u * (left : K) ≤
        (rest.length : K) *
          ((if least < u then
              left / ((rest.length : Int) + 1)
            else
              left - (rest.length : Int) * given : Int) :
            K)) ∧
      FairTurns least
        (if least < u then
          share (coef u) left rest.length
        else
          given)
        rest (left - share (coef u) left rest.length)

/- Loads fall and parts grow along the list. -/
structure Graded (xs : List α) : Prop where
  unit :
    ∀ x ∈ xs, 0 ≤ coef (load x) ∧ coef (load x) ≤ 1
  falling : xs.Pairwise (fun x y => load y ≤ load x)
  growing :
    xs.Pairwise (fun x y => coef (load x) ≤ coef (load y))

variable {load coef}
variable {x y : α}
variable {rest xs : List α}
variable {left c given : Int}
variable {least : β}

omit [FloorRing K] in
theorem Graded.tail
    (hGraded : Graded load coef (x :: rest)) :
    Graded load coef rest := by
  constructor
  · intro z hz
    exact hGraded.unit z (List.mem_cons_of_mem x hz)
  · exact hGraded.falling.of_cons
  · exact hGraded.growing.of_cons

omit [LinearOrder β] in
/- The last taker gets what remains. -/
theorem getLast_mem_deal
    (hSome : xs ≠ [])
    (left : Int) :
    (xs.getLast hSome, remaining load coef xs left) ∈
      deal load coef xs left := by
  induction xs generalizing left with
  | nil =>
      exact absurd rfl hSome
  | cons x rest ih =>
      cases rest with
      | nil =>
          exact List.mem_singleton.mpr rfl
      | cons y rest =>
          rw [List.getLast_cons_cons]
          exact List.mem_cons_of_mem _
            (ih (List.cons_ne_nil y rest) _)

omit [LinearOrder β] in
@[simp] theorem deal_map_fst
    (load : α → β)
    (coef : β → K)
    (xs : List α)
    (left : Int) :
    (deal load coef xs left).map Prod.fst = xs := by
  induction xs generalizing left with
  | nil =>
      rfl
  | cons x rest ih =>
      simp [deal, ih]

omit [LinearOrder β] in
theorem fst_mem_of_mem_deal
    {p : α × Int}
    (hp : p ∈ deal load coef xs left) :
    p.1 ∈ xs := by
  rw [← deal_map_fst load coef xs left]
  exact List.mem_map_of_mem hp

omit [LinearOrder β] in
/- Together the takers get no more than there is. -/
theorem length_mul_le
    (hSome : xs ≠ [])
    (hAll : ∀ p ∈ deal load coef xs left, c ≤ p.2) :
    (xs.length : Int) * c ≤ left := by
  induction xs generalizing left with
  | nil =>
      exact absurd rfl hSome
  | cons x rest ih =>
      have hFirst := hAll _ List.mem_cons_self
      cases rest with
      | nil =>
          simpa using hFirst
      | cons y rest =>
          have hLater :=
            ih (List.cons_ne_nil y rest)
              (fun p hp => hAll p (List.mem_cons_of_mem _ hp))
          simp only [List.length_cons] at hFirst hLater ⊢
          push_cast at hLater ⊢
          linarith

variable [IsStrictOrderedRing K]

theorem Graded.share_bounds
    (hGraded : Graded load coef (x :: rest))
    (hLeft : 0 ≤ left) :
    0 ≤ share (coef (load x)) left rest.length ∧
      0 ≤ left -
        share (coef (load x)) left rest.length := by
  rcases hGraded.unit x List.mem_cons_self with
    ⟨hPart, hWhole⟩
  have hUpper :
      share (coef (load x)) left rest.length ≤ left :=
    share_le_left hWhole hLeft
  exact ⟨share_nonneg hPart hLeft, by omega⟩

omit [LinearOrder β] in
/- Nothing is dealt out of nothing. -/
theorem deal_zero :
    ∀ p ∈ deal load coef xs 0, p.2 = 0 := by
  have hShare :
      ∀ (a : K) (others : Nat), share a 0 others = 0 := by
    intro a others
    rw [share, Int.cast_zero, mul_zero, zero_div,
      Int.ceil_zero, ite_self]
  induction xs with
  | nil =>
      simp [deal]
  | cons x rest ih =>
      intro p hp
      rw [deal, hShare, sub_zero] at hp
      rcases List.mem_cons.mp hp with hHead | hTail
      · rw [hHead]
      · exact ih p hTail

theorem deal_nonneg
    (hGraded : Graded load coef xs)
    (hLeft : 0 ≤ left) :
    ∀ p ∈ deal load coef xs left, 0 ≤ p.2 := by
  induction xs generalizing left with
  | nil =>
      simp [deal]
  | cons x rest ih =>
      rcases hGraded.share_bounds hLeft with
        ⟨hNonneg, hNext⟩
      intro p hp
      rcases List.mem_cons.mp hp with hHead | hTail
      · rw [hHead]
        exact hNonneg
      · exact ih hGraded.tail hNext p hTail

/- Once the shares are too large, none is left at the end. -/
theorem remaining_le_zero
    {a : K}
    (hWhole : a ≤ 1)
    (hPart : (c : K) - 1 < a * (c : K))
    (hGraded : Graded load coef (x :: rest))
    (hGrow : ∀ z ∈ x :: rest, a ≤ coef (load z))
    (hLeft : 0 ≤ left)
    (hScarce : left ≤ c * (rest.length : Int)) :
    remaining load coef (x :: rest) left ≤ 0 := by
  induction rest generalizing x left with
  | nil =>
      simpa [remaining] using hScarce
  | cons y rest ih =>
      rw [List.length_cons, Nat.cast_add, Nat.cast_one]
        at hScarce
      refine ih hGraded.tail ?_ (hGraded.share_bounds hLeft).2
        ?_
      · intro z hz
        exact hGrow z (List.mem_cons_of_mem x hz)
      · exact left_sub_share_le hWhole
          (hGrow x List.mem_cons_self) hLeft hPart hScarce

/- A first share that is too large drains those behind. -/
theorem Graded.drained
    (hGraded : Graded load coef (x :: rest))
    (hLeft : 0 ≤ left)
    (hSome : 0 < rest.length)
    (hScarce :
      left ≤ share (coef (load x)) left rest.length *
        (rest.length : Int)) :
    remaining load coef (x :: rest) left ≤ 0 := by
  rcases hGraded.unit x List.mem_cons_self with
    ⟨hPart, hWhole⟩
  have hLarge := share_sub_one_lt hPart hSome hScarce
  apply remaining_le_zero hWhole hLarge hGraded _ hLeft
    hScarce
  intro z hz
  rcases List.mem_cons.mp hz with hHead | hTail
  · rw [hHead]
  · exact List.rel_of_pairwise_cons hGraded.growing hTail

/-
  If the first and the last taker get at least `c`, then so
  does every taker between them.
-/
theorem le_of_mem_deal
    (hGraded : Graded load coef (x :: rest))
    (hLeft : 0 ≤ left)
    (hPositive : 0 < c)
    (hFirst :
      c ≤ share (coef (load x)) left rest.length)
    (hLast : c ≤ remaining load coef (x :: rest) left) :
    ∀ p ∈ deal load coef (x :: rest) left, c ≤ p.2 := by
  induction rest generalizing x left with
  | nil =>
      intro p hp
      rw [List.mem_singleton.mp hp]
      exact hFirst
  | cons y rest ih =>
      rcases hGraded.share_bounds hLeft with
        ⟨_, hNext⟩
      rcases hGraded.unit x List.mem_cons_self with
        ⟨hPart, _⟩
      have hParts : coef (load x) ≤ coef (load y) :=
        List.rel_of_pairwise_cons hGraded.growing
          List.mem_cons_self
      have hSecond :
          c ≤ share (coef (load y))
            (left - share (coef (load x)) left
              (rest.length + 1)) rest.length := by
        rcases Nat.eq_zero_or_pos rest.length with
          hNone | hSome
        · rw [List.length_eq_zero_iff.mp hNone]
            at hLast ⊢
          exact hLast
        · by_cases hEnough :
              share (coef (load x)) left (rest.length + 1) *
                ((rest.length : Int) + 1) ≤ left
          · exact hFirst.trans
              (share_le_share_next hPart hParts hLeft hSome
                hEnough)
          · have hDrained :=
              hGraded.drained hLeft (Nat.succ_pos _)
                (le_of_not_ge hEnough)
            omega
      intro p hp
      rcases List.mem_cons.mp hp with hHead | hTail
      · rw [hHead]
        exact hFirst
      · exact ih hGraded.tail hNext hSecond hLast p hTail

end Apportion

------------------------------------------------------------
-- Falling Loads, Growing Shares
------------------------------------------------------------

namespace Apportion

variable {α β K : Type}
variable [LinearOrder β]
variable [Field K] [LinearOrder K] [FloorRing K]
variable [IsStrictOrderedRing K]
variable {load : α → β}
variable {coef : β → K}
variable {x : α}
variable {rest xs : List α}
variable {left given : Int}
variable {least : β}

/- No taker above the least load gets more than the last. -/
def LastIsGreatest
    (load : α → β)
    (coef : β → K)
    (least : β)
    (xs : List α)
    (left : Int) : Prop :=
  ∀ p ∈ deal load coef xs left, least < load p.1 →
    p.2 ≤ remaining load coef xs left

omit [IsStrictOrderedRing K] in
theorem LastIsGreatest.tail
    {y : α}
    (hLast :
      LastIsGreatest load coef least (x :: y :: rest)
        left) :
    LastIsGreatest load coef least (y :: rest)
      (left - share (coef (load x)) left
        (rest.length + 1)) := by
  intro p hp
  exact hLast p (List.mem_cons_of_mem _ hp)

/- A first taker above the least load gets the fewest. -/
theorem LastIsGreatest.first_le
    (hLast :
      LastIsGreatest load coef least (x :: rest) left)
    (hGraded : Graded load coef (x :: rest))
    (hLeft : 0 ≤ left)
    (hAbove : least < load x) :
    ∀ p ∈ deal load coef (x :: rest) left,
      share (coef (load x)) left rest.length ≤ p.2 := by
  have hRemains := hLast _ List.mem_cons_self hAbove
  rcases le_or_gt (share (coef (load x)) left rest.length)
      0 with hNone | hSome
  · intro p hp
    exact hNone.trans (deal_nonneg hGraded hLeft p hp)
  · exact le_of_mem_deal hGraded hLeft hSome (le_refl _)
      hRemains

omit [FloorRing K] [IsStrictOrderedRing K] in
/- The last taker has the least load. -/
theorem Graded.getLast_le
    (hGraded : Graded load coef xs)
    (hSome : xs ≠ []) :
    ∀ x ∈ xs, load (xs.getLast hSome) ≤ load x := by
  intro x hx
  have hFalling := hGraded.falling
  rw [← List.dropLast_append_getLast hSome] at hFalling hx
  rcases List.mem_append.mp hx with hBefore | hEnd
  · exact (List.pairwise_append.mp hFalling).2.2 x hBefore _
      (by simp)
  · rw [List.mem_singleton.mp hEnd]

/- Then the shares grow wherever the loads fall. -/
theorem LastIsGreatest.pairwise
    (hLast : LastIsGreatest load coef least xs left)
    (hGraded : Graded load coef xs)
    (hLeast : ∀ x ∈ xs, least ≤ load x)
    (hLeft : 0 ≤ left) :
    (deal load coef xs left).Pairwise
      (fun p q => load q.1 < load p.1 → p.2 ≤ q.2) := by
  induction xs generalizing left with
  | nil =>
      exact List.Pairwise.nil
  | cons x rest ih =>
      apply List.Pairwise.cons
      · intro q hq hBelow
        have hMem := fst_mem_of_mem_deal hq
        have hAbove : least < load x :=
          (hLeast q.1 (List.mem_cons_of_mem x hMem)).trans_lt
            hBelow
        exact hLast.first_le hGraded hLeft hAbove q
          (List.mem_cons_of_mem _ hq)
      · cases rest with
        | nil =>
            exact List.Pairwise.nil
        | cons y rest =>
            exact ih hLast.tail hGraded.tail
              (fun z hz =>
                hLeast z (List.mem_cons_of_mem x hz))
              (hGraded.share_bounds hLeft).2

/- One turn is fair if it leaves enough for those behind. -/
theorem turn_iff
    {u : β}
    {others : Nat}
    (hOthers : 0 < others) :
    coef u * (left : K) ≤
        (others : K) *
          ((if least < u then
              left / ((others : Int) + 1)
            else
              left - (others : Int) * given : Int) : K) ↔
      (others : Int) *
          (if least < u then
            share (coef u) left others
          else
            given) ≤
        left - share (coef u) left others := by
  rw [← share_le_iff hOthers]
  split
  · rw [Int.le_ediv_iff_mul_le (by omega)]
    constructor
    · intro hShare
      linarith
    · intro hShare
      linarith
  · constructor
    · intro hShare
      linarith
    · intro hShare
      linarith

/- If the last gets the most, then every turn was fair. -/
theorem LastIsGreatest.fairTurns
    (hLast : LastIsGreatest load coef least xs left)
    (hGraded : Graded load coef xs)
    (hLeft : 0 ≤ left)
    (hGiven : ∀ p ∈ deal load coef xs left, given ≤ p.2) :
    FairTurns coef least given (xs.map load) left := by
  induction xs generalizing left given with
  | nil =>
      trivial
  | cons x rest ih =>
      cases rest with
      | nil =>
          exact ⟨fun hSome => absurd rfl hSome, trivial⟩
      | cons y rest =>
          have hLater :
              ∀ p ∈ deal load coef (y :: rest)
                  (left - share (coef (load x)) left
                    (rest.length + 1)),
                (if least < load x then
                  share (coef (load x)) left
                    (rest.length + 1)
                else
                  given) ≤ p.2 := by
            intro p hp
            have hMem := List.mem_cons_of_mem
              (x, share (coef (load x)) left
                (rest.length + 1)) hp
            split
            · rename_i hAbove
              exact hLast.first_le hGraded hLeft hAbove p hMem
            · exact hGiven p hMem
          constructor
          · intro _
            rw [List.length_map]
            exact (turn_iff (Nat.succ_pos _)).mpr
              (length_mul_le (List.cons_ne_nil y rest)
                hLater)
          · rw [List.length_map]
            exact ih hLast.tail hGraded.tail
              (hGraded.share_bounds hLeft).2 hLater

/- A taker above the last leaves no less for the next one. -/
theorem Graded.share_le_next
    {y : α}
    (hGraded : Graded load coef (x :: y :: rest))
    (hAbove :
      load ((y :: rest).getLast (List.cons_ne_nil y rest)) <
        load y)
    (hLeft : 0 ≤ left)
    (hLeaves :
      ((rest.length + 1 : Nat) : Int) *
          share (coef (load x)) left (rest.length + 1) ≤
        left -
          share (coef (load x)) left (rest.length + 1)) :
    share (coef (load x)) left (rest.length + 1) ≤
      share (coef (load y))
        (left - share (coef (load x)) left
          (rest.length + 1)) rest.length := by
  rcases hGraded.unit x List.mem_cons_self with ⟨hPart, _⟩
  have hParts : coef (load x) ≤ coef (load y) :=
    List.rel_of_pairwise_cons hGraded.growing
      List.mem_cons_self
  have hBehind : 0 < rest.length := by
    apply List.length_pos_of_ne_nil
    intro hNone
    simp [hNone] at hAbove
  have hNonneg := (hGraded.share_bounds hLeft).1
  apply share_le_share_next hPart hParts hLeft hBehind
  simp only [Nat.cast_add, Nat.cast_one, List.length_cons]
    at hLeaves hNonneg
  linarith

/-
  The invariant of fair turns: what was given to the last
  taker above the least load is there for all to come.
-/
theorem FairTurns.lastIsGreatest
    (hFair :
      FairTurns coef least given ((x :: rest).map load) left)
    (hGraded : Graded load coef (x :: rest))
    (hLeast :
      load ((x :: rest).getLast (List.cons_ne_nil x rest)) =
        least)
    (hLeft : 0 ≤ left)
    (hEnough :
      ((x :: rest).length : Int) * given ≤ left)
    (hGrow :
      least < load x →
        given ≤ share (coef (load x)) left rest.length) :
    given ≤ remaining load coef (x :: rest) left ∧
      LastIsGreatest load coef least (x :: rest) left := by
  induction rest generalizing x left given with
  | nil =>
      rw [List.length_singleton, Nat.cast_one, one_mul]
        at hEnough
      refine ⟨hEnough, ?_⟩
      intro p hp hAbove
      rw [List.mem_singleton.mp hp]
      exact le_refl _
  | cons y rest ih =>
      rw [List.getLast_cons_cons] at hLeast
      rcases hFair with ⟨hTurn, hLater⟩
      rw [List.length_map] at hTurn hLater
      have hLeaves :=
        (turn_iff (Nat.succ_pos rest.length)).mp
          (hTurn (by simp))
      have hLoads : load y ≤ load x :=
        List.rel_of_pairwise_cons hGraded.falling
          List.mem_cons_self
      have hSecond :
          least < load y →
            (if least < load x then
              share (coef (load x)) left (rest.length + 1)
            else
              given) ≤
              share (coef (load y))
                (left - share (coef (load x)) left
                  (rest.length + 1)) rest.length := by
        intro hAbove
        rw [if_pos (hAbove.trans_le hLoads)] at hLeaves ⊢
        rw [← hLeast] at hAbove
        exact hGraded.share_le_next hAbove hLeft hLeaves
      rcases ih hLater hGraded.tail hLeast
          (hGraded.share_bounds hLeft).2 hLeaves hSecond with
        ⟨hGiven, hRest⟩
      constructor
      · refine le_trans ?_ hGiven
        split
        · rename_i hAbove
          exact hGrow hAbove
        · exact le_refl _
      · intro p hp hAbove
        rcases List.mem_cons.mp hp with hHead | hTail
        · rw [hHead] at hAbove ⊢
          rw [if_pos hAbove] at hGiven
          exact hGiven
        · exact hRest p hTail hAbove

omit [IsStrictOrderedRing K] in
/- The order of dealing is the order of the loads. -/
theorem deal_pairwise_iff
    (hGraded : Graded load coef xs) :
    (deal load coef xs left).Pairwise
        (fun p q => load q.1 < load p.1 → p.2 ≤ q.2) ↔
      ∀ p ∈ deal load coef xs left,
        ∀ q ∈ deal load coef xs left,
          load q.1 < load p.1 → p.2 ≤ q.2 := by
  have hFalling :
      (deal load coef xs left).Pairwise
        (fun p q => load q.1 ≤ load p.1) := by
    have hLoads := hGraded.falling
    rw [← deal_map_fst load coef xs left] at hLoads
    exact List.pairwise_map.mp hLoads
  constructor
  · intro hPairs p hp q hq hLt
    rcases List.getElem_of_mem hp with ⟨i, hi, rfl⟩
    rcases List.getElem_of_mem hq with ⟨j, hj, rfl⟩
    rcases lt_trichotomy i j with hBefore | hSame | hAfter
    · exact List.pairwise_iff_getElem.mp hPairs i j hi hj
        hBefore hLt
    · subst hSame
      exact le_refl _
    · have hLe := List.pairwise_iff_getElem.mp hFalling j i
        hj hi hAfter
      exact absurd hLe hLt.not_ge
  · intro hAll
    exact List.pairwise_of_forall_mem_list hAll

/-
  Every taker gets at most as many as each one of a lower load
  if and only if all turns are fair.
-/
theorem deal_le_iff
    (hGraded : Graded load coef xs)
    (hLeast : ∀ hSome, load (xs.getLast hSome) = least)
    (hLeft : 0 ≤ left) :
    (∀ p ∈ deal load coef xs left,
        ∀ q ∈ deal load coef xs left,
          load q.1 < load p.1 → p.2 ≤ q.2) ↔
      FairTurns coef least 0 (xs.map load) left := by
  constructor
  · intro hAll
    have hLast :
        LastIsGreatest load coef least xs left := by
      intro p hp hAbove
      have hSome : xs ≠ [] :=
        List.ne_nil_of_mem (fst_mem_of_mem_deal hp)
      rw [← hLeast hSome] at hAbove
      exact hAll p hp _ (getLast_mem_deal hSome left) hAbove
    exact hLast.fairTurns hGraded hLeft
      (deal_nonneg hGraded hLeft)
  · intro hFair
    rw [← deal_pairwise_iff hGraded]
    cases xs with
    | nil =>
        exact List.Pairwise.nil
    | cons x rest =>
        have hNonneg := (hGraded.share_bounds hLeft).1
        rcases hFair.lastIsGreatest hGraded (hLeast _) hLeft
            (by simpa using hLeft) (fun _ => hNonneg) with
          ⟨_, hLast⟩
        apply hLast.pairwise hGraded _ hLeft
        rw [← hLeast (List.cons_ne_nil x rest)]
        exact hGraded.getLast_le _

end Apportion

------------------------------------------------------------
-- Conditions On The Loads
------------------------------------------------------------

namespace Apportion

variable {β K : Type}
variable [LinearOrder β]
variable [Field K] [LinearOrder K] [FloorRing K]
variable (coef : β → K)

/-
  The part of every taker is at most an equal one of what is
  left, with room for the rounding when everyone still to come
  can have `least` of it.
-/
def SmallParts
    (least : Int) : List β → Prop
| [] => True
| u :: rest =>
    (rest ≠ [] →
      coef u *
          (((rest.length : K) + 1) * (least : K) +
            (rest.length : K)) ≤
        (rest.length : K) * (least : K)) ∧
      SmallParts least rest

/-
  The condition on the loads and on what is dealt out: the
  first taker takes no more than an equal part, and the parts
  of the others are small.
-/
def EvenShares : List β → Int → Prop
| [], _ => True
| u :: rest, left =>
    (rest ≠ [] →
      coef u * (left : K) ≤
        (rest.length : K) *
          ((left / ((rest.length : Int) + 1) : Int) : K)) ∧
      SmallParts coef (left / ((rest.length : Int) + 1)) rest

/- No taker above the least load takes more than its part. -/
def AtMostEven
    (least : β) : List β → Prop
| [] => True
| u :: rest =>
    (least < u →
      coef u * ((rest.length : K) + 1) ≤
        (rest.length : K)) ∧
      AtMostEven least rest

variable {coef}
variable [IsStrictOrderedRing K]
variable {a : K}
variable {left q given : Int}
variable {others : Nat}

omit [FloorRing K] in
/- A part that is small for some is small for more. -/
theorem small_part_mono
    {p : Int}
    (hPart : 0 ≤ a)
    (hOthers : 0 < others)
    (hLeast : 0 ≤ p)
    (hMore : p ≤ q)
    (hSmall :
      a * (((others : K) + 1) * (p : K) + (others : K)) ≤
        (others : K) * (p : K)) :
    a * (((others : K) + 1) * (q : K) + (others : K)) ≤
      (others : K) * (q : K) := by
  have hOthersK : (0 : K) < (others : K) := by
    exact_mod_cast hOthers
  have hMoreK : (0 : K) ≤ (q : K) - (p : K) := by
    rw [sub_nonneg]
    exact_mod_cast hMore
  have hRounding : 0 ≤ a * (others : K) := by
    positivity
  -- without the rounding the part is small by itself
  have hEven : a * ((others : K) + 1) ≤ (others : K) := by
    rcases hLeast.eq_or_lt with hZero | hPositive
    · rw [← hZero, Int.cast_zero, mul_zero, zero_add,
        mul_zero] at hSmall
      have hNone : a = 0 := by
        nlinarith
      rw [hNone, zero_mul]
      exact hOthersK.le
    · have hLeastK : (0 : K) < (p : K) := by
        exact_mod_cast hPositive
      apply le_of_mul_le_mul_right _ hLeastK
      linarith
  have hRest :
      a * ((others : K) + 1) * ((q : K) - (p : K)) ≤
        (others : K) * ((q : K) - (p : K)) :=
    mul_le_mul_of_nonneg_right hEven hMoreK
  linarith

omit [FloorRing K] in
/- A small part of what is left is at most an equal one. -/
theorem small_part_turn
    {p : Int}
    (hPart : 0 ≤ a)
    (hOthers : 0 < others)
    (hLeast : 0 ≤ p)
    (hEnough : ((others : Int) + 1) * p ≤ left)
    (hSmall :
      a * (((others : K) + 1) * (p : K) + (others : K)) ≤
        (others : K) * (p : K)) :
    a * (left : K) ≤
      (others : K) *
        ((left / ((others : Int) + 1) : Int) : K) := by
  have hMore : p ≤ left / ((others : Int) + 1) := by
    rw [Int.le_ediv_iff_mul_le (by omega)]
    linarith
  have hBelow :
      left ≤
        ((others : Int) + 1) * (left / ((others : Int) + 1)) +
          others := by
    have hMod :=
      Int.emod_lt_of_pos left
        (show (0 : Int) < (others : Int) + 1 by omega)
    have hSplit :=
      Int.mul_ediv_add_emod left ((others : Int) + 1)
    omega
  have hBelowK :
      (left : K) ≤
        ((others : K) + 1) *
            ((left / ((others : Int) + 1) : Int) : K) +
          (others : K) := by
    exact_mod_cast hBelow
  exact (mul_le_mul_of_nonneg_left hBelowK hPart).trans
    (small_part_mono hPart hOthers hLeast hMore hSmall)

/-
  A turn in which an equal part is not exceeded is fair, and
  leaves for everyone behind what it gave or was given.
-/
theorem even_turn
    {u v : β}
    (hOthers : 0 < others)
    (hGiven : ((others : Int) + 1) * given ≤ left)
    (hTurn :
      coef u * (left : K) ≤
        (others : K) *
          ((left / ((others : Int) + 1) : Int) : K)) :
    (others : Int) * (left / ((others : Int) + 1)) ≤
        left - share (coef u) left others ∧
      (others : Int) *
          (if v < u then
            share (coef u) left others
          else
            given) ≤
        left - share (coef u) left others := by
  rw [← share_le_iff hOthers] at hTurn
  have hPart :
      ((others : Int) + 1) * (left / ((others : Int) + 1)) ≤
        left :=
    Int.mul_ediv_self_le (by omega)
  have hLeaves :
      (others : Int) * (left / ((others : Int) + 1)) ≤
        left - share (coef u) left others := by
    linarith
  refine ⟨hLeaves, le_trans ?_ hLeaves⟩
  apply mul_le_mul_of_nonneg_left _ (Int.natCast_nonneg _)
  split
  · exact hTurn
  · rw [Int.le_ediv_iff_mul_le (by omega)]
    linarith

/-
  The invariant of small parts: everyone still to come can
  have `p`, and as many as were given.
-/
theorem SmallParts.fairTurns
    {least : β}
    {us : List β}
    {p : Int}
    (hSmall : SmallParts coef p us)
    (hPart : ∀ u ∈ us, 0 ≤ coef u)
    (hLeast : 0 ≤ p)
    (hEnough : (us.length : Int) * p ≤ left)
    (hGiven : (us.length : Int) * given ≤ left) :
    FairTurns coef least given us left := by
  induction us generalizing left given with
  | nil =>
      trivial
  | cons u rest ih =>
      rcases hSmall with ⟨hFirst, hLater⟩
      rw [List.length_cons, Nat.cast_add, Nat.cast_one]
        at hEnough hGiven
      rcases Nat.eq_zero_or_pos rest.length with
        hNone | hOthers
      · rw [List.length_eq_zero_iff.mp hNone]
        exact ⟨fun hSome => absurd rfl hSome, trivial⟩
      · have hTurn :=
          small_part_turn (hPart u List.mem_cons_self)
            hOthers hLeast hEnough
            (hFirst (List.ne_nil_of_length_pos hOthers))
        rcases even_turn (v := least) hOthers hGiven hTurn with
          ⟨hLeaves, hNext⟩
        have hMore : p ≤ left / ((rest.length : Int) + 1) := by
          rw [Int.le_ediv_iff_mul_le (by omega)]
          linarith
        refine ⟨fun _ => (turn_iff hOthers).mpr hNext,
          ih hLater
            (fun v hv => hPart v (List.mem_cons_of_mem u hv))
            (le_trans ?_ hLeaves) hNext⟩
        exact mul_le_mul_of_nonneg_left hMore
          (Int.natCast_nonneg _)

/- Even shares make every turn fair. -/
theorem EvenShares.fairTurns
    {least : β}
    {us : List β}
    (hEven : EvenShares coef us left)
    (hPart : ∀ u ∈ us, 0 ≤ coef u)
    (hLeft : 0 ≤ left) :
    FairTurns coef least 0 us left := by
  cases us with
  | nil =>
      trivial
  | cons u rest =>
      rcases hEven with ⟨hFirst, hLater⟩
      rcases Nat.eq_zero_or_pos rest.length with
        hNone | hOthers
      · rw [List.length_eq_zero_iff.mp hNone]
        exact ⟨fun hSome => absurd rfl hSome, trivial⟩
      · have hGiven :
            ((rest.length : Int) + 1) * 0 ≤ left := by
          rwa [mul_zero]
        rcases even_turn (u := u) (v := least) hOthers hGiven
            (hFirst (List.ne_nil_of_length_pos hOthers)) with
          ⟨hLeaves, hNext⟩
        refine ⟨fun _ => (turn_iff hOthers).mpr hNext,
          hLater.fairTurns
            (fun v hv => hPart v (List.mem_cons_of_mem u hv))
            (Int.ediv_nonneg hLeft (by omega)) hLeaves hNext⟩

omit [IsStrictOrderedRing K] in
/- For two loads the condition is that of the turns. -/
theorem evenShares_pair_iff
    {u least : β}
    (hAbove : least < u) :
    EvenShares coef [u, least] left ↔
      FairTurns coef least 0 [u, least] left := by
  simp [EvenShares, SmallParts, FairTurns, hAbove]

omit [FloorRing K] [IsStrictOrderedRing K] in
theorem atMostEven_of_least
    {least : β}
    {us : List β}
    (hNone : ∀ u ∈ us, ¬ least < u) :
    AtMostEven coef least us := by
  induction us with
  | nil =>
      trivial
  | cons u rest ih =>
      refine ⟨fun hAbove =>
        absurd hAbove (hNone u List.mem_cons_self), ih ?_⟩
      intro v hv
      exact hNone v (List.mem_cons_of_mem u hv)

/- Fair turns keep the parts above the least load even. -/
theorem FairTurns.atMostEven
    {least : β}
    {us : List β}
    (hFair : FairTurns coef least given us left)
    (hLast : ∀ hSome, us.getLast hSome = least)
    (hFalling : us.Pairwise (fun u v => v ≤ u))
    (hLeft : 0 < left) :
    AtMostEven coef least us := by
  induction us generalizing left given with
  | nil =>
      trivial
  | cons u rest ih =>
      rcases hFair with ⟨hTurn, hLater⟩
      by_cases hAbove : least < u
      · have hSome : rest ≠ [] := by
          intro hNone
          have hLeast := hLast (List.cons_ne_nil u rest)
          simp only [hNone, List.getLast_singleton] at hLeast
          exact hAbove.ne hLeast.symm
        have hOthers := List.length_pos_of_ne_nil hSome
        have hFirst := hTurn hSome
        rw [if_pos hAbove] at hFirst hLater
        have hPart :
            ((rest.length : Int) + 1) *
                (left / ((rest.length : Int) + 1)) ≤
              left :=
          Int.mul_ediv_self_le (by omega)
        refine ⟨fun _ => ?_, ih hLater ?_ hFalling.of_cons ?_⟩
        · have hPartK :
              ((rest.length : K) + 1) *
                  ((left / ((rest.length : Int) + 1) : Int) :
                    K) ≤
                (left : K) := by
            exact_mod_cast hPart
          have hOthersK : (0 : K) < (rest.length : K) := by
            exact_mod_cast hOthers
          have hLeftK : (0 : K) < (left : K) := by
            exact_mod_cast hLeft
          apply le_of_mul_le_mul_right _ hLeftK
          nlinarith
        · intro hRest
          rw [← hLast (List.cons_ne_nil u rest),
            List.getLast_cons hRest]
        · rw [← share_le_iff hOthers,
            Int.le_ediv_iff_mul_le (by omega)] at hFirst
          nlinarith
      · -- behind a taker of the least load all are of it
        apply atMostEven_of_least
        intro v hv hLt
        rcases List.mem_cons.mp hv with hHead | hTail
        · exact hAbove (hHead ▸ hLt)
        · exact hAbove
            (hLt.trans_le
              (List.rel_of_pairwise_cons hFalling hTail))

end Apportion
