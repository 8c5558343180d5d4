import Universal7420.Irqbalance.Balance

/-
  The sort in `irqbalance_main`, loop by loop.

  The bound of the passes is a C integer that shrinks by one
  after every pass, and the passes end with the first one that
  does not swap.  The loops have a bound on their turns, and an
  access outside the array is a fault of its own.

  Main declarations:
    * `Universal7420.Irqbalance.sortCpudata`
    * `Universal7420.Irqbalance.sortPass_eq`
    * `Universal7420.Irqbalance.sortWhile_eq`
    * `Universal7420.Irqbalance.sortCpudata_correct`
    * `Universal7420.Irqbalance.irqbalanceMain_eq`
-/

------------------------------------------------------------
-- The Loops
------------------------------------------------------------

namespace Universal7420

namespace Irqbalance

inductive SortFault where
| outOfTurns
| outOfBounds (index : Int)
deriving DecidableEq, Repr

/- Read `c_cpudata[index]`. -/
def cpudataAt
    (cCpudata : List CpuData)
    (index : Int) : Except SortFault CpuData :=
  if 0 ≤ index then
    match cCpudata[index.toNat]? with
    | some data => .ok data
    | none => .error (.outOfBounds index)
  else
    .error (.outOfBounds index)

/- Store to `c_cpudata[index]`. -/
def storeCpudata
    (cCpudata : List CpuData)
    (index : Int)
    (data : CpuData) : Except SortFault (List CpuData) :=
  if 0 ≤ index ∧ index < cCpudata.length then
    .ok (cCpudata.set index.toNat data)
  else
    .error (.outOfBounds index)

/- The loop over `i`, up to `n - 1`. -/
def sortPass
    (n : Int) :
    Nat → Int → List CpuData → Bool →
      Except SortFault (List CpuData × Bool)
| 0, _, _, _ => .error .outOfTurns
| turns + 1, i, cCpudata, swp =>
    if i < n - 1 then do
      let first ← cpudataAt cCpudata i
      let second ← cpudataAt cCpudata (i + 1)
      if second.cpuUtil < first.cpuUtil then do
        let tmp := first
        let stored ← storeCpudata cCpudata i second
        let swapped ← storeCpudata stored (i + 1) tmp
        sortPass n turns (i + 1) swapped true
      else
        sortPass n turns (i + 1) cCpudata swp
    else
      .ok (cCpudata, swp)

/- The passes, while they swap. -/
def sortWhile :
    Nat → Int → List CpuData →
      Except SortFault (List CpuData)
| 0, _, _ => .error .outOfTurns
| turns + 1, n, cCpudata => do
    let pass ← sortPass n turns 0 cCpudata false
    if pass.2 then
      sortWhile turns (n - 1) pass.1
    else
      return pass.1

/- The sort of a copy of `__cpudata`. -/
def sortCpudata
    (turns : Nat)
    (cpudata : List CpuData) :
    Except SortFault (List CpuData) :=
  sortWhile turns cpudata.length cpudata

end Irqbalance

end Universal7420

------------------------------------------------------------
-- A Pass
------------------------------------------------------------

namespace Universal7420

namespace Irqbalance

theorem cpudataAt_eq
    {cCpudata : List CpuData}
    {i : Nat}
    (hInside : i < cCpudata.length) :
    cpudataAt cCpudata i = .ok cCpudata[i] := by
  rw [cpudataAt, if_pos (Int.natCast_nonneg i),
    Int.toNat_natCast, List.getElem?_eq_getElem hInside]

theorem storeCpudata_eq
    {cCpudata : List CpuData}
    {i : Nat}
    (data : CpuData)
    (hInside : i < cCpudata.length) :
    storeCpudata cCpudata i data =
      .ok (cCpudata.set i data) := by
  rw [storeCpudata, if_pos (by omega), Int.toNat_natCast]

/- A turn inside the array compares and swaps. -/
theorem sortPass_turn
    {n : Int}
    {i : Nat}
    {cCpudata : List CpuData}
    (swp : Bool)
    (hMore : (i : Int) < n - 1)
    (hInside : i + 1 < cCpudata.length) :
    ∃ state,
      BubbleSort.compareSwap CpuData.cpuUtil
          (cCpudata, swp) i = some state ∧
        state.1.length = cCpudata.length ∧
        ∀ turns,
          sortPass n (turns + 1) i cCpudata swp =
            sortPass n turns (i + 1 : Nat) state.1
              state.2 := by
  have hFirst : i < cCpudata.length := by
    omega
  have hSecond := cpudataAt_eq hInside
  have hStore := storeCpudata_eq cCpudata[i + 1] hFirst
  have hStore' :=
    @storeCpudata_eq (cCpudata.set i cCpudata[i + 1])
      (i + 1) cCpudata[i] (by simpa using hInside)
  rw [Nat.cast_add_one] at hSecond hStore'
  have hTurn :
      ∀ turns,
        sortPass n (turns + 1) i cCpudata swp =
          if cCpudata[i + 1].cpuUtil <
              cCpudata[i].cpuUtil then
            sortPass n turns (i + 1 : Nat)
              ((cCpudata.set i cCpudata[i + 1]).set (i + 1)
                cCpudata[i]) true
          else
            sortPass n turns (i + 1 : Nat) cCpudata
              swp := by
    intro turns
    rw [sortPass, if_pos hMore, cpudataAt_eq hFirst,
      Nat.cast_add_one]
    simp only [bind, Except.bind, hSecond, hStore, hStore']
  simp only [BubbleSort.compareSwap,
    List.getElem?_eq_getElem hFirst,
    List.getElem?_eq_getElem hInside]
  split
  · rename_i hSwap
    refine ⟨_, rfl, by simp, ?_⟩
    intro turns
    rw [hTurn, if_pos hSwap]
  · rename_i hKeep
    refine ⟨_, rfl, rfl, ?_⟩
    intro turns
    rw [hTurn, if_neg hKeep]

/-
  A pass over `left` more pairs gives what the steps at their
  indices give, or runs out of turns.
-/
theorem sortPass_eq
    {n : Int}
    {i left : Nat}
    {cCpudata : List CpuData}
    {swp : Bool}
    (hLeft : (left : Int) = max 0 (n - 1 - i))
    (hInside : left = 0 ∨ i + left < cCpudata.length) :
    ∃ state,
      (List.range' i left).foldlM
          (BubbleSort.compareSwap CpuData.cpuUtil)
          (cCpudata, swp) = some state ∧
        ∀ turns,
          sortPass n turns i cCpudata swp =
            if left < turns then
              .ok state
            else
              .error .outOfTurns := by
  induction left generalizing i cCpudata swp with
  | zero =>
      refine ⟨(cCpudata, swp), rfl, ?_⟩
      intro turns
      cases turns with
      | zero => rfl
      | succ turns =>
          rw [sortPass, if_neg (by omega),
            if_pos (Nat.succ_pos turns)]
  | succ left ih =>
      have hMore : (i : Int) < n - 1 := by
        omega
      have hPair : i + 1 < cCpudata.length := by
        omega
      rcases sortPass_turn swp hMore hPair with
        ⟨middle, hStep, hLength, hTurn⟩
      have hRest :
          left = 0 ∨ i + 1 + left < middle.1.length := by
        rw [hLength]
        omega
      rcases @ih (i + 1) middle.1 middle.2 (by omega)
          hRest with ⟨state, hFold, hPass⟩
      refine ⟨state, ?_, ?_⟩
      · rw [List.range'_succ, List.foldlM_cons, hStep]
        exact hFold
      · intro turns
        cases turns with
        | zero => rfl
        | succ turns =>
            rw [hTurn, hPass]
            simp only [Nat.succ_lt_succ_iff]

end Irqbalance

end Universal7420

------------------------------------------------------------
-- Enough Turns
------------------------------------------------------------

namespace Universal7420

namespace Irqbalance

/-
  A loop ends with a result within some number of turns, and
  with fewer turns nothing but the turns runs out.
-/
structure EndsWith
    {α : Type}
    (loop : Nat → Except SortFault α)
    (bound : Nat)
    (result : α) : Prop where
  enough :
    ∀ turns, bound ≤ turns → loop turns = .ok result
  only :
    ∀ turns,
      loop turns = .ok result ∨
        loop turns = .error .outOfTurns

theorem endsWith_ok
    {α : Type}
    (bound : Nat)
    (result : α) :
    EndsWith (fun _ => .ok result) bound result :=
  ⟨fun _ _ => rfl, fun _ => Or.inl rfl⟩

/- One turn, whose body needs more than `body` turns itself. -/
theorem EndsWith.turn
    {α : Type}
    {loop rest : Nat → Except SortFault α}
    {body bound : Nat}
    {result : α}
    (hRest : EndsWith rest bound result)
    (hBody : body < bound)
    (hNone : loop 0 = .error .outOfTurns)
    (hTurn :
      ∀ turns,
        loop (turns + 1) =
          if body < turns then
            rest turns
          else
            .error .outOfTurns) :
    EndsWith loop (bound + 1) result := by
  constructor
  · intro turns hTurns
    rcases turns with _ | turns
    · omega
    · rw [hTurn, if_pos (by omega)]
      exact hRest.enough turns (by omega)
  · intro turns
    rcases turns with _ | turns
    · exact Or.inr hNone
    · rw [hTurn]
      split
      · exact hRest.only turns
      · exact Or.inr rfl

end Irqbalance

end Universal7420

------------------------------------------------------------
-- The Sort
------------------------------------------------------------

namespace Universal7420

namespace Irqbalance

/- One pass from the start, against the pass by index. -/
theorem sortPass_zero_eq
    {n : Nat}
    {cCpudata : List CpuData}
    (hLength : n ≤ cCpudata.length) :
    ∃ state,
      BubbleSort.pass CpuData.cpuUtil n cCpudata =
          some state ∧
        ∀ turns,
          sortPass n turns 0 cCpudata false =
            if n - 1 < turns then
              .ok state
            else
              .error .outOfTurns := by
  have hEq :=
    @sortPass_eq n 0 (n - 1) cCpudata false
      (by omega) (by omega)
  rw [← List.range_eq_range'] at hEq
  exact hEq

/- A turn of the passes, when its pass is known. -/
theorem sortWhile_turn
    {n : Nat}
    {cCpudata : List CpuData}
    {state : List CpuData × Bool}
    (hPass :
      ∀ turns,
        sortPass n turns 0 cCpudata false =
          if n - 1 < turns then
            .ok state
          else
            .error .outOfTurns)
    (turns : Nat) :
    sortWhile (turns + 1) n cCpudata =
      if n - 1 < turns then
        if state.2 then
          sortWhile turns (n - 1 : Int) state.1
        else
          .ok state.1
      else
        .error .outOfTurns := by
  rw [sortWhile, hPass]
  by_cases hTurns : n - 1 < turns
  · rw [if_pos hTurns, if_pos hTurns]
    rfl
  · rw [if_neg hTurns, if_neg hTurns]
    rfl

/- The passes over the first `n` end with the sorted array. -/
theorem sortWhile_eq
    {n : Nat}
    {cCpudata : List CpuData}
    (hLength : n ≤ cCpudata.length) :
    ∃ sorted,
      BubbleSort.sort CpuData.cpuUtil n cCpudata =
          some sorted ∧
        EndsWith (fun turns => sortWhile turns n cCpudata)
          (n + 2) sorted := by
  induction n generalizing cCpudata with
  | zero =>
      rcases sortPass_zero_eq hLength with
        ⟨state, hState, hPass⟩
      -- a pass over no pair does not swap
      cases hState
      exact ⟨cCpudata, rfl,
        (endsWith_ok 1 cCpudata).turn Nat.one_pos rfl
          (sortWhile_turn hPass)⟩
  | succ n ih =>
      rcases sortPass_zero_eq hLength with
        ⟨⟨middle, swp⟩, hState, hPass⟩
      have hTurn := sortWhile_turn hPass
      have hBound : ((n + 1 : Nat) : Int) - 1 = n := by
        omega
      rw [hBound] at hTurn
      have hBody : n + 1 - 1 < n + 2 := by
        omega
      rw [BubbleSort.sort, hState]
      cases swp with
      | true =>
          rcases BubbleSort.pass_perm CpuData.cpuUtil
              hLength with ⟨middle', swp', hSame, hPerm⟩
          rw [hState] at hSame
          cases hSame
          have hShorter : n ≤ middle.length := by
            rw [hPerm.length_eq]
            omega
          rcases ih hShorter with ⟨sorted, hSort, hEnds⟩
          exact ⟨sorted, hSort, hEnds.turn hBody rfl hTurn⟩
      | false =>
          exact ⟨middle, rfl,
            (endsWith_ok (n + 2) middle).turn hBody rfl
              hTurn⟩

/-
  The sort ends, whatever the array, and never leaves it.  The
  records are moved as a whole, into the order of `cpu_util`.
-/
theorem sortCpudata_correct
    (cpudata : List CpuData) :
    ∃ sorted,
      (∀ turns, cpudata.length + 2 ≤ turns →
        sortCpudata turns cpudata = .ok sorted) ∧
      (∀ turns index,
        sortCpudata turns cpudata ≠
          .error (.outOfBounds index)) ∧
      sorted.Perm cpudata ∧
      sorted.Pairwise
        (fun x y => x.cpuUtil ≤ y.cpuUtil) := by
  rcases sortWhile_eq (Nat.le_refl cpudata.length) with
    ⟨sorted, hSort, hEnds⟩
  rcases BubbleSort.sort_perm CpuData.cpuUtil
      (Nat.le_refl cpudata.length) with
    ⟨sorted', hSort', hPerm⟩
  rw [hSort] at hSort'
  cases hSort'
  refine ⟨sorted, hEnds.enough, ?_, hPerm,
    BubbleSort.sort_sorted CpuData.cpuUtil hSort⟩
  intro turns index hFault
  unfold sortCpudata at hFault
  rcases hEnds.only turns with hOk | hTurns
  · rw [hOk] at hFault
    cases hFault
  · rw [hTurns] at hFault
    cases hFault

end Irqbalance

end Universal7420

------------------------------------------------------------
-- The Distribution After The Sort
------------------------------------------------------------

namespace Universal7420

namespace Irqbalance

variable {K : Type}
variable [Field K] [LinearOrder K] [FloorRing K]
variable (sqrt : K → K)

/- `irqbalance_main` goes on with the array of the loops. -/
theorem irqbalanceMain_eq
    {turns : Nat}
    {cpudata : List CpuData}
    (irqs : List Int)
    (hTurns : cpudata.length + 2 ≤ turns) :
    irqbalanceMain sqrt cpudata irqs =
      (sortCpudata turns cpudata).toOption.bind
        (fun sorted =>
          distribute sqrt irqs sorted.reverse 0
            (sorted.countP CpuData.online)) := by
  rcases sortWhile_eq (Nat.le_refl cpudata.length) with
    ⟨sorted, hSort, hEnds⟩
  have hLoop : sortCpudata turns cpudata = .ok sorted :=
    hEnds.enough turns hTurns
  simp only [irqbalanceMain, hSort, hLoop, bind,
    Except.toOption]

end Irqbalance

end Universal7420
