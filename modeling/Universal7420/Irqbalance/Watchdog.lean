import Universal7420.Irqbalance.ProcStat
import Universal7420.Lib.EventSystem
import Mathlib.Data.List.Forall2
import Mathlib.Tactic.IntervalCases

/-
  Whose counters the watchdog stores.

  A core takes the line that its count reaches, and the pass
  stops at the first core without one.  The records are right
  as long as the online CPUs have no gap before a managed core
  and no core is left behind by the stop.

  Main declarations:
    * `Universal7420.Irqbalance.Faithful`
    * `Universal7420.Irqbalance.NoGap`
    * `Universal7420.Irqbalance.watchdogFrom_right`
    * `Universal7420.Irqbalance.watchdog_faithful`
-/

------------------------------------------------------------
-- Right Records
------------------------------------------------------------

namespace Universal7420

namespace Irqbalance

/- A record tells what the file says about a CPU. -/
structure RightRecord
    (stat : ProcStat)
    (cpu : Int)
    (data : CpuData) : Prop where
  online : data.online = true ↔ (stat.own cpu).isSome = true
  cputime :
    data.online = true → ∀ line, stat.own cpu = some line →
      data.cputime = line.cputime

/- Every managed core has a right record. -/
def Faithful
    (offsCpus : Int)
    (stat : ProcStat)
    (cpudata : List CpuData) : Prop :=
  ∀ (i : Nat) (data : CpuData), cpudata[i]? = some data →
    RightRecord stat (i + offsCpus) data

/-
  Counting to a managed core finds its own line, or none if
  it has none, and a core after one without a line has been
  marked offline before.
-/
structure NoGap
    (offsCpus : Int)
    (cpudata : List CpuData)
    (stat : ProcStat) : Prop where
  counted :
    ∀ i : Nat, i < cpudata.length →
      stat.counted (i + offsCpus) = stat.own (i + offsCpus)
  stale :
    ∀ (i j : Nat) (data : CpuData), i < j →
      cpudata[j]? = some data →
      stat.own (i + offsCpus) = none →
      data.online = false

/- The records over the passes of the watchdog. -/
def watchSystem
    (offsCpus : Int)
    (cpudata₀ : List CpuData) :
    EventSystem (List CpuData) ProcStat where
  init := cpudata₀
  step := fun cpudata stat =>
    some (irqbalanceLoadWatchdog (some stat.text) offsCpus
      cpudata).1

end Irqbalance

end Universal7420

------------------------------------------------------------
-- One Pass
------------------------------------------------------------

namespace Universal7420

namespace Irqbalance

/- Past the last line, counting further finds none either. -/
theorem ProcStat.counted_eq_none_of_le
    {stat : ProcStat}
    {cpu later : Int}
    (hNonneg : 0 ≤ cpu)
    (hLater : cpu ≤ later)
    (hNone : stat.counted cpu = none) :
    stat.counted later = none := by
  unfold counted at hNone ⊢
  rw [if_pos hNonneg, List.getElem?_eq_none_iff] at hNone
  rw [if_pos (by omega), List.getElem?_eq_none_iff]
  omega

theorem RightRecord.of_line
    {stat : ProcStat}
    {cpu : Int}
    {line : CpuLine}
    {data : CpuData}
    (hOwn : stat.own cpu = some line)
    (hOnline : data.online = true)
    (hCputime : data.cputime = line.cputime) :
    RightRecord stat cpu data := by
  refine ⟨by simp [hOwn, hOnline], ?_⟩
  intro _ line' hLine'
  rw [hOwn] at hLine'
  cases hLine'
  exact hCputime

theorem RightRecord.of_offline
    {stat : ProcStat}
    {cpu : Int}
    {data : CpuData}
    (hOwn : stat.own cpu = none)
    (hOffline : data.online = false) :
    RightRecord stat cpu data := by
  refine ⟨by simp [hOwn, hOffline], ?_⟩
  intro hOnline
  rw [hOffline] at hOnline
  cases hOnline

/- A core whose count reaches a line takes its counters. -/
theorem watchdogFrom_of_line
    {stat : ProcStat}
    {offsCpus : Int}
    {core : Nat}
    {line : CpuLine}
    (hLine : stat.counted (core + offsCpus) = some line)
    (old : CpuData)
    (rest : List CpuData) :
    ∃ data,
      data.online = true ∧
      data.cputime = line.cputime ∧
      (watchdogFrom (some stat.text) offsCpus core
          (old :: rest)).1 =
        data :: (watchdogFrom (some stat.text) offsCpus
          (core + 1) rest).1 := by
  simp only [watchdogFrom, readCpudata_of_line hLine, ne_eq,
    not_true_eq_false, if_false]
  exact ⟨_, rfl, rfl, rfl⟩

/- A core without a line stops the pass. -/
theorem watchdogFrom_of_no_line
    {stat : ProcStat}
    {offsCpus : Int}
    {core : Nat}
    (hLine : stat.counted (core + offsCpus) = none)
    (old : CpuData)
    (rest : List CpuData) :
    ∃ data,
      data.online = false ∧
      (watchdogFrom (some stat.text) offsCpus core
          (old :: rest)).1 =
        data :: rest := by
  rcases readCpudata_of_no_line hLine old with
    ⟨hRet, hOffline⟩
  refine ⟨_, hOffline, ?_⟩
  simp only [watchdogFrom, hRet]
  rfl

/- The pass from a core on leaves right records. -/
theorem watchdogFrom_right
    {stat : ProcStat}
    {offsCpus : Int}
    {start : Nat}
    {cpudata : List CpuData}
    (hNonneg : 0 ≤ (start : Int) + offsCpus)
    (hCounted :
      ∀ j < cpudata.length,
        stat.counted ((start + j : Nat) + offsCpus) =
          stat.own ((start + j : Nat) + offsCpus))
    (hStale :
      ∀ i j data, i < j → cpudata[j]? = some data →
        stat.own ((start + i : Nat) + offsCpus) = none →
        data.online = false) :
    ∀ j data,
      (watchdogFrom (some stat.text) offsCpus start
        cpudata).1[j]? = some data →
      RightRecord stat ((start + j : Nat) + offsCpus)
        data := by
  induction cpudata generalizing start with
  | nil =>
      intro j data hData
      simp [watchdogFrom] at hData
  | cons old rest ih =>
      have hFirst :
          stat.counted (start + offsCpus) =
            stat.own (start + offsCpus) :=
        hCounted 0 (by simp)
      intro j data hData
      cases hLine : stat.counted (start + offsCpus) with
      | some line =>
          rw [hLine] at hFirst
          rcases watchdogFrom_of_line hLine old rest with
            ⟨record, hOnline, hCputime, hPass⟩
          rw [hPass] at hData
          cases j with
          | zero =>
              cases hData
              exact .of_line hFirst.symm hOnline hCputime
          | succ j =>
              have hShift :
                  ∀ k, start + (k + 1) = start + 1 + k := by
                omega
              rw [List.getElem?_cons_succ] at hData
              rw [hShift]
              apply ih _ _ _ j data hData
              · omega
              · intro k hk
                rw [← hShift]
                exact hCounted (k + 1) (by simpa using hk)
              · intro i k data' hik hk hNone
                rw [← hShift] at hNone
                exact hStale (i + 1) (k + 1) data' (by omega)
                  (by simpa using hk) hNone
      | none =>
          rw [hLine] at hFirst
          rcases watchdogFrom_of_no_line hLine old rest with
            ⟨record, hOffline, hPass⟩
          rw [hPass] at hData
          cases j with
          | zero =>
              cases hData
              exact .of_offline hFirst.symm hOffline
          | succ j =>
              rw [List.getElem?_cons_succ] at hData
              have hIndex : j + 1 < (old :: rest).length := by
                rcases List.getElem?_eq_some_iff.mp hData
                  with ⟨hBound, _⟩
                simpa using hBound
              have hOwn :
                  stat.own ((start + (j + 1) : Nat) +
                    offsCpus) = none := by
                rw [← hCounted (j + 1) hIndex]
                exact ProcStat.counted_eq_none_of_le hNonneg
                  (by omega) hLine
              apply RightRecord.of_offline hOwn
              exact hStale 0 (j + 1) data (by omega)
                (by simpa using hData) hFirst.symm

theorem watchdogFrom_length
    (stat : Option (List Char))
    (offsCpus : Int)
    (start : Nat)
    (cpudata : List CpuData) :
    (watchdogFrom stat offsCpus start cpudata).1.length =
      cpudata.length := by
  induction cpudata generalizing start with
  | nil =>
      rfl
  | cons old rest ih =>
      rw [watchdogFrom]
      dsimp only
      split
      · rfl
      · simp [ih]

end Irqbalance

end Universal7420

------------------------------------------------------------
-- All Passes
------------------------------------------------------------

namespace Universal7420

namespace Irqbalance

theorem initCore_of_line
    {stat : ProcStat}
    {offsCpus : Int}
    {i : Nat}
    {line : CpuLine}
    (hCounted : stat.counted (i + offsCpus) = some line) :
    initCore (some stat.text) offsCpus i =
      some { CpuData.zero with
        core := UInt8.ofNat ((i + offsCpus) % 256).toNat
        online := true
        cputime := line.cputime } := by
  unfold initCore
  rw [readCpudata_of_line hCounted]
  rfl

theorem initCore_of_no_line
    {stat : ProcStat}
    {offsCpus : Int}
    {i : Nat}
    (hCounted : stat.counted (i + offsCpus) = none) :
    initCore (some stat.text) offsCpus i = none := by
  unfold initCore
  dsimp only
  rw [(readCpudata_of_no_line hCounted _).1]
  rfl

/- Only a nonnegative offset lets `main` start. -/
theorem initCpudata_offset
    {stat : ProcStat}
    {offsCpus : Int}
    {nrCpus : Nat}
    {cpudata₀ : List CpuData}
    (hSome : 0 < nrCpus)
    (hInit :
      initCpudata (some stat.text) offsCpus nrCpus =
        some cpudata₀) :
    0 ≤ offsCpus := by
  cases nrCpus with
  | zero =>
      omega
  | succ n =>
      rw [initCpudata, List.range_succ_eq_map,
        List.mapM_cons] at hInit
      rcases Option.bind_eq_some_iff.mp hInit with
        ⟨first, hFirst, _⟩
      by_contra hNegative
      have hNone :
          stat.counted ((0 : Nat) + offsCpus) = none := by
        unfold ProcStat.counted
        rw [if_neg (by omega)]
      rw [initCore_of_no_line hNone] at hFirst
      cases hFirst

/- Every record of `main` is the one of its core. -/
theorem initCpudata_forall₂
    {stat : Option (List Char)}
    {offsCpus : Int}
    {nrCpus : Nat}
    {cpudata₀ : List CpuData}
    (hInit :
      initCpudata stat offsCpus nrCpus = some cpudata₀) :
    List.Forall₂
      (fun i data => initCore stat offsCpus i = some data)
      (List.range nrCpus) cpudata₀ := by
  unfold initCpudata at hInit
  generalize List.range nrCpus = indices at hInit ⊢
  induction indices generalizing cpudata₀ with
  | nil =>
      cases hInit
      exact .nil
  | cons i indices ih =>
      rw [List.mapM_cons] at hInit
      rcases Option.bind_eq_some_iff.mp hInit with
        ⟨first, hFirst, hRest⟩
      rcases Option.bind_eq_some_iff.mp hRest with
        ⟨later, hLater, hCons⟩
      cases hCons
      exact .cons hFirst (ih hLater)

theorem initCpudata_length
    {stat : Option (List Char)}
    {offsCpus : Int}
    {nrCpus : Nat}
    {cpudata₀ : List CpuData}
    (hInit :
      initCpudata stat offsCpus nrCpus = some cpudata₀) :
    cpudata₀.length = nrCpus := by
  rw [← (initCpudata_forall₂ hInit).length_eq,
    List.length_range]

theorem initCore_of_getElem?
    {stat : Option (List Char)}
    {offsCpus : Int}
    {nrCpus : Nat}
    {cpudata₀ : List CpuData}
    (hInit :
      initCpudata stat offsCpus nrCpus = some cpudata₀)
    {i : Nat}
    {data : CpuData}
    (hData : cpudata₀[i]? = some data) :
    initCore stat offsCpus i = some data := by
  rcases List.getElem?_eq_some_iff.mp hData with
    ⟨hIndex, rfl⟩
  have hRange : i < (List.range nrCpus).length := by
    rw [List.length_range, ← initCpudata_length hInit]
    exact hIndex
  have hCore :=
    (initCpudata_forall₂ hInit).get hRange hIndex
  simpa using hCore

/- A pass without a gap leaves right records. -/
theorem NoGap.faithful
    {stat : ProcStat}
    {offsCpus : Int}
    {cpudata : List CpuData}
    (hNonneg : 0 < cpudata.length → 0 ≤ offsCpus)
    (hNoGap : NoGap offsCpus cpudata stat) :
    Faithful offsCpus stat
      (irqbalanceLoadWatchdog (some stat.text) offsCpus
        cpudata).1 := by
  intro i data hData
  have hIndex : i < cpudata.length := by
    rw [← watchdogFrom_length (some stat.text) offsCpus 0
      cpudata]
    exact (List.getElem?_eq_some_iff.mp hData).1
  have hOffset : 0 ≤ offsCpus :=
    hNonneg (by omega)
  have hRight :=
    @watchdogFrom_right stat offsCpus 0 cpudata (by omega)
      (by simpa using hNoGap.counted)
      (by simpa using hNoGap.stale) i data hData
  simpa using hRight

/-
  In every run of passes without a gap, the records are right
  after each pass.
-/
theorem watchdog_faithful
    {stat₀ : ProcStat}
    {offsCpus : Int}
    {nrCpus : Nat}
    {cpudata₀ : List CpuData}
    (hInit :
      initCpudata (some stat₀.text) offsCpus nrCpus =
        some cpudata₀)
    {stats : List ProcStat}
    (hGuard :
      (watchSystem offsCpus cpudata₀).Guarded
        (NoGap offsCpus) cpudata₀ stats)
    {before : List ProcStat}
    {stat : ProcStat}
    (hPrefix : before ++ [stat] <+: stats)
    {cpudata : List CpuData}
    (hRun :
      (watchSystem offsCpus cpudata₀).run
        (before ++ [stat]) = some cpudata) :
    cpudata.length = nrCpus ∧
      Faithful offsCpus stat cpudata := by
  let sys := watchSystem offsCpus cpudata₀
  rcases sys.runFrom_append_eq_some_iff.mp hRun with
    ⟨middle, hBefore, hLast⟩
  have hLength : middle.length = nrCpus := by
    have hKeep :
        ∀ s e s', s.length = nrCpus →
          sys.step s e = some s' → s'.length = nrCpus := by
      intro s e s' hOld hStep
      cases hStep
      exact (watchdogFrom_length _ _ _ _).trans hOld
    exact sys.invariant_of_step hKeep
      (initCpudata_length hInit) hBefore
  have hNoGap : NoGap offsCpus middle stat :=
    sys.guard_of_guarded hGuard hPrefix hBefore
  rcases sys.runFrom_cons_eq_some_iff.mp hLast with
    ⟨after, hStep, hEnd⟩
  cases hStep
  cases hEnd
  constructor
  · exact (watchdogFrom_length _ _ _ _).trans hLength
  · apply hNoGap.faithful
    intro hSome
    exact initCpudata_offset (by omega) hInit

end Irqbalance

end Universal7420

------------------------------------------------------------
-- Two Managed Cores
------------------------------------------------------------

namespace Universal7420

namespace Irqbalance

/- A line whose counters all show the same number. -/
def flatLine
    (number : Nat)
    (counter : UInt64) : CpuLine where
  number := number
  cputime := fun _ => counter

/- The first three CPUs are online. -/
def threeOnline : ProcStat where
  sums := fun _ => 6
  cpus := [flatLine 0 1, flatLine 1 2, flatLine 2 3]
  increasing := by decide
  others := []

/- The first three CPUs a while later. -/
def laterOnline : ProcStat where
  sums := fun _ => 12
  cpus := [flatLine 0 2, flatLine 1 4, flatLine 2 6]
  increasing := by decide
  others := []

/- CPU 1 has gone. -/
def oneGone : ProcStat where
  sums := fun _ => 16
  cpus := [flatLine 0 3, flatLine 2 9]
  increasing := by decide
  others := []

/- The records of `main` for the first two of three CPUs. -/
def twoRecords : List CpuData :=
  [{ CpuData.zero with
      core := 0, online := true, cputime := fun _ => 1 },
    { CpuData.zero with
      core := 1, online := true, cputime := fun _ => 2 }]

theorem initCpudata_threeOnline :
    initCpudata (some threeOnline.text) 0 2 =
      some twoRecords := by
  have hFirst :
      threeOnline.counted ((0 : Nat) + 0) =
        some (flatLine 0 1) :=
    rfl
  have hSecond :
      threeOnline.counted ((1 : Nat) + 0) =
        some (flatLine 1 2) :=
    rfl
  have hRange : List.range 2 = [0, 1] := by
    decide
  rw [initCpudata, hRange, List.mapM_cons,
    initCore_of_line hFirst, List.mapM_cons,
    initCore_of_line hSecond]
  rfl

/- A pass while no CPU has gone. -/
theorem watchdog_faithful_laterOnline :
    initCpudata (some threeOnline.text) 0 2 =
        some twoRecords ∧
      (watchSystem 0 twoRecords).Guarded (NoGap 0)
        twoRecords [laterOnline] ∧
      ∃ cpudata,
        (watchSystem 0 twoRecords).run [laterOnline] =
          some cpudata ∧
        cpudata.length = 2 ∧
        Faithful 0 laterOnline cpudata := by
  have hOwn :
      ∀ i : Nat, i < 2 →
        laterOnline.counted (i + 0) =
          laterOnline.own (i + 0) := by
    intro i hi
    interval_cases i
    · rfl
    · rfl
  have hOnline :
      ∀ i : Nat, i < 2 →
        laterOnline.own (i + 0) ≠ none := by
    intro i hi
    interval_cases i
    · simp [ProcStat.own, laterOnline, flatLine]
    · simp [ProcStat.own, laterOnline, flatLine]
  have hGuard :
      (watchSystem 0 twoRecords).Guarded (NoGap 0)
        twoRecords [laterOnline] := by
    refine ⟨⟨hOwn, ?_⟩, fun _ _ => trivial⟩
    intro i j data hij hj hNone
    have hBound : j < 2 :=
      (List.getElem?_eq_some_iff.mp hj).1
    exact absurd hNone (hOnline i (by omega))
  have hPrefix :
      [] ++ [laterOnline] <+: [laterOnline] :=
    List.prefix_refl _
  refine ⟨initCpudata_threeOnline, hGuard, _, rfl, ?_⟩
  exact watchdog_faithful initCpudata_threeOnline hGuard
    hPrefix rfl

/-
  When CPU 1 goes, its record stays online and takes the
  counters of CPU 2.
-/
theorem watchdog_wrong_cpu :
    initCpudata (some threeOnline.text) 0 2 =
        some twoRecords ∧
      ∃ cpudata data,
        (watchSystem 0 twoRecords).run [oneGone] =
          some cpudata ∧
        cpudata[1]? = some data ∧
        data.online = true ∧
        data.cputime = (flatLine 2 9).cputime ∧
        (oneGone.own (1 + 0)).isSome = false ∧
        ¬ Faithful 0 oneGone cpudata := by
  have hFirst :
      oneGone.counted ((0 : Nat) + 0) =
        some (flatLine 0 3) :=
    rfl
  have hSecond :
      oneGone.counted ((0 + 1 : Nat) + 0) =
        some (flatLine 2 9) :=
    rfl
  have hGone : (oneGone.own (1 + 0)).isSome = false := by
    simp [ProcStat.own, oneGone, flatLine]
  have hPass :
      ∃ first second,
        (irqbalanceLoadWatchdog (some oneGone.text) 0
          twoRecords).1 = [first, second] ∧
        second.online = true ∧
        second.cputime = (flatLine 2 9).cputime := by
    simp only [irqbalanceLoadWatchdog, twoRecords,
      watchdogFrom, readCpudata_of_line hFirst,
      readCpudata_of_line hSecond]
    exact ⟨_, _, rfl, rfl, rfl⟩
  rcases hPass with
    ⟨first, second, hRecords, hOnline, hCputime⟩
  refine ⟨initCpudata_threeOnline, [first, second], second,
    ?_, rfl, hOnline, hCputime, hGone, ?_⟩
  · rw [← hRecords]
    rfl
  · intro hFaithful
    have hRight := hFaithful 1 second rfl
    have hSome := hRight.online.mp hOnline
    change (oneGone.own (1 + 0)).isSome = true at hSome
    rw [hGone] at hSome
    cases hSome

end Irqbalance

end Universal7420
