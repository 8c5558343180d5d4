import Universal7420.Irqbalance.Watchdog
import Mathlib.Algebra.Order.BigOperators.Group.List
import Mathlib.Data.List.Chain

/-
  The arithmetic of `irqbalance_load_watchdog`.

  The utilization of a core is a quotient of two differences
  of unsigned sums.  Counters that only grow and stay small
  leave no room for a wrap; the divisor is the time between
  two readings, which the code does not check.

  Main declarations:
    * `Universal7420.Irqbalance.RightUtil`
    * `Universal7420.Irqbalance.Counting.rightUtil_iff`
    * `Universal7420.Irqbalance.Steady`
    * `Universal7420.Irqbalance.Ticks`
    * `Universal7420.Irqbalance.utilization_iff`
-/

------------------------------------------------------------
-- Two Readings Of A Core
------------------------------------------------------------

namespace Universal7420

namespace Irqbalance

/- The columns that count as busy. -/
def Cputime.busy : List Cputime :=
  [.user, .nice, .system, .iowait, .irq, .softirq, .steal,
    .guest, .guestNice]

/- The sum of some columns, without a word size. -/
def CpuData.time
    (data : CpuData)
    (columns : List Cputime) : Nat :=
  (columns.map
    (fun column => (data.cputime column).toNat)).sum

def CpuData.busyTime (data : CpuData) : Nat :=
  data.time Cputime.busy

def CpuData.wholeTime (data : CpuData) : Nat :=
  data.time Cputime.columns

/-
  The utilization of a record is the percentage of busy time
  since an older record, and no operation on the way wraps or
  divides by zero.
-/
structure RightUtil (old cur : CpuData) : Prop where
  divisor : cputimeTotalDelta old cur ≠ 0
  quotient :
    cur.cpuUtil.toNat =
      100 * (cur.busyTime - old.busyTime) /
        (cur.wholeTime - old.wholeTime)
  percentage : cur.cpuUtil.toNat ≤ 100
  additions :
    ∀ data ∈ [old, cur],
      data.wholeTime < 2 ^ 64 ∧
      data.totalCputime.toNat = data.busyTime ∧
      (data.totalCputime + data.cputime .idle).toNat =
        data.wholeTime
  subtractions :
    old.busyTime ≤ cur.busyTime ∧
    old.wholeTime ≤ cur.wholeTime ∧
    (cputimeDelta old cur).toNat =
      cur.busyTime - old.busyTime ∧
    (cputimeTotalDelta old cur).toNat =
      cur.wholeTime - old.wholeTime
  multiplication :
    (cputimeDelta old cur * 100).toNat =
      100 * (cur.busyTime - old.busyTime)

/- No counter has decreased, and all are small. -/
structure Counting (old cur : CpuData) : Prop where
  grown :
    ∀ column,
      (old.cputime column).toNat ≤
        (cur.cputime column).toNat
  small :
    ∀ column, (cur.cputime column).toNat < 2 ^ 50

end Irqbalance

end Universal7420

------------------------------------------------------------
-- Sums Of Counters
------------------------------------------------------------

namespace Universal7420

namespace Irqbalance

namespace CpuData

theorem wholeTime_eq
    (data : CpuData) :
    data.wholeTime =
      data.busyTime + (data.cputime .idle).toNat := by
  simp only [wholeTime, busyTime, time, Cputime.columns,
    Cputime.busy, List.map_cons, List.map_nil,
    List.sum_cons, List.sum_nil]
  omega

/- A sum that fits into a word is computed without a wrap. -/
theorem totalCputime_toNat
    {data : CpuData}
    (hFits : data.busyTime < 2 ^ 64) :
    data.totalCputime.toNat = data.busyTime := by
  simp only [busyTime, time, Cputime.busy, List.map_cons,
    List.map_nil, List.sum_cons, List.sum_nil] at hFits ⊢
  simp only [totalCputime, UInt64.toNat_add]
  omega

/- Ten small counters fit into a word. -/
theorem wholeTime_lt
    {data : CpuData}
    (hSmall :
      ∀ column, (data.cputime column).toNat < 2 ^ 50) :
    data.wholeTime < 2 ^ 54 := by
  have hSum :
      data.wholeTime ≤ 10 • 2 ^ 50 := by
    apply List.sum_le_card_nsmul
    intro n hMem
    rcases List.mem_map.mp hMem with ⟨column, _, rfl⟩
    exact (hSmall column).le
  have hBound : 10 • 2 ^ 50 < 2 ^ 54 := by
    norm_num
  exact Nat.lt_of_le_of_lt hSum hBound

/- The additions of a record with small counters. -/
theorem additions_of_small
    {data : CpuData}
    (hSmall :
      ∀ column, (data.cputime column).toNat < 2 ^ 50) :
    data.wholeTime < 2 ^ 64 ∧
      data.totalCputime.toNat = data.busyTime ∧
      (data.totalCputime + data.cputime .idle).toNat =
        data.wholeTime := by
  have hFits := wholeTime_lt hSmall
  have hWhole := data.wholeTime_eq
  have hBusy : data.busyTime < 2 ^ 64 := by
    omega
  refine ⟨by omega, totalCputime_toNat hBusy, ?_⟩
  rw [UInt64.toNat_add, totalCputime_toNat hBusy, ← hWhole]
  apply Nat.mod_eq_of_lt
  omega

end CpuData

namespace Counting

variable {old cur : CpuData}

theorem old_small
    (hCounting : Counting old cur)
    (column : Cputime) :
    (old.cputime column).toNat < 2 ^ 50 :=
  Nat.lt_of_le_of_lt (hCounting.grown column)
    (hCounting.small column)

theorem time_le
    (hCounting : Counting old cur)
    (columns : List Cputime) :
    old.time columns ≤ cur.time columns := by
  apply List.sum_le_sum
  intro column _
  exact hCounting.grown column

/- Time has passed if some counter has increased. -/
theorem wholeTime_lt_iff
    (hCounting : Counting old cur) :
    old.wholeTime < cur.wholeTime ↔
      ∃ column,
        (old.cputime column).toNat <
          (cur.cputime column).toNat := by
  unfold CpuData.wholeTime CpuData.time
  constructor
  · intro hLess
    rcases List.exists_lt_of_sum_lt _ _ hLess with
      ⟨column, _, hColumn⟩
    exact ⟨column, hColumn⟩
  · rintro ⟨column, hColumn⟩
    apply List.sum_lt_sum
    · intro other _
      exact hCounting.grown other
    · refine ⟨column, ?_, hColumn⟩
      cases column <;> simp [Cputime.columns]

theorem cputimeDelta_toNat
    (hCounting : Counting old cur) :
    (cputimeDelta old cur).toNat =
      cur.busyTime - old.busyTime := by
  have hOld := (CpuData.additions_of_small
    hCounting.old_small).2.1
  have hCur := (CpuData.additions_of_small
    hCounting.small).2.1
  have hLe : old.totalCputime ≤ cur.totalCputime := by
    rw [UInt64.le_iff_toNat_le, hOld, hCur]
    exact hCounting.time_le Cputime.busy
  rw [cputimeDelta, UInt64.toNat_sub_of_le _ _ hLe, hOld,
    hCur]

theorem cputimeTotalDelta_toNat
    (hCounting : Counting old cur) :
    (cputimeTotalDelta old cur).toNat =
      cur.wholeTime - old.wholeTime := by
  have hOld := (CpuData.additions_of_small
    hCounting.old_small).2.2
  have hCur := (CpuData.additions_of_small
    hCounting.small).2.2
  have hLe :
      old.totalCputime + old.cputime .idle ≤
        cur.totalCputime + cur.cputime .idle := by
    rw [UInt64.le_iff_toNat_le, hOld, hCur]
    exact hCounting.time_le Cputime.columns
  rw [cputimeTotalDelta, UInt64.toNat_sub_of_le _ _ hLe,
    hOld, hCur]

theorem product_toNat
    (hCounting : Counting old cur) :
    (cputimeDelta old cur * 100).toNat =
      100 * (cur.busyTime - old.busyTime) := by
  have hFits := CpuData.wholeTime_lt hCounting.small
  have hWhole := cur.wholeTime_eq
  rw [UInt64.toNat_mul, hCounting.cputimeDelta_toNat,
    Nat.mul_comm]
  apply Nat.mod_eq_of_lt
  change 100 * (cur.busyTime - old.busyTime) < 2 ^ 64
  omega

theorem cpuUtil_toNat
    (hCounting : Counting old cur) :
    (cpuUtil old cur).toNat =
      100 * (cur.busyTime - old.busyTime) /
        (cur.wholeTime - old.wholeTime) := by
  rw [cpuUtil, UInt64.toNat_div, hCounting.product_toNat,
    hCounting.cputimeTotalDelta_toNat]

/- The busy time is a part of the time between readings. -/
theorem cpuUtil_le
    (hCounting : Counting old cur) :
    (cpuUtil old cur).toNat ≤ 100 := by
  have hBusy := hCounting.time_le Cputime.busy
  have hIdle := hCounting.grown .idle
  have hPart :
      cur.busyTime - old.busyTime ≤
        cur.wholeTime - old.wholeTime := by
    rw [cur.wholeTime_eq, old.wholeTime_eq]
    unfold CpuData.busyTime
    omega
  rw [hCounting.cpuUtil_toNat]
  apply Nat.div_le_of_le_mul
  rw [Nat.mul_comm]
  exact Nat.mul_le_mul_right _ hPart

/-
  Everything is right as soon as some counter has increased.
-/
theorem rightUtil_iff
    (hCounting : Counting old cur)
    (hUtil : cur.cpuUtil = cpuUtil old cur) :
    RightUtil old cur ↔
      ∃ column,
        (old.cputime column).toNat <
          (cur.cputime column).toNat := by
  have hDelta := hCounting.cputimeTotalDelta_toNat
  have hDivisor :
      cputimeTotalDelta old cur ≠ 0 ↔
        old.wholeTime < cur.wholeTime := by
    rw [← UInt64.toNat_inj.ne, hDelta]
    simp only [UInt64.toNat_zero]
    omega
  rw [← hCounting.wholeTime_lt_iff, ← hDivisor]
  constructor
  · intro hRight
    exact hRight.divisor
  · intro hNonzero
    refine ⟨hNonzero, ?_, ?_, ?_, ?_, ?_⟩
    · rw [hUtil]
      exact hCounting.cpuUtil_toNat
    · rw [hUtil]
      exact hCounting.cpuUtil_le
    · intro data hMem
      simp only [List.mem_cons, List.not_mem_nil,
        or_false] at hMem
      rcases hMem with rfl | rfl
      · exact CpuData.additions_of_small hCounting.old_small
      · exact CpuData.additions_of_small hCounting.small
    · exact ⟨hCounting.time_le _, hCounting.time_le _,
        hCounting.cputimeDelta_toNat, hDelta⟩
    · exact hCounting.product_toNat

end Counting

end Irqbalance

end Universal7420

------------------------------------------------------------
-- Passes
------------------------------------------------------------

namespace Universal7420

namespace Irqbalance

/-
  Both files have a line for every managed core, whose small
  counters do not decrease from the first to the second.
-/
def Steady
    (offsCpus : Int)
    (nrCpus : Nat)
    (stat stat' : ProcStat) : Prop :=
  ∀ i < nrCpus, ∃ line line',
    stat.counted (i + offsCpus) = some line ∧
    stat'.counted (i + offsCpus) = some line' ∧
    ∀ column,
      (line.cputime column).toNat ≤
          (line'.cputime column).toNat ∧
        (line'.cputime column).toNat < 2 ^ 50

/- Some counter of every managed core has increased. -/
def Ticks
    (offsCpus : Int)
    (nrCpus : Nat)
    (stat stat' : ProcStat) : Prop :=
  ∀ i < nrCpus, ∀ line line',
    stat.counted (i + offsCpus) = some line →
    stat'.counted (i + offsCpus) = some line' →
    ∃ column,
      (line.cputime column).toNat <
        (line'.cputime column).toNat

/- A pass computes every utilization right. -/
def RightPass
    (offsCpus : Int)
    (cpudata : List CpuData)
    (stat : ProcStat) : Prop :=
  ∀ (i : Nat) (old cur : CpuData),
    cpudata[i]? = some old →
    (irqbalanceLoadWatchdog (some stat.text) offsCpus
      cpudata).1[i]? = some cur →
    RightUtil old cur

/- The records hold the counters of a file. -/
structure Holds
    (offsCpus : Int)
    (nrCpus : Nat)
    (stat : ProcStat)
    (cpudata : List CpuData) : Prop where
  length : cpudata.length = nrCpus
  cputime :
    ∀ (i : Nat) (data : CpuData), cpudata[i]? = some data →
      ∃ line,
        stat.counted (i + offsCpus) = some line ∧
        data.cputime = line.cputime

/- A pass that finds all lines updates every record. -/
theorem watchdogFrom_of_lines
    {stat : ProcStat}
    {offsCpus : Int}
    {start : Nat}
    {cpudata : List CpuData}
    (hLines :
      ∀ j < cpudata.length, ∃ line,
        stat.counted ((start + j : Nat) + offsCpus) =
          some line) :
    ∀ j cur,
      (watchdogFrom (some stat.text) offsCpus start
        cpudata).1[j]? = some cur →
      ∃ old line,
        cpudata[j]? = some old ∧
        stat.counted ((start + j : Nat) + offsCpus) =
          some line ∧
        cur.cputime = line.cputime ∧
        cur.cpuUtil = cpuUtil old cur := by
  induction cpudata generalizing start with
  | nil =>
      intro j cur hCur
      simp [watchdogFrom] at hCur
  | cons old rest ih =>
      intro j cur hCur
      rcases hLines 0 (by simp) with ⟨line, hLine⟩
      rw [Nat.add_zero] at hLine
      simp only [watchdogFrom, readCpudata_of_line hLine,
        ne_eq, not_true_eq_false, if_false] at hCur
      cases j with
      | zero =>
          cases hCur
          exact ⟨old, line, rfl, hLine, rfl, rfl⟩
      | succ j =>
          have hShift :
              ∀ k, start + 1 + k = start + (k + 1) := by
            omega
          rw [List.getElem?_cons_succ] at hCur
          have hRest :
              ∀ k < rest.length, ∃ line,
                stat.counted
                  ((start + 1 + k : Nat) + offsCpus) =
                    some line := by
            intro k hk
            rw [hShift]
            exact hLines (k + 1) (by simpa using hk)
          rcases ih hRest j cur hCur with
            ⟨old', line', hOld', hLine', hCputime, hUtil⟩
          rw [hShift] at hLine'
          exact ⟨old', line', by simpa using hOld', hLine',
            hCputime, hUtil⟩

theorem irqbalanceLoadWatchdog_of_lines
    {stat : ProcStat}
    {offsCpus : Int}
    {cpudata : List CpuData}
    (hLines :
      ∀ j < cpudata.length, ∃ line,
        stat.counted (j + offsCpus) = some line)
    {i : Nat}
    {cur : CpuData}
    (hCur :
      (irqbalanceLoadWatchdog (some stat.text) offsCpus
        cpudata).1[i]? = some cur) :
    ∃ old line,
      cpudata[i]? = some old ∧
      stat.counted (i + offsCpus) = some line ∧
      cur.cputime = line.cputime ∧
      cur.cpuUtil = cpuUtil old cur := by
  have hAll :=
    @watchdogFrom_of_lines stat offsCpus 0 cpudata
      (by simpa using hLines) i cur hCur
  simpa using hAll

/- A steady file has a line for every record. -/
theorem Holds.lines
    {offsCpus : Int}
    {nrCpus : Nat}
    {stat stat' : ProcStat}
    {cpudata : List CpuData}
    (hHolds : Holds offsCpus nrCpus stat cpudata)
    (hSteady : Steady offsCpus nrCpus stat stat') :
    ∀ j < cpudata.length, ∃ line,
      stat'.counted (j + offsCpus) = some line := by
  intro j hj
  rw [hHolds.length] at hj
  rcases hSteady j hj with ⟨_, line', _, hLine', _⟩
  exact ⟨line', hLine'⟩

/- After a pass the records hold the counters it has read. -/
theorem Holds.pass
    {offsCpus : Int}
    {nrCpus : Nat}
    {stat stat' : ProcStat}
    {cpudata : List CpuData}
    (hHolds : Holds offsCpus nrCpus stat cpudata)
    (hSteady : Steady offsCpus nrCpus stat stat') :
    Holds offsCpus nrCpus stat'
      (irqbalanceLoadWatchdog (some stat'.text) offsCpus
        cpudata).1 := by
  constructor
  · exact (watchdogFrom_length _ _ _ _).trans hHolds.length
  · intro i cur hCur
    rcases irqbalanceLoadWatchdog_of_lines
        (hHolds.lines hSteady) hCur with
      ⟨_, line, _, hLine, hCputime, _⟩
    exact ⟨line, hLine, hCputime⟩

/- One managed core, from its two lines. -/
theorem Holds.rightUtil_iff
    {offsCpus : Int}
    {nrCpus : Nat}
    {stat stat' : ProcStat}
    {cpudata : List CpuData}
    (hHolds : Holds offsCpus nrCpus stat cpudata)
    (hSteady : Steady offsCpus nrCpus stat stat')
    {i : Nat}
    {old cur : CpuData}
    {line line' : CpuLine}
    (hOld : cpudata[i]? = some old)
    (hCur :
      (irqbalanceLoadWatchdog (some stat'.text) offsCpus
        cpudata).1[i]? = some cur)
    (hLine : stat.counted (i + offsCpus) = some line)
    (hLine' : stat'.counted (i + offsCpus) = some line') :
    RightUtil old cur ↔
      ∃ column,
        (line.cputime column).toNat <
          (line'.cputime column).toNat := by
  have hIndex : i < nrCpus := by
    rw [← hHolds.length]
    exact (List.getElem?_eq_some_iff.mp hOld).1
  rcases irqbalanceLoadWatchdog_of_lines
      (hHolds.lines hSteady) hCur with
    ⟨old₁, line₁, hOld₁, hLine₁, hCputime, hUtil⟩
  rcases hHolds.cputime i old hOld with
    ⟨line₀, hLine₀, hCputime₀⟩
  rcases hSteady i hIndex with
    ⟨line₂, line₃, hLine₂, hLine₃, hColumns⟩
  cases hOld.symm.trans hOld₁
  cases hLine.symm.trans hLine₀
  cases hLine.symm.trans hLine₂
  cases hLine'.symm.trans hLine₁
  cases hLine'.symm.trans hLine₃
  have hCounting : Counting old cur := by
    constructor
    · intro column
      rw [hCputime₀, hCputime]
      exact (hColumns column).1
    · intro column
      rw [hCputime]
      exact (hColumns column).2
  rw [hCounting.rightUtil_iff hUtil, hCputime₀, hCputime]

/- A pass over steady files is right if all cores tick. -/
theorem Holds.rightPass_iff
    {offsCpus : Int}
    {nrCpus : Nat}
    {stat stat' : ProcStat}
    {cpudata : List CpuData}
    (hHolds : Holds offsCpus nrCpus stat cpudata)
    (hSteady : Steady offsCpus nrCpus stat stat') :
    RightPass offsCpus cpudata stat' ↔
      Ticks offsCpus nrCpus stat stat' := by
  constructor
  · intro hRight i hi line line' hLine hLine'
    have hOldIndex : i < cpudata.length := by
      rw [hHolds.length]
      exact hi
    have hCurIndex :
        i < (irqbalanceLoadWatchdog (some stat'.text)
          offsCpus cpudata).1.length := by
      rw [irqbalanceLoadWatchdog, watchdogFrom_length]
      exact hOldIndex
    have hOld := List.getElem?_eq_getElem hOldIndex
    have hCur := List.getElem?_eq_getElem hCurIndex
    exact (hHolds.rightUtil_iff hSteady hOld hCur hLine
      hLine').mp (hRight i _ _ hOld hCur)
  · intro hTicks i old cur hOld hCur
    have hIndex : i < nrCpus := by
      rw [← hHolds.length]
      exact (List.getElem?_eq_some_iff.mp hOld).1
    rcases hSteady i hIndex with
      ⟨line, line', hLine, hLine', _⟩
    exact (hHolds.rightUtil_iff hSteady hOld hCur hLine
      hLine').mpr
        (hTicks i hIndex line line' hLine hLine')

theorem holds_of_initCpudata
    {stat : ProcStat}
    {offsCpus : Int}
    {nrCpus : Nat}
    {cpudata₀ : List CpuData}
    (hInit :
      initCpudata (some stat.text) offsCpus nrCpus =
        some cpudata₀) :
    Holds offsCpus nrCpus stat cpudata₀ := by
  refine ⟨initCpudata_length hInit, ?_⟩
  intro i data hData
  have hCore := initCore_of_getElem? hInit hData
  cases hLine : stat.counted (i + offsCpus) with
  | none =>
      rw [initCore_of_no_line hLine] at hCore
      cases hCore
  | some line =>
      rw [initCore_of_line hLine] at hCore
      cases hCore
      exact ⟨line, rfl, rfl⟩

/- The passes over steady files from a file on. -/
theorem Holds.rightPasses_iff
    {offsCpus : Int}
    {nrCpus : Nat}
    {stat₀ : ProcStat}
    {cpudata cpudata₀ : List CpuData}
    {stats : List ProcStat}
    (hHolds : Holds offsCpus nrCpus stat₀ cpudata)
    (hSteady :
      (stat₀ :: stats).IsChain (Steady offsCpus nrCpus)) :
    (watchSystem offsCpus cpudata₀).Guarded
        (RightPass offsCpus) cpudata stats ↔
      (stat₀ :: stats).IsChain (Ticks offsCpus nrCpus) := by
  induction stats generalizing stat₀ cpudata with
  | nil =>
      simp [EventSystem.Guarded]
  | cons stat stats ih =>
      rcases List.isChain_cons_cons.mp hSteady with
        ⟨hFirst, hLater⟩
      have hNext := ih (hHolds.pass hFirst) hLater
      rw [List.isChain_cons_cons, ← hNext,
        ← hHolds.rightPass_iff hFirst]
      simp only [EventSystem.Guarded, watchSystem,
        Option.some.injEq, forall_eq']

/-
  From the readings of `main` on, every pass over steady files
  computes every utilization right if and only if every core
  ticks between any two readings.
-/
theorem utilization_iff
    {offsCpus : Int}
    {nrCpus : Nat}
    {stat₀ : ProcStat}
    {cpudata₀ : List CpuData}
    {stats : List ProcStat}
    (hInit :
      initCpudata (some stat₀.text) offsCpus nrCpus =
        some cpudata₀)
    (hSteady :
      (stat₀ :: stats).IsChain (Steady offsCpus nrCpus)) :
    (watchSystem offsCpus cpudata₀).Guarded
        (RightPass offsCpus) cpudata₀ stats ↔
      (stat₀ :: stats).IsChain (Ticks offsCpus nrCpus) :=
  (holds_of_initCpudata hInit).rightPasses_iff hSteady

theorem utilization_laterOnline :
    initCpudata (some threeOnline.text) 0 2 =
        some twoRecords ∧
      [threeOnline, laterOnline].IsChain (Steady 0 2) ∧
      (watchSystem 0 twoRecords).Guarded (RightPass 0)
        twoRecords [laterOnline] := by
  have hSteady : Steady 0 2 threeOnline laterOnline := by
    intro i hi
    interval_cases i
    · refine ⟨_, _, rfl, rfl, ?_⟩
      intro column
      cases column <;> decide
    · refine ⟨_, _, rfl, rfl, ?_⟩
      intro column
      cases column <;> decide
  have hTicks : Ticks 0 2 threeOnline laterOnline := by
    intro i hi line line' hLine hLine'
    refine ⟨.user, ?_⟩
    interval_cases i
    · cases hLine
      cases hLine'
      decide
    · cases hLine
      cases hLine'
      decide
  have hSteadyChain := List.isChain_pair.mpr hSteady
  exact ⟨initCpudata_threeOnline, hSteadyChain,
    (utilization_iff initCpudata_threeOnline
      hSteadyChain).mpr (List.isChain_pair.mpr hTicks)⟩

/-
  The first pass reads the file in the same tick as `main`:
  the watchdog divides by zero.
-/
theorem utilization_same_tick :
    initCpudata (some threeOnline.text) 0 2 =
        some twoRecords ∧
      [threeOnline, threeOnline].IsChain (Steady 0 2) ∧
      (∃ old cur,
        twoRecords[0]? = some old ∧
        (irqbalanceLoadWatchdog (some threeOnline.text) 0
          twoRecords).1[0]? = some cur ∧
        cputimeTotalDelta old cur = 0) ∧
      ¬ (watchSystem 0 twoRecords).Guarded (RightPass 0)
        twoRecords [threeOnline] := by
  have hSteady : Steady 0 2 threeOnline threeOnline := by
    intro i hi
    interval_cases i
    · refine ⟨_, _, rfl, rfl, ?_⟩
      intro column
      cases column <;> decide
    · refine ⟨_, _, rfl, rfl, ?_⟩
      intro column
      cases column <;> decide
  have hFirst :
      threeOnline.counted ((0 : Nat) + 0) =
        some (flatLine 0 1) :=
    rfl
  have hRecord :
      ∃ cur,
        (irqbalanceLoadWatchdog (some threeOnline.text) 0
          twoRecords).1[0]? = some cur ∧
        cur.cputime = fun _ => 1 := by
    simp only [irqbalanceLoadWatchdog, twoRecords,
      watchdogFrom, readCpudata_of_line hFirst]
    exact ⟨_, rfl, rfl⟩
  rcases hRecord with ⟨cur, hCur, hCputime⟩
  have hDivisor :
      ∀ old, twoRecords[0]? = some old →
        cputimeTotalDelta old cur = 0 := by
    intro old hOld
    cases hOld
    simp only [cputimeTotalDelta, CpuData.totalCputime,
      hCputime]
    decide
  refine ⟨initCpudata_threeOnline,
    List.isChain_pair.mpr hSteady,
    ⟨_, cur, rfl, hCur, hDivisor _ rfl⟩, ?_⟩
  rintro ⟨hRight, _⟩
  exact (hRight 0 _ cur rfl hCur).divisor (hDivisor _ rfl)

end Irqbalance

end Universal7420
