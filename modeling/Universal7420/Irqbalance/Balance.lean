import Universal7420.Irqbalance.CpuData
import Universal7420.Lib.BubbleSort
import Mathlib.Algebra.Order.Floor.Ring
import Mathlib.Data.Rat.Floor
import Mathlib.Tactic.Linarith
import Mathlib.Tactic.Positivity

/-
  The distribution of interrupts in `irqbalance_main`.

  The cores are sorted by utilization and served from the
  busiest down.  Each online core takes a rounded-up share of
  what is left, and the last one takes the rest.  The ratios
  are computed in an ordered field, with any square root.

  Main declarations:
    * `Universal7420.Irqbalance.irqbalanceMain`
    * `Universal7420.Irqbalance.coreBit`
    * `Universal7420.Irqbalance.share_bounds`
    * `Universal7420.Irqbalance.distribute_covers`
    * `Universal7420.Irqbalance.irqbalanceMain_covers`
-/

------------------------------------------------------------
-- Affinity Writes
------------------------------------------------------------

namespace Universal7420

namespace Irqbalance

/- A write to the affinity file of a position of `irqs`. -/
structure AffinityWrite where
  position : Nat
  path : String
  text : String
deriving DecidableEq, Repr

/- `sprintf(irqpath, "/proc/irq/%d/smp_affinity", irq)` -/
def irqpath (irq : Int) : String :=
  "/proc/irq/" ++ toString irq ++ "/smp_affinity"

/- `fprintf(irqfp, "%02x\n", mask)` -/
def maskText (mask : Nat) : String :=
  String.ofList
    ((Nat.toDigits 16 mask).leftpad 2 '0') ++ "\n"

/- `1 << core` on 32 bits, where the shift is taken mod 32. -/
def coreBit (core : UInt8) : UInt32 :=
  1 <<< core.toUInt32

/- Read `irqs[irqidx]`; absent outside the array. -/
def irqAt
    (irqs : List Int)
    (irqidx : Int) : Option Int :=
  if 0 ≤ irqidx then irqs[irqidx.toNat]? else none

/- The body of the inner loop. -/
def affinityWrite
    (irqs : List Int)
    (core : UInt8)
    (irqsProcessed : Int)
    (j : Nat) : Option AffinityWrite := do
  let irq ← irqAt irqs (irqsProcessed + j)
  return {
    position := (irqsProcessed + j).toNat
    path := irqpath irq
    text := maskText (coreBit core).toNat }

/- The inner loop; its guard does not mention `j`. -/
def assignIrqs
    (irqs : List Int)
    (core : UInt8)
    (irqsProcessed irqnum : Int) :
    Option (List AffinityWrite) :=
  if irqsProcessed < irqs.length then
    (List.range irqnum.toNat).mapM
      (affinityWrite irqs core irqsProcessed)
  else
    some []

end Irqbalance

end Universal7420

------------------------------------------------------------
-- Distribution
------------------------------------------------------------

namespace Universal7420

namespace Irqbalance

variable {K : Type}
variable [Field K] [LinearOrder K] [FloorRing K]
variable (sqrt : K → K)

/- `util / 100.0` for `(int)cpu_util` -/
def ratio (data : CpuData) : K :=
  (((data.cpuUtil.toNat : Int).bmod (2 ^ 32) : Int) : K) /
    100

/- The number of interrupts for a core. -/
def share
    (data : CpuData)
    (irqsLeft onlineIndex : Int) : Int :=
  if onlineIndex = 0 then
    irqsLeft
  else
    ⌈((irqsLeft : K) -
        sqrt (ratio data) * (irqsLeft : K)) /
      (onlineIndex : K)⌉

/- The part of what is left that a core is given. -/
def freePart (util : Nat) : K :=
  1 - sqrt ((util : K) / 100)

/- The loop over the cores, from the last one down. -/
def distribute
    (irqs : List Int) :
    List CpuData → Int → Int →
      Option (List AffinityWrite)
| [], _, _ => some []
| data :: rest, irqsProcessed, onlineCpus =>
    if irqsProcessed < irqs.length then
      if data.online then do
        let irqnum := share sqrt data
          (irqs.length - irqsProcessed) (onlineCpus - 1)
        let writes ←
          assignIrqs irqs data.core irqsProcessed irqnum
        if onlineCpus ≤ 0 then
          return writes
        else
          let later ← distribute irqs rest
            (irqsProcessed + irqnum) (onlineCpus - 1)
          return writes ++ later
      else
        distribute irqs rest irqsProcessed onlineCpus
    else
      some []

/- `irqbalance_main` -/
def irqbalanceMain
    (cpudata : List CpuData)
    (irqs : List Int) : Option (List AffinityWrite) := do
  let cCpudata ←
    BubbleSort.sort CpuData.cpuUtil cpudata.length cpudata
  let onlineCpus := cCpudata.countP CpuData.online
  distribute sqrt irqs cCpudata.reverse 0 onlineCpus

end Irqbalance

end Universal7420

------------------------------------------------------------
-- Coverage
------------------------------------------------------------

namespace Universal7420

namespace Irqbalance

/- The mask of a core, and what 32 bits hold of it. -/
def wholeMask (core : UInt8) : Nat :=
  1 <<< core.toNat

def wrappedMask (core : UInt8) : Nat :=
  1 <<< (core.toNat % 32)

theorem coreBit_toNat
    (core : UInt8) :
    (coreBit core).toNat = wrappedMask core := by
  have hSmall : core.toNat % 32 < 32 :=
    Nat.mod_lt _ (by decide)
  have hPow : 2 ^ (core.toNat % 32) < 2 ^ 32 :=
    Nat.pow_lt_pow_right (by decide) hSmall
  unfold coreBit wrappedMask
  rw [UInt32.toNat_shiftLeft, UInt8.toNat_toUInt32,
    UInt32.toNat_one, Nat.one_shiftLeft]
  exact Nat.mod_eq_of_lt hPow

/- The first 32 cores have their own masks. -/
theorem wrappedMask_of_lt
    {core : UInt8}
    (hCore : core < 32) :
    wrappedMask core = wholeMask core := by
  have hNat : core.toNat < 32 :=
    UInt8.lt_iff_toNat_lt.mp hCore
  unfold wrappedMask wholeMask
  rw [Nat.mod_eq_of_lt hNat]

/-
  A write goes to the affinity file of its position and names
  an online core by a mask.
-/
def AffinityWrite.Sound
    (mask : UInt8 → Nat)
    (irqs : List Int)
    (cores : List CpuData)
    (w : AffinityWrite) : Prop :=
  (∃ irq, irqs[w.position]? = some irq ∧
      w.path = irqpath irq) ∧
    ∃ data ∈ cores, data.online = true ∧
      w.text = maskText (mask data.core)

theorem AffinityWrite.Sound.mono
    {mask : UInt8 → Nat}
    {irqs : List Int}
    {cores cores' : List CpuData}
    {w : AffinityWrite}
    (hSound : w.Sound mask irqs cores)
    (hCores : cores ⊆ cores') :
    w.Sound mask irqs cores' := by
  rcases hSound with ⟨hPath, data, hData, hOnline, hText⟩
  exact ⟨hPath, data, hCores hData, hOnline, hText⟩

theorem AffinityWrite.Sound.whole
    {irqs : List Int}
    {cores : List CpuData}
    {w : AffinityWrite}
    (hSound : w.Sound wrappedMask irqs cores)
    (hFew :
      ∀ data ∈ cores, data.online = true →
        data.core < 32) :
    w.Sound wholeMask irqs cores := by
  rcases hSound with ⟨hPath, data, hData, hOnline, hText⟩
  rw [wrappedMask_of_lt (hFew data hData hOnline)] at hText
  exact ⟨hPath, data, hData, hOnline, hText⟩

/- The positions from `start` on are written once, in order. -/
structure Covers
    (irqs : List Int)
    (cores : List CpuData)
    (start count : Nat)
    (writes : List AffinityWrite) : Prop where
  positions :
    writes.map AffinityWrite.position =
      List.range' start count
  sound : ∀ w ∈ writes, w.Sound wrappedMask irqs cores

theorem Covers.nil
    (irqs : List Int)
    (cores : List CpuData)
    (start : Nat) :
    Covers irqs cores start 0 [] :=
  ⟨rfl, by simp⟩

theorem Covers.mono
    {irqs : List Int}
    {cores cores' : List CpuData}
    {start count : Nat}
    {writes : List AffinityWrite}
    (hCovers : Covers irqs cores start count writes)
    (hCores : cores ⊆ cores') :
    Covers irqs cores' start count writes := by
  refine ⟨hCovers.positions, ?_⟩
  intro w hw
  exact (hCovers.sound w hw).mono hCores

theorem Covers.append
    {irqs : List Int}
    {cores : List CpuData}
    {start count more : Nat}
    {writes later : List AffinityWrite}
    (hWrites : Covers irqs cores start count writes)
    (hLater :
      Covers irqs cores (start + count) more later) :
    Covers irqs cores start (count + more)
      (writes ++ later) := by
  constructor
  · rw [List.map_append, hWrites.positions,
      hLater.positions, List.range'_append_1]
  · intro w hw
    rcases List.mem_append.mp hw with hFirst | hSecond
    · exact hWrites.sound w hFirst
    · exact hLater.sound w hSecond

/- An index inside the array can be written. -/
theorem affinityWrite_sound
    {irqs : List Int}
    {data : CpuData}
    (hOnline : data.online = true)
    {start j : Nat}
    (hIndex : start + j < irqs.length) :
    ∃ w, affinityWrite irqs data.core start j = some w ∧
      w.position = start + j ∧
      w.Sound wrappedMask irqs [data] := by
  have hPosition :
      ((start : Int) + (j : Int)).toNat = start + j := by
    omega
  have hIrq :
      irqAt irqs ((start : Int) + (j : Int)) =
        some irqs[start + j] := by
    unfold irqAt
    rw [if_pos (by omega), hPosition,
      List.getElem?_eq_getElem hIndex]
  refine ⟨_, by rw [affinityWrite, hIrq]; rfl,
    hPosition, ?_, data, by simp, hOnline,
    by rw [coreBit_toNat]⟩
  refine ⟨irqs[start + j], ?_, rfl⟩
  simp only [hPosition]
  exact List.getElem?_eq_getElem hIndex

/- The inner loop covers the indices it runs through. -/
theorem mapM_affinityWrite_covers
    {irqs : List Int}
    {data : CpuData}
    (hOnline : data.online = true)
    {start : Nat}
    {count : Nat}
    (hCount : start + count ≤ irqs.length) :
    ∃ writes,
      (List.range count).mapM
          (affinityWrite irqs data.core start) =
        some writes ∧
      Covers irqs [data] start count writes := by
  induction count with
  | zero =>
      exact ⟨[], rfl, Covers.nil irqs [data] start⟩
  | succ count ih =>
      rcases ih (by omega) with ⟨writes, hLoop, hCovers⟩
      rcases affinityWrite_sound hOnline
          (show start + count < irqs.length by omega) with
        ⟨w, hLast, hPosition, hSound⟩
      refine ⟨writes ++ [w], ?_, hCovers.append ?_⟩
      · rw [List.range_succ, List.mapM_append, hLoop]
        simp [hLast]
      · constructor
        · simp [hPosition]
        · intro w' hw'
          rw [List.mem_singleton.mp hw']
          exact hSound

theorem assignIrqs_covers
    {irqs : List Int}
    {data : CpuData}
    (hOnline : data.online = true)
    {start count : Nat}
    (hStart : start < irqs.length)
    (hCount : start + count ≤ irqs.length) :
    ∃ writes,
      assignIrqs irqs data.core start count =
        some writes ∧
      Covers irqs [data] start count writes := by
  unfold assignIrqs
  rw [if_pos (by exact_mod_cast hStart), Int.toNat_natCast]
  exact mapM_affinityWrite_covers hOnline hCount

end Irqbalance

end Universal7420

------------------------------------------------------------
-- Shares
------------------------------------------------------------

namespace Universal7420

namespace Irqbalance

variable {K : Type}
variable [Field K] [LinearOrder K] [IsStrictOrderedRing K]
variable [FloorRing K]

/- A square root that stays in the unit interval. -/
def UnitRoot (sqrt : K → K) : Prop :=
  ∀ x, 0 ≤ x → x ≤ 1 → 0 ≤ sqrt x ∧ sqrt x ≤ 1

omit [LinearOrder K] [IsStrictOrderedRing K] [FloorRing K] in
/- A percentage is not cut by the conversion to `int`. -/
theorem ratio_eq
    {data : CpuData}
    (hUtil : data.cpuUtil ≤ 100) :
    (ratio data : K) = (data.cpuUtil.toNat : K) / 100 := by
  have hNat : data.cpuUtil.toNat ≤ 100 := by
    simpa using UInt64.le_iff_toNat_le.mp hUtil
  have hInt :
      (data.cpuUtil.toNat : Int).bmod (2 ^ 32) =
        data.cpuUtil.toNat := by
    apply Int.bmod_eq_of_le
    · omega
    · omega
  unfold ratio
  rw [hInt, Int.cast_natCast]

omit [FloorRing K] in
/- A percentage gives a ratio in the unit interval. -/
theorem ratio_mem_unit
    {data : CpuData}
    (hUtil : data.cpuUtil ≤ 100) :
    0 ≤ (ratio data : K) ∧ (ratio data : K) ≤ 1 := by
  have hNat : data.cpuUtil.toNat ≤ 100 := by
    simpa using UInt64.le_iff_toNat_le.mp hUtil
  have hUpper : (data.cpuUtil.toNat : K) ≤ 100 := by
    exact_mod_cast hNat
  rw [ratio_eq hUtil]
  constructor
  · positivity
  · rw [div_le_one (by norm_num)]
    exact hUpper

/- A core never takes more than what is left. -/
theorem share_bounds
    {sqrt : K → K}
    (hSqrt : UnitRoot sqrt)
    {data : CpuData}
    (hUtil : data.cpuUtil ≤ 100)
    {left index : Int}
    (hLeft : 0 ≤ left)
    (hIndex : 0 ≤ index) :
    0 ≤ share sqrt data left index ∧
      share sqrt data left index ≤ left := by
  unfold share
  split
  · exact ⟨hLeft, le_refl left⟩
  · rename_i hNonzero
    rcases ratio_mem_unit (K := K) hUtil with
      ⟨hLower, hUpper⟩
    rcases hSqrt (ratio data) hLower hUpper with
      ⟨hRootLower, hRootUpper⟩
    have hLeftK : (0 : K) ≤ (left : K) := by
      exact_mod_cast hLeft
    have hIndexK : (1 : K) ≤ (index : K) := by
      have hOne : 1 ≤ index := by
        omega
      exact_mod_cast hOne
    have hPart :
        0 ≤ (left : K) - sqrt (ratio data) * (left : K) := by
      nlinarith
    have hWhole :
        (left : K) - sqrt (ratio data) * (left : K) ≤
          (left : K) := by
      have hProduct := mul_nonneg hRootLower hLeftK
      linarith
    constructor
    · apply Int.ceil_nonneg
      positivity
    · rw [Int.ceil_le]
      exact (div_le_self hPart hIndexK).trans hWhole

/- The last core takes all that is left. -/
theorem exists_share
    {sqrt : K → K}
    (hSqrt : UnitRoot sqrt)
    {data : CpuData}
    (hUtil : data.cpuUtil ≤ 100)
    {start total : Nat}
    (hStart : start ≤ total)
    (others : Nat) :
    ∃ irqnum : Nat,
      share sqrt data ((total : Int) - (start : Int))
          (others : Int) = (irqnum : Int) ∧
      start + irqnum ≤ total ∧
      (start + irqnum < total → 0 < others) := by
  have hLeft : 0 ≤ (total : Int) - (start : Int) := by
    omega
  rcases share_bounds hSqrt hUtil hLeft
      (Int.natCast_nonneg others) with
    ⟨hLower, hUpper⟩
  rcases Int.eq_ofNat_of_zero_le hLower with
    ⟨irqnum, hIrqnum⟩
  refine ⟨irqnum, hIrqnum, by omega, ?_⟩
  intro hStill
  by_contra hNone
  have hLast : others = 0 := by
    omega
  simp only [hLast, share, Nat.cast_zero, if_true] at hIrqnum
  omega

/- The loop passes over an offline core. -/
omit [IsStrictOrderedRing K] in
theorem distribute_offline
    {sqrt : K → K}
    {irqs : List Int}
    {data : CpuData}
    (hOffline : data.online = false)
    (rest : List CpuData)
    {processed : Int}
    (hMore : processed < irqs.length)
    (onlineCpus : Int) :
    distribute sqrt irqs (data :: rest) processed
        onlineCpus =
      distribute sqrt irqs rest processed onlineCpus := by
  simp only [distribute, if_pos hMore, hOffline,
    Bool.false_eq_true, if_false]

/- An online core gets its share, and the loop goes on. -/
omit [IsStrictOrderedRing K] in
theorem distribute_online
    {sqrt : K → K}
    {irqs : List Int}
    {data : CpuData}
    (hOnline : data.online = true)
    {rest : List CpuData}
    {processed onlineIndex irqnum : Int}
    (hMore : processed < irqs.length)
    (hIndex : 0 ≤ onlineIndex)
    (hShare :
      share sqrt data (irqs.length - processed)
        onlineIndex = irqnum)
    {writes later : List AffinityWrite}
    (hAssign :
      assignIrqs irqs data.core processed irqnum =
        some writes)
    (hLoop :
      distribute sqrt irqs rest (processed + irqnum)
        onlineIndex = some later) :
    distribute sqrt irqs (data :: rest) processed
        (onlineIndex + 1) =
      some (writes ++ later) := by
  have hPositive : ¬ onlineIndex + 1 ≤ 0 := by
    omega
  simp only [distribute, if_pos hMore, hOnline, if_true,
    add_sub_cancel_right, hShare, hAssign,
    if_neg hPositive, hLoop]
  rfl

/-
  The rule of the loop: the counter is the number of online
  cores still to come, and a core that takes less than what is
  left has one of them behind it.
-/
theorem distribute_induct
    {sqrt : K → K}
    (hSqrt : UnitRoot sqrt)
    {irqs : List Int}
    {P : List CpuData → Nat → List AffinityWrite → Prop}
    (hDone : ∀ cores, P cores irqs.length [])
    (hNil : ∀ start, P [] start [])
    (hOffline :
      ∀ data rest start writes,
        data.online = false →
        P rest start writes →
        P (data :: rest) start writes)
    (hOnline :
      ∀ data rest (start irqnum : Nat) writes later,
        data.online = true →
        data.cpuUtil ≤ 100 →
        share sqrt data ((irqs.length : Int) - (start : Int))
          (rest.countP CpuData.online : Int) =
            (irqnum : Int) →
        start + irqnum ≤ irqs.length →
        (start + irqnum < irqs.length →
          0 < rest.countP CpuData.online) →
        Covers irqs [data] start irqnum writes →
        P rest (start + irqnum) later →
        P (data :: rest) start (writes ++ later))
    {cores : List CpuData}
    (hUtil :
      ∀ data ∈ cores, data.online = true →
        data.cpuUtil ≤ 100)
    {start : Nat}
    (hStart : start ≤ irqs.length) :
    ∃ writes,
      distribute sqrt irqs cores start
          (cores.countP CpuData.online) =
        some writes ∧
      P cores start writes := by
  induction cores generalizing start with
  | nil =>
      exact ⟨[], rfl, hNil start⟩
  | cons data rest ih =>
      have hUtilRest :
          ∀ data ∈ rest, data.online = true →
            data.cpuUtil ≤ 100 := by
        intro other hOther
        exact hUtil other (by simp [hOther])
      by_cases hMore : start < irqs.length
      · have hMoreInt :
            (start : Int) < (irqs.length : Int) := by
          exact_mod_cast hMore
        cases hData : data.online with
        | false =>
            have hCount :
                (data :: rest).countP CpuData.online =
                  rest.countP CpuData.online := by
              simp [hData]
            rcases ih hUtilRest hStart with
              ⟨writes, hLoop, hRest⟩
            refine ⟨writes, ?_,
              hOffline data rest start writes hData hRest⟩
            rw [hCount, distribute_offline hData rest
              hMoreInt]
            exact hLoop
        | true =>
            have hCount :
                (data :: rest).countP CpuData.online =
                  rest.countP CpuData.online + 1 := by
              simp [hData]
            have hBound := hUtil data (by simp) hData
            rcases exists_share hSqrt hBound hStart
                (rest.countP CpuData.online) with
              ⟨irqnum, hIrqnum, hFits, hLater⟩
            rcases assignIrqs_covers hData hMore hFits with
              ⟨writes, hAssign, hWrites⟩
            rcases ih hUtilRest hFits with
              ⟨later, hLoop, hRest⟩
            rw [Nat.cast_add] at hLoop
            refine ⟨writes ++ later, ?_,
              hOnline data rest start irqnum writes later
                hData hBound hIrqnum hFits hLater hWrites
                hRest⟩
            rw [hCount, Nat.cast_add, Nat.cast_one]
            exact distribute_online hData hMoreInt
              (Int.natCast_nonneg _) hIrqnum hAssign hLoop
      · have hEnd : start = irqs.length := by
          omega
        have hEndInt :
            ¬ (start : Int) < (irqs.length : Int) := by
          omega
        refine ⟨[], ?_, hEnd ▸ hDone _⟩
        simp only [distribute, if_neg hEndInt]

/- As long as interrupts are left, a core takes them. -/
theorem distribute_covers
    {sqrt : K → K}
    (hSqrt : UnitRoot sqrt)
    (irqs : List Int)
    {cores : List CpuData}
    (hUtil : ∀ data ∈ cores, data.cpuUtil ≤ 100)
    {start : Nat}
    (hStart : start ≤ irqs.length)
    (hOnline :
      start < irqs.length →
        0 < cores.countP CpuData.online) :
    ∃ writes,
      distribute sqrt irqs cores start
          (cores.countP CpuData.online) =
        some writes ∧
      Covers irqs cores start (irqs.length - start)
        writes := by
  have hLoop :=
    distribute_induct hSqrt
      (P := fun cores start writes =>
        (start < irqs.length →
          0 < cores.countP CpuData.online) →
        Covers irqs cores start (irqs.length - start) writes)
      ?done ?nil ?offline ?online
      (fun data hData _ => hUtil data hData) hStart
  case done =>
    intro cores _
    rw [Nat.sub_self]
    exact Covers.nil irqs cores _
  case nil =>
    intro start hSome
    have hDone : irqs.length - start = 0 := by
      simp at hSome
      omega
    rw [hDone]
    exact Covers.nil irqs [] start
  case offline =>
    intro data rest start writes hData hRest hSome
    rw [List.countP_cons_of_neg (by simp [hData])] at hSome
    exact (hRest hSome).mono (by simp)
  case online =>
    intro data rest start irqnum writes later _ _ _ hFits
      hLater hWrites hRest _
    have hSplit :
        irqs.length - start =
          irqnum + (irqs.length - (start + irqnum)) := by
      omega
    rw [hSplit]
    exact (hWrites.mono (by simp)).append
      ((hRest hLater).mono (by simp))
  rcases hLoop with ⟨writes, hRun, hCovers⟩
  exact ⟨writes, hRun, hCovers hOnline⟩

/-
  With an online core and percentages as utilizations, every
  position of the interrupt list is written exactly once, in
  order and inside the list, with what 32 bits hold of the
  mask of an online core.  That is its mask, if the numbers of
  the online cores are below 32.
-/
theorem irqbalanceMain_covers
    {sqrt : K → K}
    (hSqrt : UnitRoot sqrt)
    {cpudata : List CpuData}
    (hOnline : ∃ data ∈ cpudata, data.online = true)
    (hUtil : ∀ data ∈ cpudata, data.cpuUtil ≤ 100)
    (irqs : List Int) :
    ∃ writes,
      irqbalanceMain sqrt cpudata irqs = some writes ∧
      writes.map AffinityWrite.position =
        List.range irqs.length ∧
      (∀ w ∈ writes, w.Sound wrappedMask irqs cpudata) ∧
      ((∀ data ∈ cpudata, data.online = true →
          data.core < 32) →
        ∀ w ∈ writes, w.Sound wholeMask irqs cpudata) := by
  rcases BubbleSort.sort_perm CpuData.cpuUtil
      (le_refl cpudata.length) with
    ⟨sorted, hSort, hPerm⟩
  have hMem :
      ∀ data, data ∈ sorted.reverse ↔ data ∈ cpudata := by
    intro data
    rw [List.mem_reverse]
    exact hPerm.mem_iff
  have hCount :
      sorted.reverse.countP CpuData.online =
        sorted.countP CpuData.online :=
    List.countP_reverse
  have hSome :
      0 < sorted.reverse.countP CpuData.online := by
    rw [List.countP_pos_iff]
    rcases hOnline with ⟨data, hData, hOn⟩
    exact ⟨data, (hMem data).mpr hData, hOn⟩
  rcases distribute_covers hSqrt irqs
      (fun data hData => hUtil data ((hMem data).mp hData))
      (Nat.zero_le irqs.length) (fun _ => hSome) with
    ⟨writes, hLoop, hCovers⟩
  have hSound :
      ∀ w ∈ writes, w.Sound wrappedMask irqs cpudata := by
    intro w hw
    exact (hCovers.sound w hw).mono
      (fun data hData => (hMem data).mp hData)
  refine ⟨writes, ?_, ?_, hSound, ?_⟩
  · unfold irqbalanceMain
    rw [hSort, Option.bind_eq_bind, Option.bind_some,
      ← hCount]
    exact hLoop
  · rw [hCovers.positions, Nat.sub_zero,
      List.range_eq_range']
  · intro hFew w hw
    exact (hSound w hw).whole hFew

/- An idle core, a busy core and an offline core. -/
def threeCores : List CpuData :=
  [{ CpuData.zero with core := 0, online := true },
    { CpuData.zero with
      core := 1, online := true, cpuUtil := 100 },
    { CpuData.zero with core := 2 }]

theorem unitRoot_id : UnitRoot (id : ℚ → ℚ) := by
  intro x hLower hUpper
  exact ⟨hLower, hUpper⟩

/- On these utilizations the root is the identity. -/
theorem irqbalanceMain_covers_threeCores :
    UnitRoot (id : ℚ → ℚ) ∧
      (∃ data ∈ threeCores, data.online = true) ∧
      (∀ data ∈ threeCores, data.cpuUtil ≤ 100) ∧
      ∃ writes,
        irqbalanceMain (id : ℚ → ℚ) threeCores
            [52, 53, 54] =
          some writes ∧
        writes.map AffinityWrite.position = [0, 1, 2] ∧
        ∀ w ∈ writes,
          w.Sound wholeMask [52, 53, 54] threeCores := by
  have hOnline :
      ∃ data ∈ threeCores, data.online = true := by
    decide
  have hUtil :
      ∀ data ∈ threeCores, data.cpuUtil ≤ 100 := by
    decide
  rcases
    irqbalanceMain_covers unitRoot_id hOnline hUtil
      [52, 53, 54] with
    ⟨writes, hMain, hPositions, _, hWhole⟩
  exact ⟨unitRoot_id, hOnline, hUtil, writes, hMain,
    hPositions, hWhole (by decide)⟩

/- The first core whose mask needs more than 32 bits. -/
def farCore : List CpuData :=
  [{ CpuData.zero with core := 32, online := true }]

/- The mask that is written for it is that of core 0. -/
theorem irqbalanceMain_farCore :
    ¬ ∀ (sqrt : ℚ → ℚ) (cpudata : List CpuData)
        (irqs : List Int),
        UnitRoot sqrt →
        (∃ data ∈ cpudata, data.online = true) →
        (∀ data ∈ cpudata, data.cpuUtil ≤ 100) →
        ∃ writes,
          irqbalanceMain sqrt cpudata irqs = some writes ∧
          writes.map AffinityWrite.position =
            List.range irqs.length ∧
          ∀ w ∈ writes, w.Sound wholeMask irqs cpudata := by
  intro hAll
  rcases
    hAll id farCore [52] unitRoot_id (by decide)
      (by decide) with
    ⟨writes, hMain, _, hSound⟩
  have hWritten :
      irqbalanceMain (id : ℚ → ℚ) farCore [52] =
        some [⟨0, irqpath 52, maskText 1⟩] := by
    rfl
  rw [hWritten, Option.some.injEq] at hMain
  rcases (hSound _ (hMain ▸ List.mem_singleton_self _)).2 with
    ⟨data, hData, _, hText⟩
  rw [List.mem_singleton.mp hData] at hText
  exact absurd hText (by decide)

end Irqbalance

end Universal7420
