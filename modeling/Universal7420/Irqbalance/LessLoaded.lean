import Universal7420.Irqbalance.Balance
import Universal7420.Irqbalance.Watchdog
import Universal7420.Lib.Apportion
import Mathlib.Data.List.Sort
import Mathlib.Analysis.Real.Sqrt

/-
  Which cores `irqbalance_main` prefers.

  The cores are served from the busiest down, and each takes
  its share of the interrupts that are left.  The share is
  divided by the number of cores behind and not by the number
  of cores left, so a core may take more than an equal part.
  Whether it does is read off the utilizations, up to the
  rounding, and exactly off the turns of the loop.

  Main declarations:
    * `Universal7420.Irqbalance.assigned`
    * `Universal7420.Irqbalance.EvenlyServed`
    * `Universal7420.Irqbalance.irqbalanceMain_deal`
    * `Universal7420.Irqbalance.cores_nodup`
    * `Universal7420.Irqbalance.Served.favoured_iff`
    * `Universal7420.Irqbalance.less_loaded_favoured`
    * `Universal7420.Irqbalance.less_loaded_in_runs`
-/

------------------------------------------------------------
-- Texts Of Masks
------------------------------------------------------------

namespace Universal7420

namespace Irqbalance

/- The value of a hexadecimal digit. -/
def hexDigit (c : Char) : Nat :=
  if c.isDigit then c.toNat - 48 else c.toNat - 87

/- Read hexadecimal digits from the most significant one. -/
def hexValue (cs : List Char) : Nat :=
  cs.foldl (fun value c => 16 * value + hexDigit c) 0

theorem hexValue_append
    (cs : List Char)
    (c : Char) :
    hexValue (cs ++ [c]) = 16 * hexValue cs + hexDigit c := by
  simp [hexValue]

theorem hexDigit_digitChar
    {n : Nat}
    (hDigit : n < 16) :
    hexDigit n.digitChar = n := by
  have hAll : ∀ m : Fin 16, hexDigit m.val.digitChar = m := by
    decide
  exact hAll ⟨n, hDigit⟩

theorem hexValue_toDigits
    (n : Nat) :
    hexValue (Nat.toDigits 16 n) = n := by
  induction n using Nat.strong_induction_on with
  | _ n ih =>
      rw [Nat.toDigits_eq_if (by omega)]
      split
      · rename_i hDigit
        simp [hexValue, hexDigit_digitChar hDigit]
      · rename_i hMore
        have hMod : n % 16 < 16 := Nat.mod_lt n (by omega)
        rw [hexValue_append, ih (n / 16) (by omega),
          hexDigit_digitChar hMod]
        omega

theorem hexValue_leftpad
    (width : Nat)
    (cs : List Char) :
    hexValue (cs.leftpad width '0') = hexValue cs := by
  have hZeros :
      ∀ count : Nat,
        hexValue (List.replicate count '0' ++ cs) =
          hexValue cs := by
    intro count
    induction count with
    | zero =>
        rfl
    | succ count ih =>
        rw [List.replicate_succ, List.cons_append]
        exact ih
  exact hZeros _

theorem maskText_injective :
    Function.Injective maskText := by
  intro m n hSame
  have hText := congrArg String.toList hSame
  unfold maskText at hText
  simp only [String.toList_append, String.toList_ofList]
    at hText
  have hValue :=
    congrArg hexValue (List.append_cancel_right hText)
  rwa [hexValue_leftpad, hexValue_leftpad,
    hexValue_toDigits, hexValue_toDigits] at hValue

/- The text of the mask of a core. -/
def coreMask (data : CpuData) : String :=
  maskText (wholeMask data.core)

/- What is written for a core. -/
def writtenMask (data : CpuData) : String :=
  maskText (wrappedMask data.core)

theorem writtenMask_eq
    {data : CpuData}
    (hCore : data.core < 32) :
    writtenMask data = coreMask data := by
  unfold writtenMask coreMask
  rw [wrappedMask_of_lt hCore]

theorem coreMask_inj
    {data data' : CpuData} :
    coreMask data = coreMask data' ↔
      data.core = data'.core := by
  unfold coreMask wholeMask
  rw [maskText_injective.eq_iff, Nat.one_shiftLeft,
    Nat.one_shiftLeft,
    (Nat.pow_right_injective (le_refl 2)).eq_iff,
    UInt8.toNat_inj]

end Irqbalance

end Universal7420

------------------------------------------------------------
-- Core Numbers
------------------------------------------------------------

namespace Universal7420

namespace Irqbalance

theorem readCpudata_core
    (stat : Option (List Char))
    (offsCpus : Int)
    (data : CpuData)
    (i : Nat) :
    (readCpudata stat offsCpus data i).data.core =
      data.core := by
  unfold readCpudata
  cases stat with
  | none =>
      rfl
  | some text =>
      simp only
      split
      · rfl
      · rfl

/- The watchdog does not renumber the cores. -/
theorem watchdogFrom_cores
    (stat : Option (List Char))
    (offsCpus : Int)
    (start : Nat)
    (cpudata : List CpuData) :
    (watchdogFrom stat offsCpus start cpudata).1.map
        CpuData.core =
      cpudata.map CpuData.core := by
  induction cpudata generalizing start with
  | nil =>
      rfl
  | cons old rest ih =>
      have hCore := readCpudata_core stat offsCpus old start
      unfold watchdogFrom
      simp only
      split
      · rw [List.map_cons, List.map_cons, hCore]
      · rw [List.map_cons, List.map_cons, ih, hCore]

/- `main` numbers the cores. -/
theorem initCpudata_cores
    {stat : Option (List Char)}
    {offsCpus : Int}
    {nrCpus : Nat}
    {cpudata : List CpuData}
    (hInit :
      initCpudata stat offsCpus nrCpus = some cpudata) :
    cpudata.map CpuData.core =
      (List.range nrCpus).map (fun (i : Nat) =>
        UInt8.ofNat ((i + offsCpus) % 256).toNat) := by
  have hAll := initCpudata_forall₂ hInit
  clear hInit
  generalize List.range nrCpus = indices at hAll ⊢
  induction hAll with
  | nil =>
      rfl
  | cons hHead _ ih =>
      rw [List.map_cons, List.map_cons, ih]
      unfold initCore at hHead
      simp only at hHead
      split at hHead
      · cases hHead
      · cases hHead
        rw [readCpudata_core]

/- The records after passes of the watchdog. -/
def afterPasses
    (offsCpus : Int)
    (stats : List (Option (List Char)))
    (cpudata : List CpuData) : List CpuData :=
  stats.foldl
    (fun cpudata stat =>
      (irqbalanceLoadWatchdog stat offsCpus cpudata).1)
    cpudata

theorem afterPasses_cores
    (offsCpus : Int)
    (stats : List (Option (List Char)))
    (cpudata : List CpuData) :
    (afterPasses offsCpus stats cpudata).map CpuData.core =
      cpudata.map CpuData.core := by
  induction stats generalizing cpudata with
  | nil =>
      rfl
  | cons stat stats ih =>
      have hStep :
          ((irqbalanceLoadWatchdog stat offsCpus cpudata).1.map
            CpuData.core) =
            cpudata.map CpuData.core :=
        watchdogFrom_cores stat offsCpus 0 cpudata
      exact (ih _).trans hStep

section Passes

variable {stat : Option (List Char)}
variable {offsCpus : Int}
variable {nrCpus : Nat}
variable {cpudata : List CpuData}

/- After any passes the cores have different numbers. -/
theorem cores_nodup
    (hInit :
      initCpudata stat offsCpus nrCpus = some cpudata)
    (hFew : nrCpus ≤ 256)
    (stats : List (Option (List Char))) :
    ((afterPasses offsCpus stats cpudata).map
      CpuData.core).Nodup := by
  rw [afterPasses_cores, initCpudata_cores hInit]
  apply List.Nodup.map_on _ List.nodup_range
  intro i hi j hj hSame
  rw [List.mem_range] at hi hj
  have hNat := congrArg UInt8.toNat hSame
  simp only [UInt8.toNat_ofNat'] at hNat
  omega

/- The numbers of the managed cores are as configured. -/
theorem cores_lt
    (hInit :
      initCpudata stat offsCpus nrCpus = some cpudata)
    (hFirst : 0 ≤ offsCpus)
    (hFew : offsCpus + nrCpus ≤ 32)
    (stats : List (Option (List Char))) :
    ∀ data ∈ afterPasses offsCpus stats cpudata,
      data.core < 32 := by
  intro data hData
  have hCore := List.mem_map_of_mem (f := CpuData.core) hData
  rw [afterPasses_cores, initCpudata_cores hInit] at hCore
  rcases List.mem_map.mp hCore with ⟨i, hi, hSame⟩
  rw [List.mem_range] at hi
  rw [← hSame, UInt8.lt_iff_toNat_lt, UInt8.toNat_ofNat']
  have hBound : (UInt8.toNat 32) = 32 := rfl
  omega

end Passes

end Irqbalance

end Universal7420

------------------------------------------------------------
-- Dealing Interrupts
------------------------------------------------------------

namespace Universal7420

namespace Irqbalance

/- `cpu_util` as a number -/
def CpuData.util (data : CpuData) : Nat :=
  data.cpuUtil.toNat

section Texts

variable {K : Type}
variable [Field K] [LinearOrder K] [FloorRing K]

/- The texts of the writes when the cores get so many. -/
def dealtTexts (dealt : List (CpuData × Int)) : List String :=
  dealt.flatMap
    (fun p => List.replicate p.2.toNat (writtenMask p.1))

variable {sqrt : K → K}

/- A core's share is the rounded-up free part. -/
theorem share_eq
    {data : CpuData}
    (hUtil : data.cpuUtil ≤ 100)
    (left : Int)
    (others : Nat) :
    share sqrt data left (others : Int) =
      Apportion.share (freePart sqrt data.util) left
        others := by
  unfold share Apportion.share freePart CpuData.util
  rw [ratio_eq hUtil, Int.cast_natCast, sub_mul, one_mul]
  simp only [Nat.cast_eq_zero]

/- What covers the positions for one core is one text. -/
theorem Covers.texts
    {irqs : List Int}
    {data : CpuData}
    {start count : Nat}
    {writes : List AffinityWrite}
    (hCovers : Covers irqs [data] start count writes) :
    writes.map AffinityWrite.text =
      List.replicate count (writtenMask data) := by
  have hLength :=
    congrArg List.length hCovers.positions
  rw [List.length_map, List.length_range'] at hLength
  rw [List.eq_replicate_iff, List.length_map]
  refine ⟨hLength, ?_⟩
  intro text hText
  rcases List.mem_map.mp hText with ⟨w, hw, hSame⟩
  rcases (hCovers.sound w hw).2 with
    ⟨data', hData, _, hMask⟩
  rw [← hSame, hMask, List.mem_singleton.mp hData]
  rfl

variable [IsStrictOrderedRing K]

theorem dealtTexts_zero
    (cores : List CpuData) :
    dealtTexts
        (Apportion.deal CpuData.util (freePart sqrt) cores
          0) =
      [] := by
  apply List.flatMap_eq_nil_iff.mpr
  intro p hp
  rw [Apportion.deal_zero p hp]
  rfl

/- The loop deals the interrupts out to the online cores. -/
theorem distribute_deal
    (hSqrt : UnitRoot sqrt)
    (irqs : List Int)
    {cores : List CpuData}
    (hUtil :
      ∀ data ∈ cores, data.online = true →
        data.cpuUtil ≤ 100)
    {start : Nat}
    (hStart : start ≤ irqs.length) :
    ∃ writes,
      distribute sqrt irqs cores start
          (cores.countP CpuData.online) =
        some writes ∧
      writes.map AffinityWrite.text =
        dealtTexts
          (Apportion.deal CpuData.util (freePart sqrt)
            (cores.filter CpuData.online)
            ((irqs.length : Int) - (start : Int))) := by
  apply distribute_induct hSqrt ?done ?nil ?offline ?online
    hUtil hStart
  case done =>
    intro cores
    rw [sub_self, dealtTexts_zero]
    rfl
  case nil =>
    intro start
    rfl
  case offline =>
    intro data rest start writes hData hRest
    rw [List.filter_cons_of_neg (by simp [hData])]
    exact hRest
  case online =>
    intro data rest start irqnum writes later hData hBound
      hShare _ _ hWrites hRest
    rw [share_eq hBound, List.countP_eq_length_filter]
      at hShare
    rw [List.filter_cons_of_pos (by simp [hData]),
      Apportion.deal, hShare, List.map_append,
      hWrites.texts, hRest]
    simp only [dealtTexts, List.flatMap_cons,
      Int.toNat_natCast]
    push_cast
    rw [sub_add_eq_sub_sub]

/- `irqbalance_main` deals them out in the sorted order. -/
theorem irqbalanceMain_deal
    (hSqrt : UnitRoot sqrt)
    {cpudata sorted : List CpuData}
    (hUtil :
      ∀ data ∈ cpudata, data.online = true →
        data.cpuUtil ≤ 100)
    (irqs : List Int)
    (hSort :
      BubbleSort.sort CpuData.cpuUtil cpudata.length
        cpudata = some sorted)
    (hPerm : sorted.Perm cpudata) :
    ∃ writes,
      irqbalanceMain sqrt cpudata irqs = some writes ∧
      writes.map AffinityWrite.text =
        dealtTexts
          (Apportion.deal CpuData.util (freePart sqrt)
            (sorted.reverse.filter CpuData.online)
            irqs.length) := by
  have hUtilSorted :
      ∀ data ∈ sorted.reverse, data.online = true →
        data.cpuUtil ≤ 100 := by
    intro data hData
    rw [List.mem_reverse, hPerm.mem_iff] at hData
    exact hUtil data hData
  rcases distribute_deal hSqrt irqs hUtilSorted
      (Nat.zero_le irqs.length) with
    ⟨writes, hLoop, hTexts⟩
  rw [Nat.cast_zero, sub_zero] at hTexts
  refine ⟨writes, ?_, hTexts⟩
  unfold irqbalanceMain
  rw [hSort, Option.bind_eq_bind, Option.bind_some,
    ← List.countP_reverse]
  exact hLoop

end Texts

end Irqbalance

end Universal7420

------------------------------------------------------------
-- Interrupts Of A Core
------------------------------------------------------------

namespace Universal7420

namespace Irqbalance

/- The number of interrupts that are assigned to a core. -/
def assigned
    (writes : List AffinityWrite)
    (data : CpuData) : Nat :=
  writes.countP (fun w => w.text = coreMask data)

theorem assigned_eq
    (writes : List AffinityWrite)
    (data : CpuData) :
    assigned writes data =
      (writes.map AffinityWrite.text).count
        (coreMask data) := by
  rw [List.count_eq_countP, List.countP_map]
  unfold assigned
  congr 1

/- With different numbers, a core's mask is its own. -/
theorem count_dealtTexts
    {dealt : List (CpuData × Int)}
    (hCores :
      (dealt.map (fun p => p.1.core)).Nodup)
    (hFew : ∀ p ∈ dealt, p.1.core < 32)
    {p : CpuData × Int}
    (hp : p ∈ dealt) :
    (dealtTexts dealt).count (coreMask p.1) =
      p.2.toNat := by
  have hNone :
      ∀ (later : List (CpuData × Int)) (data : CpuData),
        (∀ q ∈ later, q.1.core < 32) →
        data.core ∉ later.map (fun q => q.1.core) →
        (dealtTexts later).count (coreMask data) = 0 := by
    intro later data hLater hFresh
    rw [List.count_eq_zero]
    intro hMem
    rcases List.mem_flatMap.mp hMem with ⟨q, hq, hText⟩
    have hSame := List.eq_of_mem_replicate hText
    rw [writtenMask_eq (hLater q hq), coreMask_inj] at hSame
    apply hFresh
    rw [hSame]
    exact List.mem_map_of_mem hq
  induction dealt with
  | nil =>
      cases hp
  | cons q later ih =>
      rcases List.nodup_cons.mp hCores with ⟨hFresh, hLater⟩
      rcases List.forall_mem_cons.mp hFew with
        ⟨hHeadFew, hLaterFew⟩
      unfold dealtTexts at ih ⊢
      rw [List.flatMap_cons, List.count_append,
        writtenMask_eq hHeadFew]
      rcases List.mem_cons.mp hp with hHead | hTail
      · rw [hHead, List.count_replicate_self]
        have hRest := hNone later q.1 hLaterFew hFresh
        unfold dealtTexts at hRest
        omega
      · have hApart : coreMask q.1 ≠ coreMask p.1 := by
          intro hSame
          apply hFresh
          exact List.mem_map.mpr
            ⟨p, hTail, (coreMask_inj.mp hSame).symm⟩
        rw [ih hLater hLaterFew hTail, List.count_replicate]
        simp [hApart]

/- A busier online core has at most as many as another. -/
def LessLoadedFavoured
    (cpudata : List CpuData)
    (writes : List AffinityWrite) : Prop :=
  ∀ data ∈ cpudata, data.online = true →
    ∀ data' ∈ cpudata, data'.online = true →
      data'.cpuUtil < data.cpuUtil →
        assigned writes data ≤ assigned writes data'

/- The utilizations of the online cores, busiest first. -/
def onlineUtils (cpudata : List CpuData) : List Nat :=
  ((cpudata.filter CpuData.online).map
    CpuData.util).insertionSort (· ≥ ·)

/- The masks of the online cores fit in 32 bits. -/
def MasksFit (cpudata : List CpuData) : Prop :=
  ∀ data ∈ cpudata, data.online = true → data.core < 32

/-
  The condition on the cores and the number of interrupts:
  there are none, or no online core is busier than another, or
  no core is given more than an equal part.
-/
def EvenlyServed
    (cpudata : List CpuData)
    (irqsNum : Nat) : Prop :=
  irqsNum = 0 ∨
    (∀ u ∈ onlineUtils cpudata, ∀ v ∈ onlineUtils cpudata,
      u = v) ∨
    (MasksFit cpudata ∧
      Apportion.EvenShares (freePart Real.sqrt)
        (onlineUtils cpudata) irqsNum)

/- What it needs: no busier core's part is above an equal one. -/
def PartsEven (cpudata : List CpuData) : Prop :=
  Apportion.AtMostEven (freePart Real.sqrt)
    ((onlineUtils cpudata).getLastD 0) (onlineUtils cpudata)

/- The exact condition, on the turns of the loop. -/
def FairBalance
    (cpudata : List CpuData)
    (irqsNum : Nat) : Prop :=
  Apportion.FairTurns (freePart Real.sqrt)
    ((onlineUtils cpudata).getLastD 0) 0
    (onlineUtils cpudata) irqsNum

end Irqbalance

end Universal7420

------------------------------------------------------------
-- Less Loaded Cores
------------------------------------------------------------

namespace Universal7420

namespace Irqbalance

theorem unitRoot_sqrt : UnitRoot Real.sqrt := by
  intro x _ hUpper
  exact ⟨Real.sqrt_nonneg x, Real.sqrt_le_one.mpr hUpper⟩

/- A busier core is given a smaller part. -/
theorem freePart_antitone : Antitone (freePart Real.sqrt) := by
  intro u v hLe
  unfold freePart
  have hRoot :
      Real.sqrt ((u : ℝ) / 100) ≤
        Real.sqrt ((v : ℝ) / 100) := by
    apply Real.sqrt_le_sqrt
    gcongr
  linarith

theorem freePart_of_square
    {u : Nat}
    {r : ℝ}
    (hRoot : 0 ≤ r)
    (hSquare : (u : ℝ) / 100 = r * r) :
    freePart Real.sqrt u = 1 - r := by
  unfold freePart
  rw [hSquare, Real.sqrt_mul_self hRoot]

theorem freePart_mem_unit
    {u : Nat}
    (hUtil : u ≤ 100) :
    0 ≤ freePart Real.sqrt u ∧ freePart Real.sqrt u ≤ 1 := by
  have hCast : (u : ℝ) ≤ 100 := by
    exact_mod_cast hUtil
  have hUpper : (u : ℝ) / 100 ≤ 1 := by
    linarith
  rcases unitRoot_sqrt ((u : ℝ) / 100) (by positivity)
      hUpper with ⟨hRoot, hOne⟩
  unfold freePart
  constructor
  · linarith
  · linarith

section Sorted

variable {cpudata sorted : List CpuData}

/- The order of serving the cores is graded. -/
theorem graded_of_sorted
    (hUtil :
      ∀ data ∈ sorted, data.online = true →
        data.cpuUtil ≤ 100)
    (hSorted :
      sorted.Pairwise
        (fun data data' => data.cpuUtil ≤ data'.cpuUtil)) :
    Apportion.Graded CpuData.util (freePart Real.sqrt)
      (sorted.reverse.filter CpuData.online) := by
  have hFalling :
      (sorted.reverse.filter CpuData.online).Pairwise
        (fun data data' => data'.util ≤ data.util) := by
    apply List.Pairwise.filter
    apply List.pairwise_reverse.mpr
    apply hSorted.imp
    intro data data' hLe
    exact UInt64.le_iff_toNat_le.mp hLe
  constructor
  · intro data hData
    rw [List.mem_filter, List.mem_reverse] at hData
    have hBound := hUtil data hData.1 hData.2
    exact freePart_mem_unit
      (UInt64.le_iff_toNat_le.mp hBound)
  · exact hFalling
  · apply hFalling.imp
    intro data data' hLe
    exact freePart_antitone hLe

/- The order of serving the cores is that of `onlineUtils`. -/
theorem map_util_eq_onlineUtils
    (hPerm : sorted.Perm cpudata)
    (hFalling :
      (sorted.reverse.filter CpuData.online).Pairwise
        (fun data data' => data'.util ≤ data.util)) :
    (sorted.reverse.filter CpuData.online).map
        CpuData.util =
      onlineUtils cpudata := by
  have hSame :
      ((sorted.reverse.filter CpuData.online).map
        CpuData.util).Perm (onlineUtils cpudata) := by
    refine List.Perm.trans ?_
      (List.perm_insertionSort _ _).symm
    apply List.Perm.map
    exact ((List.reverse_perm sorted).trans hPerm).filter _
  have hServed :
      ((sorted.reverse.filter CpuData.online).map
        CpuData.util).Pairwise (· ≥ ·) :=
    List.pairwise_map.mpr hFalling
  have hUtils :
      (onlineUtils cpudata).Pairwise (· ≥ ·) :=
    List.pairwise_insertionSort _ _
  apply List.Perm.eq_of_pairwise _ hServed hUtils hSame
  intro u v _ _ hGe hLe
  exact le_antisymm hLe hGe

end Sorted

/- The online cores in the order in which they are served. -/
structure Served
    (cpudata : List CpuData)
    (irqsNum : Nat)
    (writes : List AffinityWrite)
    (served : List CpuData) : Prop where
  mem :
    ∀ data, data ∈ served ↔
      data ∈ cpudata ∧ data.online = true
  utils : served.map CpuData.util = onlineUtils cpudata
  graded :
    Apportion.Graded CpuData.util (freePart Real.sqrt) served
  assigned :
    ∀ p ∈ Apportion.deal CpuData.util (freePart Real.sqrt)
        served irqsNum,
      (assigned writes p.1 : Int) = p.2

/- `irqbalance_main` serves the cores, busiest first. -/
theorem irqbalanceMain_served
    {cpudata : List CpuData}
    (hCores : (cpudata.map CpuData.core).Nodup)
    (hFew : MasksFit cpudata)
    (hUtil :
      ∀ data ∈ cpudata, data.online = true →
        data.cpuUtil ≤ 100)
    (irqs : List Int) :
    ∃ writes served,
      irqbalanceMain Real.sqrt cpudata irqs = some writes ∧
      Served cpudata irqs.length writes served := by
  rcases BubbleSort.sort_perm CpuData.cpuUtil
      (le_refl cpudata.length) with
    ⟨sorted, hSort, hPerm⟩
  rcases irqbalanceMain_deal unitRoot_sqrt hUtil irqs hSort
      hPerm with
    ⟨writes, hMain, hTexts⟩
  have hGraded :=
    graded_of_sorted
      (fun data hData => hUtil data (hPerm.mem_iff.mp hData))
      (BubbleSort.sort_sorted _ hSort)
  have hNodup :
      ((sorted.reverse.filter CpuData.online).map
        CpuData.core).Nodup := by
    have hAll : (sorted.reverse.map CpuData.core).Nodup :=
      (((List.reverse_perm sorted).trans hPerm).map
        CpuData.core).nodup_iff.mpr hCores
    exact hAll.sublist (List.filter_sublist.map _)
  refine ⟨writes, _, hMain, ?_,
    map_util_eq_onlineUtils hPerm hGraded.falling, hGraded,
    ?_⟩
  · intro data
    rw [List.mem_filter, List.mem_reverse, hPerm.mem_iff]
  · intro p hp
    have hNonneg :=
      Apportion.deal_nonneg hGraded
        (Int.natCast_nonneg irqs.length) p hp
    have hDealt :=
      Apportion.deal_map_fst CpuData.util
        (freePart Real.sqrt)
        (sorted.reverse.filter CpuData.online) irqs.length
    have hServedFew :
        ∀ q ∈ Apportion.deal CpuData.util
            (freePart Real.sqrt)
            (sorted.reverse.filter CpuData.online)
            irqs.length,
          q.1.core < 32 := by
      intro q hq
      have hMem := Apportion.fst_mem_of_mem_deal hq
      rw [List.mem_filter, List.mem_reverse, hPerm.mem_iff]
        at hMem
      exact hFew q.1 hMem.1 hMem.2
    rw [← hDealt, List.map_map] at hNodup
    rw [assigned_eq, hTexts,
      count_dealtTexts hNodup hServedFew hp]
    omega

/- Favouring the less loaded is a property of the dealing. -/
theorem Served.favoured_iff
    {cpudata served : List CpuData}
    {irqsNum : Nat}
    {writes : List AffinityWrite}
    (hServed : Served cpudata irqsNum writes served) :
    LessLoadedFavoured cpudata writes ↔
      FairBalance cpudata irqsNum := by
  have hLeast :
      ∀ hSome, (served.getLast hSome).util =
        (onlineUtils cpudata).getLastD 0 := by
    intro hSome
    rw [← hServed.utils, List.getLastD_eq_getLast?,
      List.getLast?_map,
      List.getLast?_eq_some_getLast hSome]
    rfl
  unfold FairBalance
  rw [← hServed.utils] at hLeast ⊢
  rw [← Apportion.deal_le_iff hServed.graded hLeast
    (Int.natCast_nonneg irqsNum)]
  constructor
  · intro hFavoured p hp q hq hLt
    rcases (hServed.mem p.1).mp
        (Apportion.fst_mem_of_mem_deal hp) with
      ⟨hData, hOnline⟩
    rcases (hServed.mem q.1).mp
        (Apportion.fst_mem_of_mem_deal hq) with
      ⟨hData', hOnline'⟩
    have hCounts := hFavoured p.1 hData hOnline q.1 hData'
      hOnline' (UInt64.lt_iff_toNat_lt.mpr hLt)
    rw [← hServed.assigned p hp, ← hServed.assigned q hq]
    exact_mod_cast hCounts
  · intro hDealt data hData hOnline data' hData' hOnline' hLt
    have hShare :
        ∀ d, d ∈ cpudata → d.online = true →
          ∃ n, (d, n) ∈ Apportion.deal CpuData.util
            (freePart Real.sqrt) served irqsNum := by
      intro d hd hOn
      have hIn := (hServed.mem d).mpr ⟨hd, hOn⟩
      rw [← Apportion.deal_map_fst CpuData.util
        (freePart Real.sqrt) served irqsNum] at hIn
      rcases List.mem_map.mp hIn with ⟨p, hp, hSame⟩
      exact ⟨p.2, hSame ▸ hp⟩
    rcases hShare data hData hOnline with ⟨n, hn⟩
    rcases hShare data' hData' hOnline' with ⟨n', hn'⟩
    have hLe := hDealt _ hn _ hn'
      (UInt64.lt_iff_toNat_lt.mp hLt)
    rw [← hServed.assigned _ hn, ← hServed.assigned _ hn']
      at hLe
    exact_mod_cast hLe

/- The utilizations of the online cores. -/
theorem mem_onlineUtils
    {cpudata : List CpuData}
    {u : Nat} :
    u ∈ onlineUtils cpudata ↔
      ∃ data ∈ cpudata, data.online = true ∧
        data.util = u := by
  unfold onlineUtils
  rw [List.mem_insertionSort, List.mem_map]
  simp only [List.mem_filter, and_assoc]

/- Without interrupts nothing is written. -/
theorem irqbalanceMain_nil
    {cpudata : List CpuData}
    {writes : List AffinityWrite}
    (hMain :
      irqbalanceMain Real.sqrt cpudata [] = some writes) :
    writes = [] := by
  unfold irqbalanceMain at hMain
  rcases BubbleSort.sort_perm CpuData.cpuUtil
      (le_refl cpudata.length) with
    ⟨sorted, hSort, _⟩
  rw [hSort, Option.bind_eq_bind, Option.bind_some] at hMain
  cases hServe : sorted.reverse with
  | nil =>
      rw [hServe, distribute] at hMain
      exact (Option.some.inj hMain).symm
  | cons data rest =>
      rw [hServe, distribute, if_neg (by simp)] at hMain
      exact (Option.some.inj hMain).symm

/- Equal cores are not compared. -/
theorem favoured_of_equal
    {cpudata : List CpuData}
    (writes : List AffinityWrite)
    (hEqual :
      ∀ u ∈ onlineUtils cpudata,
        ∀ v ∈ onlineUtils cpudata, u = v) :
    LessLoadedFavoured cpudata writes := by
  intro data hData hOnline data' hData' hOnline' hLt
  have hSame :=
    hEqual _ (mem_onlineUtils.mpr ⟨data, hData, hOnline, rfl⟩)
      _ (mem_onlineUtils.mpr ⟨data', hData', hOnline', rfl⟩)
  have hBelow : data'.util < data.util :=
    UInt64.lt_iff_toNat_lt.mp hLt
  omega

section Conditions

variable {cpudata served : List CpuData}
variable {irqsNum : Nat}
variable {writes : List AffinityWrite}

/- The parts of the online cores are not negative. -/
theorem Served.part_nonneg
    (hServed : Served cpudata irqsNum writes served) :
    ∀ u ∈ onlineUtils cpudata,
      0 ≤ freePart Real.sqrt u := by
  intro u hu
  rw [← hServed.utils] at hu
  rcases List.mem_map.mp hu with ⟨data, hData, hSame⟩
  rw [← hSame]
  exact (hServed.graded.unit data hData).1

theorem onlineUtils_falling
    (cpudata : List CpuData) :
    (onlineUtils cpudata).Pairwise (fun u v => v ≤ u) :=
  List.pairwise_insertionSort _ _

theorem getLast_onlineUtils
    (hSome : onlineUtils cpudata ≠ []) :
    (onlineUtils cpudata).getLast hSome =
      (onlineUtils cpudata).getLastD 0 := by
  rw [List.getLastD_eq_getLast?,
    List.getLast?_eq_some_getLast hSome]
  rfl

/- Even shares are enough. -/
theorem Served.favoured_of_even
    (hServed : Served cpudata irqsNum writes served)
    (hEven :
      Apportion.EvenShares (freePart Real.sqrt)
        (onlineUtils cpudata) irqsNum) :
    LessLoadedFavoured cpudata writes :=
  hServed.favoured_iff.mpr
    (hEven.fairTurns hServed.part_nonneg
      (Int.natCast_nonneg irqsNum))

/- Even parts are needed. -/
theorem Served.partsEven
    (hServed : Served cpudata irqsNum writes served)
    (hSome : 0 < irqsNum)
    (hFavoured : LessLoadedFavoured cpudata writes) :
    PartsEven cpudata := by
  have hFair := hServed.favoured_iff.mp hFavoured
  exact hFair.atMostEven getLast_onlineUtils
    (onlineUtils_falling cpudata) (by exact_mod_cast hSome)

/- Of two cores the shares are even or the loads are equal. -/
theorem Served.evenlyServed_of_two
    (hServed : Served cpudata irqsNum writes served)
    (hFew : MasksFit cpudata)
    (hTwo : (onlineUtils cpudata).length ≤ 2)
    (hFavoured : LessLoadedFavoured cpudata writes) :
    EvenlyServed cpudata irqsNum := by
  have hFair := hServed.favoured_iff.mp hFavoured
  have hFalling := onlineUtils_falling cpudata
  unfold FairBalance at hFair
  unfold EvenlyServed
  generalize onlineUtils cpudata = utils
    at hTwo hFair hFalling ⊢
  match utils with
  | [] =>
      exact Or.inr (Or.inl (by simp))
  | [u] =>
      exact Or.inr (Or.inl (by simp))
  | [u, v] =>
      rcases (List.rel_of_pairwise_cons hFalling
          (List.mem_singleton_self v)).eq_or_lt with
        hSame | hAbove
      · exact Or.inr (Or.inl (by simp [hSame]))
      · exact Or.inr (Or.inr ⟨hFew,
          (Apportion.evenShares_pair_iff hAbove).mpr hFair⟩)
  | _ :: _ :: _ :: _ =>
      simp at hTwo

end Conditions

/-
  For all cores with percentages as utilizations and all
  interrupts, the less loaded online cores are favoured if no
  core is given more than an equal part.  They are so only if
  every busier core's part is at most an equal one; of two
  cores, exactly under the condition.
-/
theorem less_loaded_favoured
    {cpudata : List CpuData}
    (hCores : (cpudata.map CpuData.core).Nodup)
    (hUtil :
      ∀ data ∈ cpudata, data.online = true →
        data.cpuUtil ≤ 100)
    (irqs : List Int) :
    ∃ writes,
      irqbalanceMain Real.sqrt cpudata irqs = some writes ∧
      (EvenlyServed cpudata irqs.length →
        LessLoadedFavoured cpudata writes) ∧
      (MasksFit cpudata → LessLoadedFavoured cpudata writes →
        (irqs ≠ [] → PartsEven cpudata) ∧
          ((onlineUtils cpudata).length ≤ 2 →
            EvenlyServed cpudata irqs.length)) := by
  rcases BubbleSort.sort_perm CpuData.cpuUtil
      (le_refl cpudata.length) with
    ⟨sorted, hSort, hPerm⟩
  rcases irqbalanceMain_deal unitRoot_sqrt hUtil irqs hSort
      hPerm with
    ⟨writes, hMain, _⟩
  have hServe :
      MasksFit cpudata →
        ∃ served,
          Served cpudata irqs.length writes served := by
    intro hFew
    rcases irqbalanceMain_served hCores hFew hUtil irqs with
      ⟨writes', served, hMain', hServed⟩
    rw [hMain, Option.some.injEq] at hMain'
    exact ⟨served, hMain' ▸ hServed⟩
  refine ⟨writes, hMain, ?_, ?_⟩
  · intro hEven
    rcases hEven with hNone | hEqual | ⟨hFew, hShares⟩
    · rw [List.length_eq_zero_iff.mp hNone] at hMain
      rw [irqbalanceMain_nil hMain]
      intro data _ _ data' _ _ _
      exact le_refl _
    · exact favoured_of_equal writes hEqual
    · rcases hServe hFew with ⟨served, hServed⟩
      exact hServed.favoured_of_even hShares
  · intro hFew hFavoured
    rcases hServe hFew with ⟨served, hServed⟩
    constructor
    · intro hSome
      exact hServed.partsEven
        (List.length_pos_of_ne_nil hSome) hFavoured
    · intro hTwo
      exact hServed.evenlyServed_of_two hFew hTwo hFavoured

/-
  For the cores that `main` manages, after any passes of the
  watchdog, the turns of the loop decide.
-/
theorem less_loaded_in_runs
    {stat : Option (List Char)}
    {offsCpus : Int}
    {nrCpus : Nat}
    {cpudata : List CpuData}
    (hInit :
      initCpudata stat offsCpus nrCpus = some cpudata)
    (hFirst : 0 ≤ offsCpus)
    (hFew : offsCpus + nrCpus ≤ 32)
    (stats : List (Option (List Char)))
    (hUtil :
      ∀ data ∈ afterPasses offsCpus stats cpudata,
        data.online = true → data.cpuUtil ≤ 100)
    (irqs : List Int) :
    ∃ writes,
      irqbalanceMain Real.sqrt
          (afterPasses offsCpus stats cpudata) irqs =
        some writes ∧
      (LessLoadedFavoured
          (afterPasses offsCpus stats cpudata) writes ↔
        FairBalance (afterPasses offsCpus stats cpudata)
          irqs.length) := by
  have hNodup := cores_nodup hInit (by omega) stats
  have hMasks :
      MasksFit (afterPasses offsCpus stats cpudata) := by
    intro data hData _
    exact cores_lt hInit hFirst hFew stats data hData
  rcases irqbalanceMain_served hNodup hMasks hUtil irqs with
    ⟨writes, served, hMain, hServed⟩
  exact ⟨writes, hMain, hServed.favoured_iff⟩

/- An online core with a number and a utilization. -/
def onlineCore
    (core : UInt8)
    (cpuUtil : UInt64) : CpuData :=
  { CpuData.zero with
    core := core
    online := true
    cpuUtil := cpuUtil }

def tenIrqs : List Int :=
  [52, 53, 54, 55, 56, 57, 58, 59, 60, 61]

/- A core with a quarter of load next to an idle one. -/
theorem less_loaded_quarter :
    ∃ writes,
      irqbalanceMain Real.sqrt
          [onlineCore 0 0, onlineCore 1 25] tenIrqs =
        some writes ∧
      LessLoadedFavoured [onlineCore 0 0, onlineCore 1 25]
        writes := by
  have hCores :
      ([onlineCore 0 0, onlineCore 1 25].map
        CpuData.core).Nodup := by
    decide
  have hUtil :
      ∀ data ∈ [onlineCore 0 0, onlineCore 1 25],
        data.online = true → data.cpuUtil ≤ 100 := by
    decide
  rcases less_loaded_favoured hCores hUtil tenIrqs with
    ⟨writes, hMain, hEnough, _⟩
  refine ⟨writes, hMain, hEnough ?_⟩
  have hUtils :
      onlineUtils [onlineCore 0 0, onlineCore 1 25] =
        [25, 0] := by
    decide
  have hPart : freePart Real.sqrt 25 = 1 - 1 / 2 :=
    freePart_of_square (by norm_num) (by norm_num)
  refine Or.inr (Or.inr
    ⟨by unfold MasksFit; decide, ?_⟩)
  rw [hUtils]
  refine ⟨?_, ?_, trivial⟩
  · intro _
    rw [hPart]
    norm_num [tenIrqs]
  · intro hSome
    exact absurd rfl hSome

/- A nearly idle core gets nine of ten interrupts. -/
theorem less_loaded_near_idle :
    ∃ writes,
      irqbalanceMain Real.sqrt
          [onlineCore 0 0, onlineCore 1 1] tenIrqs =
        some writes ∧
      assigned writes (onlineCore 1 1) = 9 ∧
      assigned writes (onlineCore 0 0) = 1 ∧
      ¬ LessLoadedFavoured [onlineCore 0 0, onlineCore 1 1]
        writes := by
  have hUtil :
      ∀ data ∈ [onlineCore 0 0, onlineCore 1 1],
        data.online = true → data.cpuUtil ≤ 100 := by
    decide
  have hPart : freePart Real.sqrt 1 = 1 - 1 / 10 :=
    freePart_of_square (by norm_num) (by norm_num)
  have hShare :
      Apportion.share (freePart Real.sqrt 1) 10 1 = 9 := by
    rw [hPart, Apportion.share, if_neg (by decide),
      Int.ceil_eq_iff]
    norm_num
  rcases irqbalanceMain_deal unitRoot_sqrt hUtil tenIrqs rfl
      (List.Perm.refl _) with
    ⟨writes, hMain, hTexts⟩
  have hDealt :
      writes.map AffinityWrite.text =
        List.replicate 9 (coreMask (onlineCore 1 1)) ++
          List.replicate 1 (coreMask (onlineCore 0 0)) := by
    rw [← @writtenMask_eq (onlineCore 1 1) (by decide),
      ← @writtenMask_eq (onlineCore 0 0) (by decide)]
    rw [hTexts]
    change dealtTexts
      [(onlineCore 1 1,
          Apportion.share (freePart Real.sqrt 1) 10 1),
        (onlineCore 0 0,
          10 - Apportion.share (freePart Real.sqrt 1) 10 1)] =
      _
    rw [hShare]
    rfl
  have hApart :
      coreMask (onlineCore 1 1) ≠
        coreMask (onlineCore 0 0) := by
    rw [Ne, coreMask_inj]
    decide
  have hBusy : assigned writes (onlineCore 1 1) = 9 := by
    rw [assigned_eq, hDealt, List.count_append,
      List.count_replicate_self, List.count_replicate]
    simp [hApart.symm]
  have hIdle : assigned writes (onlineCore 0 0) = 1 := by
    rw [assigned_eq, hDealt, List.count_append,
      List.count_replicate_self, List.count_replicate]
    simp [hApart]
  refine ⟨writes, hMain, hBusy, hIdle, ?_⟩
  intro hFavoured
  have hLe := hFavoured (onlineCore 1 1) (by simp) rfl
    (onlineCore 0 0) (by simp) rfl (by decide)
  omega

end Irqbalance

end Universal7420
