import Universal7420.Irqbalance.Watchdog

/-
  The streams that the watchdog leaves open.

  Every core of a pass opens `/proc/stat`.  The reader closes
  the stream only after a whole line, so that a pass that ends
  at a core without a line keeps one.  `irqbalance_main` closes
  every file that it opens.

  Main declarations:
    * `Universal7420.Irqbalance.streamSystem`
    * `Universal7420.Irqbalance.ListsCores`
    * `Universal7420.Irqbalance.openStreams_eq`
    * `Universal7420.Irqbalance.streams_kept_iff`
-/

------------------------------------------------------------
-- Streams As State
------------------------------------------------------------

namespace Universal7420

namespace Irqbalance

/- The records and the number of open streams. -/
structure DaemonState where
  openStreams : Nat
  cpudata : List CpuData

/- `fopen("/proc/stat", "r")` with a limit of descriptors -/
def openStat
    (limit openStreams : Nat)
    (text : List Char) : Option (List Char) :=
  if openStreams < limit then some text else none

/- The loop of the watchdog with the streams it finds open. -/
def streamsFrom
    (limit : Nat)
    (text : List Char)
    (offsCpus : Int) :
    Nat → Nat → List CpuData → DaemonState
| _, openStreams, [] => ⟨openStreams, []⟩
| i, openStreams, old :: rest =>
    let read := readCpudata (openStat limit openStreams text)
      offsCpus old i
    let openStreams := openStreams + read.leftOpen
    if read.ret ≠ 0 then
      ⟨openStreams, read.data :: rest⟩
    else
      let later := streamsFrom limit text offsCpus (i + 1)
        openStreams rest
      ⟨later.openStreams,
        { read.data with
          cpuUtil := cpuUtil old read.data } ::
            later.cpudata⟩

/- The daemon over the passes of the watchdog. -/
def streamSystem
    (limit : Nat)
    (offsCpus : Int)
    (s₀ : DaemonState) :
    EventSystem DaemonState ProcStat where
  init := s₀
  step := fun s stat =>
    some (streamsFrom limit stat.text offsCpus 0
      s.openStreams s.cpudata)

/- A reader keeps a stream exactly when it finds no line. -/
theorem leftOpen_eq_zero_of_ret
    {stat : Option (List Char)}
    {offsCpus : Int}
    {data : CpuData}
    {core : Nat}
    (hRet : (readCpudata stat offsCpus data core).ret = 0) :
    (readCpudata stat offsCpus data core).leftOpen = 0 := by
  cases stat with
  | none =>
      rfl
  | some text =>
      simp only [readCpudata] at hRet ⊢
      split at hRet
      · cases hRet
      · rename_i hScanned
        rw [if_neg hScanned]

theorem leftOpen_eq_one_of_ret
    {text : List Char}
    {offsCpus : Int}
    {data : CpuData}
    {core : Nat}
    (hRet :
      (readCpudata (some text) offsCpus data core).ret =
        -22) :
    (readCpudata (some text) offsCpus data core).leftOpen =
      1 := by
  simp only [readCpudata] at hRet ⊢
  split at hRet
  · rename_i hScanned
    rw [if_pos hScanned]
  · cases hRet

/- The streams of a pass are those that the watchdog reports. -/
theorem streamsFrom_eq
    (limit : Nat)
    (text : List Char)
    (offsCpus : Int)
    (i openStreams : Nat)
    (cpudata : List CpuData) :
    streamsFrom limit text offsCpus i openStreams cpudata =
      ⟨openStreams +
          (watchdogFrom (openStat limit openStreams text)
            offsCpus i cpudata).2,
        (watchdogFrom (openStat limit openStreams text)
          offsCpus i cpudata).1⟩ := by
  induction cpudata generalizing i with
  | nil =>
      rfl
  | cons old rest ih =>
      rw [streamsFrom, watchdogFrom]
      dsimp only
      split
      · rfl
      · rename_i hRead
        have hRet := not_not.mp hRead
        simp only [leftOpen_eq_zero_of_ret hRet,
          Nat.add_zero, ih, Nat.zero_add]

end Irqbalance

end Universal7420

------------------------------------------------------------
-- One Pass
------------------------------------------------------------

namespace Universal7420

namespace Irqbalance

/- The file has a line at the count of every managed core. -/
def ListsCores
    (offsCpus : Int)
    (nrCpus : Nat)
    (stat : ProcStat) : Prop :=
  nrCpus = 0 ∨
    (0 ≤ offsCpus ∧ offsCpus + nrCpus ≤ stat.cpus.length)

instance
    (offsCpus : Int)
    (nrCpus : Nat)
    (stat : ProcStat) :
    Decidable (ListsCores offsCpus nrCpus stat) :=
  inferInstanceAs (Decidable (_ ∨ _))

theorem listsCores_succ_iff
    {offsCpus : Int}
    {nrCpus : Nat}
    {stat : ProcStat} :
    ListsCores offsCpus (nrCpus + 1) stat ↔
      (stat.counted offsCpus).isSome = true ∧
        ListsCores (offsCpus + 1) nrCpus stat := by
  unfold ListsCores ProcStat.counted
  by_cases hNonneg : 0 ≤ offsCpus
  · have hInside :
        (stat.cpus[offsCpus.toNat]?).isSome = true ↔
          offsCpus.toNat < stat.cpus.length := by
      simp
    rw [if_pos hNonneg, hInside]
    omega
  · simp [hNonneg]

/- A stream stays open if some managed core has no line. -/
theorem watchdogFrom_leftOpen
    (stat : ProcStat)
    (offsCpus : Int)
    (start : Nat)
    (cpudata : List CpuData) :
    (watchdogFrom (some stat.text) offsCpus start
        cpudata).2 =
      if ListsCores (start + offsCpus) cpudata.length stat
      then 0 else 1 := by
  induction cpudata generalizing start with
  | nil =>
      simp [watchdogFrom, ListsCores]
  | cons old rest ih =>
      have hShift :
          (start : Int) + offsCpus + 1 =
            (start + 1 : Nat) + offsCpus := by
        omega
      simp only [List.length_cons, listsCores_succ_iff,
        hShift]
      rw [watchdogFrom]
      cases hLine : stat.counted (start + offsCpus) with
      | some line =>
          simp only [readCpudata_of_line hLine, ne_eq,
            not_true_eq_false, if_false, ih, Nat.zero_add,
            Option.isSome_some, true_and]
      | none =>
          have hRet := (readCpudata_of_no_line hLine old).1
          simp [hRet, leftOpen_eq_one_of_ret hRet]

/- Without a descriptor nothing is opened. -/
theorem watchdogFrom_none_leftOpen
    (offsCpus : Int)
    (start : Nat)
    (cpudata : List CpuData) :
    (watchdogFrom none offsCpus start cpudata).2 = 0 := by
  cases cpudata with
  | nil =>
      rfl
  | cons old rest =>
      rfl

end Irqbalance

end Universal7420

------------------------------------------------------------
-- All Passes
------------------------------------------------------------

namespace Universal7420

namespace Irqbalance

variable {limit : Nat}
variable {offsCpus : Int}
variable {s₀ : DaemonState}

/- A pass keeps a stream if the file misses a core. -/
theorem streamSystem_step
    {s s' : DaemonState}
    {stat : ProcStat}
    (hLimit : s.openStreams ≤ limit)
    (hStep :
      (streamSystem limit offsCpus s₀).step s stat =
        some s') :
    s'.cpudata.length = s.cpudata.length ∧
      s'.openStreams =
        if ListsCores offsCpus s.cpudata.length stat then
          s.openStreams
        else
          min limit (s.openStreams + 1) := by
  cases hStep
  rw [streamsFrom_eq]
  refine ⟨watchdogFrom_length _ _ _ _, ?_⟩
  by_cases hFree : s.openStreams < limit
  · have hOpen :
        openStat limit s.openStreams stat.text =
          some stat.text := by
      simp [openStat, hFree]
    have hLeft :=
      watchdogFrom_leftOpen stat offsCpus 0 s.cpudata
    simp only [Nat.cast_zero, zero_add] at hLeft
    simp only [hOpen, hLeft]
    split
    · rfl
    · omega
  · have hOpen :
        openStat limit s.openStreams stat.text = none := by
      simp [openStat, hFree]
    simp only [hOpen, watchdogFrom_none_leftOpen]
    split
    · rfl
    · omega

/-
  After any passes there is one more open stream for each file
  that missed a core, until no descriptor is left.
-/
theorem openStreams_eq
    (hLimit : s₀.openStreams ≤ limit)
    {stats : List ProcStat}
    {s : DaemonState}
    (hRun :
      (streamSystem limit offsCpus s₀).run stats = some s) :
    s.openStreams =
      min limit (s₀.openStreams +
        stats.countP (fun stat =>
          ¬ ListsCores offsCpus s₀.cpudata.length stat)) := by
  let sys := streamSystem limit offsCpus s₀
  have hGeneral :
      ∀ (stats : List ProcStat) (t : DaemonState),
        t.openStreams ≤ limit →
        t.cpudata.length = s₀.cpudata.length →
        sys.runFrom t stats = some s →
        s.openStreams =
          min limit (t.openStreams +
            stats.countP (fun stat =>
              ¬ ListsCores offsCpus s₀.cpudata.length
                stat)) := by
    intro stats
    induction stats with
    | nil =>
        intro t hBound _ hRest
        cases hRest
        simp [hBound]
    | cons stat stats ih =>
        intro t hBound hLength hRest
        rcases sys.runFrom_cons_eq_some_iff.mp hRest with
          ⟨t', hStep, hLater⟩
        rcases streamSystem_step hBound hStep with
          ⟨hSame, hOpen⟩
        rw [hLength] at hSame hOpen
        have hBound' : t'.openStreams ≤ limit := by
          rw [hOpen]
          split
          · exact hBound
          · exact Nat.min_le_left _ _
        rw [ih t' hBound' hSame hLater, hOpen]
        by_cases hLists :
            ListsCores offsCpus s₀.cpudata.length stat
        · simp [hLists]
        · simp only [hLists, if_false, not_false_eq_true,
            decide_true, List.countP_cons_of_pos]
          omega
  exact hGeneral stats s₀ hLimit rfl hRun

/-
  Every pass of a run leaves the open streams as it found
  them, with a descriptor to spare, if and only if every file
  lists the managed cores.
-/
theorem streams_kept_iff
    (hFree : s₀.openStreams < limit)
    (stats : List ProcStat) :
    (∀ pre s, pre <+: stats →
        (streamSystem limit offsCpus s₀).run pre = some s →
        s.openStreams = s₀.openStreams ∧
          s.openStreams < limit) ↔
      ∀ stat ∈ stats,
        ListsCores offsCpus s₀.cpudata.length stat := by
  let sys := streamSystem limit offsCpus s₀
  have hLimit : s₀.openStreams ≤ limit := by
    omega
  constructor
  · intro hKept
    rcases sys.exists_runFrom_of_total
      (fun s stat => ⟨_, rfl⟩) s₀ stats with ⟨s, hRun⟩
    have hSame := (hKept stats s List.prefix_rfl hRun).1
    have hCount := openStreams_eq hLimit hRun
    have hZero :
        stats.countP (fun stat =>
          ¬ ListsCores offsCpus s₀.cpudata.length stat) =
            0 := by
      omega
    intro stat hMem
    simpa using List.countP_eq_zero.mp hZero stat hMem
  · intro hLists pre s hPrefix hRun
    have hZero :
        pre.countP (fun stat =>
          ¬ ListsCores offsCpus s₀.cpudata.length stat) =
            0 := by
      apply List.countP_eq_zero.mpr
      intro stat hMem
      simpa using hLists stat (hPrefix.subset hMem)
    have hCount := openStreams_eq hLimit hRun
    rw [hZero] at hCount
    omega

/- Two managed cores, and the standard streams are open. -/
def twoCoreDaemon : DaemonState where
  openStreams := 3
  cpudata := twoRecords

theorem streams_kept_laterOnline :
    twoCoreDaemon.openStreams < 1024 ∧
      ListsCores 0 twoCoreDaemon.cpudata.length laterOnline ∧
      ∀ pre s, pre <+: [laterOnline, oneGone] →
        (streamSystem 1024 0 twoCoreDaemon).run pre =
          some s →
        s.openStreams = 3 ∧ s.openStreams < 1024 := by
  have hFree : twoCoreDaemon.openStreams < 1024 := by
    decide
  have hLists :
      ∀ stat ∈ [laterOnline, oneGone],
        ListsCores 0 twoCoreDaemon.cpudata.length stat := by
    decide
  refine ⟨hFree, by decide, ?_⟩
  exact (streams_kept_iff hFree _).mpr hLists

/- Only CPU 0 is left, and its counters move. -/
def oneLeft (pass : Nat) : ProcStat where
  sums := fun _ => UInt64.ofNat (pass + 4)
  cpus := [flatLine 0 (UInt64.ofNat (pass + 2))]
  increasing := by simp
  others := []

/-
  While CPU 1 is offline each pass keeps a stream, until the
  file cannot be opened any more.
-/
theorem descriptors_exhausted :
    (∃ s,
      (streamSystem 1024 0 twoCoreDaemon).run [oneLeft 0] =
        some s ∧
      s.openStreams = 4) ∧
    ∃ s,
      (streamSystem 1024 0 twoCoreDaemon).run
        ((List.range 1021).map oneLeft) = some s ∧
      openStat 1024 s.openStreams (oneLeft 1021).text =
        none := by
  let sys := streamSystem 1024 0 twoCoreDaemon
  have hLimit : twoCoreDaemon.openStreams ≤ 1024 := by
    decide
  have hMissing :
      ∀ pass,
        ¬ ListsCores 0 twoCoreDaemon.cpudata.length
          (oneLeft pass) := by
    intro pass
    simp [ListsCores, oneLeft, twoCoreDaemon, twoRecords]
  have hPasses :
      ∀ n, ∃ s,
        sys.run ((List.range n).map oneLeft) = some s ∧
        s.openStreams = min 1024 (3 + n) := by
    intro n
    rcases sys.exists_runFrom_of_total
      (fun s stat => ⟨_, rfl⟩) twoCoreDaemon
        ((List.range n).map oneLeft) with ⟨s, hRun⟩
    have hCount := openStreams_eq hLimit hRun
    have hAll :
        ((List.range n).map oneLeft).countP (fun stat =>
          ¬ ListsCores 0 twoCoreDaemon.cpudata.length stat) =
            n := by
      rw [List.countP_eq_length.mpr]
      · simp
      · intro stat hMem
        rcases List.mem_map.mp hMem with ⟨pass, _, rfl⟩
        simpa using hMissing pass
    rw [hAll] at hCount
    exact ⟨s, hRun, hCount⟩
  constructor
  · exact hPasses 1
  · rcases hPasses 1021 with ⟨s, hRun, hCount⟩
    refine ⟨s, hRun, ?_⟩
    rw [hCount]
    rfl

end Irqbalance

end Universal7420
