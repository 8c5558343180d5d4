import Universal7420.Power.NodeFrame

/-
  Scripts of the power service, one statement at a time.

  Several threads may execute scripts on the same nodes.  What
  a script finally sets a node to depends on the governors of
  the CPUs, which it may name itself: a file of a governor is
  only written after the governor has been read back.  For a
  script that keeps to this order, each statement does the same
  in every thread that executes it.

  Main declarations:
    * `Universal7420.Utils.lastSetting`
    * `Universal7420.Utils.opStep`
    * `Universal7420.Utils.Prepared`
    * `Universal7420.Utils.WellOrdered`
    * `Universal7420.Power.profileOps_wellOrdered`
-/

------------------------------------------------------------
-- Settings
------------------------------------------------------------

namespace Universal7420

namespace Utils

def governorNode (core : Nat) : String :=
  cpuPath core "cpufreq/scaling_governor"

def firstLine (text : String) : String :=
  String.ofList (text.toList.takeWhile (· ≠ '\n'))

/- The governor of a CPU according to its node. -/
def governorOf
    (w : World)
    (core : Nat) : String :=
  firstLine (w.content (governorNode core))

/- A file of the governor of a CPU. -/
def governorFile
    (governor : Nat → String)
    (core : Nat)
    (file : String) : String :=
  cpuPath core ("cpufreq/" ++ governor core ++ "/" ++ file)

/- What a statement sets a node to under some governors. -/
def SysfsOp.setting
    (governor : Nat → String)
    (path : String) :
    SysfsOp → Option String
| .write p d => if p = path then some d.text else none
| .writeCpuGov core file d =>
    if core < nrCpus ∧
        governorFile governor core file = path then
      some d.text
    else
      none
| .updateCpuGov _ | .governorOverrun => none

/- What a script finally sets a node to. -/
def lastSetting
    (governor : Nat → String)
    (path : String) :
    List SysfsOp → Option String
| [] => none
| op :: ops =>
    (lastSetting governor path ops).or
      (op.setting governor path)

variable {governor : Nat → String}
variable {path text : String}

/- The rest of a script has the last word. -/
theorem lastSetting_of_suffix
    {rest ops : List SysfsOp}
    (hSuffix : rest <:+ ops)
    (hRest : lastSetting governor path rest = some text) :
    lastSetting governor path ops = some text := by
  rcases hSuffix with ⟨done, rfl⟩
  induction done with
  | nil =>
      exact hRest
  | cons op done ih =>
      rw [List.cons_append, lastSetting, ih]
      rfl

theorem exists_setting_of_lastSetting
    {ops : List SysfsOp}
    (hLast : lastSetting governor path ops = some text) :
    ∃ op ∈ ops, op.setting governor path = some text := by
  induction ops with
  | nil =>
      cases hLast
  | cons op ops ih =>
      rw [lastSetting] at hLast
      cases hRest : lastSetting governor path ops with
      | none =>
          rw [hRest, Option.none_or] at hLast
          exact ⟨op, by simp, hLast⟩
      | some later =>
          rw [hRest, Option.some_or] at hLast
          cases hLast
          rcases ih hRest with ⟨other, hMem, hSetting⟩
          exact ⟨other, List.mem_cons_of_mem _ hMem, hSetting⟩

theorem lastSetting_isSome
    {ops : List SysfsOp}
    {op : SysfsOp}
    (hMem : op ∈ ops)
    (hSetting : op.setting governor path = some text) :
    (lastSetting governor path ops).isSome = true := by
  induction ops with
  | nil =>
      cases hMem
  | cons first ops ih =>
      rw [lastSetting, Option.isSome_or]
      rcases List.mem_cons.mp hMem with hFirst | hRest
      · rw [← hFirst, hSetting, Option.isSome_some,
          Bool.or_true]
      · rw [ih hRest, Bool.true_or]

end Utils

end Universal7420

------------------------------------------------------------
-- Paths
------------------------------------------------------------

namespace Universal7420

namespace Utils

theorem slash_not_mem_toString
    (n : Nat) :
    '/' ∉ (toString n).toList := by
  intro hMem
  have hDigits : (toString n).toList = Nat.toDigits 10 n := by
    simp
  rw [hDigits] at hMem
  have hDigit :=
    Nat.isDigit_of_mem_toDigits (by decide) (by decide) hMem
  exact absurd hDigit (by decide)

/- The number of slashes in a path below a CPU. -/
theorem count_cpuPath
    (core : Nat)
    (file : String) :
    (cpuPath core file).toList.count '/' =
      6 + file.toList.count '/' := by
  have hDigits := List.count_eq_zero_of_not_mem
    (slash_not_mem_toString core)
  unfold cpuPath
  simp only [String.toList_append, List.count_append, hDigits]
  have hStart :
      "/sys/devices/system/cpu/cpu".toList.count '/' = 5 := by
    decide
  have hSlash : "/".toList.count '/' = 1 := by
    decide
  omega

/- A file of a governor lies deeper than its node. -/
theorem governorFile_ne
    (governor : Nat → String)
    (core other : Nat)
    (file : String) :
    governorFile governor core file ≠ governorNode other := by
  intro hSame
  have hCount := congrArg
    (fun path : String => path.toList.count '/') hSame
  simp only [governorFile, governorNode, count_cpuPath,
    String.toList_append, List.count_append] at hCount
  have hDir : "cpufreq/".toList.count '/' = 1 := by
    decide
  have hSlash : "/".toList.count '/' = 1 := by
    decide
  have hNode :
      "cpufreq/scaling_governor".toList.count '/' = 1 := by
    decide
  omega

theorem toString_inj
    {m n : Nat}
    (hSame : (toString m).toList = (toString n).toList) :
    m = n := by
  have hDigits : Nat.toDigits 10 m = Nat.toDigits 10 n := by
    simpa using hSame
  calc
    m = Nat.ofDigitChars 10 (Nat.toDigits 10 m) 0 :=
      Nat.ofDigitChars_ten_toDigits.symm
    _ = Nat.ofDigitChars 10 (Nat.toDigits 10 n) 0 := by
      rw [hDigits]
    _ = n := Nat.ofDigitChars_ten_toDigits

/- The first slash splits a path in one way. -/
theorem split_at_slash
    {start other rest later : List Char}
    (hStart : '/' ∉ start)
    (hOther : '/' ∉ other)
    (hSame : start ++ '/' :: rest = other ++ '/' :: later) :
    start = other ∧ rest = later := by
  induction start generalizing other with
  | nil =>
      cases other with
      | nil =>
          exact ⟨rfl, List.tail_eq_of_cons_eq hSame⟩
      | cons c other =>
          have hHead := List.head_eq_of_cons_eq hSame
          exact absurd (by simp [← hHead]) hOther
  | cons c start ih =>
      cases other with
      | nil =>
          have hHead := List.head_eq_of_cons_eq hSame
          exact absurd (by simp [hHead]) hStart
      | cons d other =>
          have hHead := List.head_eq_of_cons_eq hSame
          have hTail := List.tail_eq_of_cons_eq hSame
          rw [List.mem_cons, not_or] at hStart hOther
          rcases ih hStart.2 hOther.2 hTail with
            ⟨hStarts, hRests⟩
          exact ⟨by rw [hHead, hStarts], hRests⟩

theorem cpuPath_toList
    (core : Nat)
    (file : String) :
    (cpuPath core file).toList =
      "/sys/devices/system/cpu/cpu".toList ++
        ((toString core).toList ++ '/' :: file.toList) := by
  unfold cpuPath
  rw [String.toList_append, String.toList_append,
    String.toList_append, List.append_assoc,
    List.append_assoc]
  rfl

/- A path below a CPU tells the CPU and the file. -/
theorem cpuPath_inj
    {core other : Nat}
    {file otherFile : String}
    (hSame : cpuPath core file = cpuPath other otherFile) :
    core = other ∧ file = otherFile := by
  have hLists := congrArg String.toList hSame
  rw [cpuPath_toList, cpuPath_toList] at hLists
  have hTails := List.append_cancel_left hLists
  rcases split_at_slash (slash_not_mem_toString core)
      (slash_not_mem_toString other) hTails with
    ⟨hCore, hFile⟩
  exact ⟨toString_inj hCore, String.toList_inj.mp hFile⟩

end Utils

end Universal7420

------------------------------------------------------------
-- Single Statements
------------------------------------------------------------

namespace Universal7420

namespace Utils

/- The nodes after an access that has not failed. -/
def succeeded (result : Bool × Sysfs) : Option Sysfs :=
  if result.1 then some result.2 else none

/-
  One statement, where every read and every write succeeds.
-/
def opStep
    (sys : Sysfs) :
    SysfsOp → Option Sysfs
| .write path d => succeeded (write path d sys)
| .updateCpuGov core => succeeded (updateCpuGov core sys)
| .writeCpuGov core file d =>
    succeeded (writeCpuGov core file d sys)
| .governorOverrun => none

theorem succeeded_eq_some
    {result : Bool × Sysfs}
    {sys : Sysfs}
    (hResult : succeeded result = some sys) :
    result = (true, sys) := by
  unfold succeeded at hResult
  split at hResult
  · rename_i hTrue
    cases hResult
    exact Prod.ext hTrue rfl
  · cases hResult

/- A script makes the same step. -/
theorem runOps_of_opStep
    {sys sys' : Sysfs}
    {op : SysfsOp}
    (hStep : opStep sys op = some sys')
    (ops : List SysfsOp) :
    runOps (op :: ops) sys = runOps ops sys' := by
  cases op with
  | write path d =>
      have hResult := succeeded_eq_some hStep
      rw [runOps, hResult]
  | updateCpuGov core =>
      have hResult := succeeded_eq_some hStep
      rw [runOps, hResult]
  | writeCpuGov core file d =>
      have hResult := succeeded_eq_some hStep
      rw [runOps, hResult]
  | governorOverrun =>
      cases hStep

theorem write_eq_true
    {path : String}
    {d : Datum}
    {sys sys' : Sysfs}
    (hWrite : write path d sys = (true, sys')) :
    sys' =
      { sys with
        world := { sys.world with
          content :=
            Function.update sys.world.content path
              d.text } } := by
  unfold write at hWrite
  split at hWrite
  · cases hWrite
    rfl
  · cases hWrite

/- A statement sets its node and no other one. -/
theorem opStep_content
    {governor : Nat → String}
    {sys sys' : Sysfs}
    {op : SysfsOp}
    (hStep : opStep sys op = some sys')
    (hKnown :
      ∀ core file d, op = .writeCpuGov core file d →
        sys.kCpuGovernors core = governor core)
    (path : String) :
    sys'.world.content path =
      (op.setting governor path).getD
        (sys.world.content path) := by
  have hUpdate :
      ∀ (p : String) (d : Datum),
        Function.update sys.world.content p d.text path =
          (if p = path then some d.text else none).getD
            (sys.world.content path) := by
    intro p d
    by_cases hSame : p = path
    · rw [if_pos hSame, ← hSame]
      exact Function.update_self p _ _
    · rw [if_neg hSame]
      exact Function.update_of_ne (Ne.symm hSame) _ _
  cases op with
  | write p d =>
      rw [write_eq_true (succeeded_eq_some hStep)]
      exact hUpdate p d
  | updateCpuGov core =>
      have hWorld := updateCpuGov_world core sys
      rw [succeeded_eq_some hStep] at hWorld
      rw [← hWorld]
      rfl
  | writeCpuGov core file d =>
      have hResult := succeeded_eq_some hStep
      unfold writeCpuGov at hResult
      split at hResult
      · rename_i hCore
        simp only at hResult
        split at hResult
        · rw [write_eq_true hResult]
          simp only [SysfsOp.setting, hCore, true_and,
            governorFile, ← hKnown core file d rfl]
          exact hUpdate _ d
        · cases hResult
      · cases hResult
  | governorOverrun =>
      cases hStep

/- Governors are only read back from their nodes. -/
theorem opStep_governors
    {sys sys' : Sysfs}
    {op : SysfsOp}
    (hStep : opStep sys op = some sys')
    (core : Nat) :
    (op ≠ .updateCpuGov core ∧
        sys'.kCpuGovernors core = sys.kCpuGovernors core) ∨
      (op = .updateCpuGov core ∧
        sys'.kCpuGovernors core =
          governorOf sys.world core) := by
  cases op with
  | write p d =>
      rw [write_eq_true (succeeded_eq_some hStep)]
      exact Or.inl ⟨by simp, rfl⟩
  | updateCpuGov other =>
      have hResult := succeeded_eq_some hStep
      unfold updateCpuGov read at hResult
      split at hResult
      · split at hResult
        · cases hResult
        · rename_i line hRead
          split at hRead
          · cases hRead
            cases hResult
            by_cases hSame : other = core
            · right
              rw [hSame]
              exact ⟨rfl, Function.update_self core _ _⟩
            · left
              refine ⟨by simpa using hSame, ?_⟩
              exact Function.update_of_ne (Ne.symm hSame) _ _
          · cases hRead
      · cases hResult
  | writeCpuGov other file d =>
      have hResult := succeeded_eq_some hStep
      unfold writeCpuGov at hResult
      split at hResult
      · simp only at hResult
        split at hResult
        · rw [write_eq_true hResult]
          exact Or.inl ⟨by simp, rfl⟩
        · cases hResult
      · cases hResult
  | governorOverrun =>
      cases hStep

end Utils

end Universal7420

------------------------------------------------------------
-- Scripts In Order
------------------------------------------------------------

namespace Universal7420

namespace Utils

/-
  A governor is read back when its node is settled, and its
  files are written when it is known.
-/
def Prepared :
    (Nat → Prop) → (Nat → Prop) → List SysfsOp → Prop
| _, _, [] => True
| settled, known, .write path _ :: ops =>
    Prepared
      (fun core => settled core ∨ path = governorNode core)
      known ops
| settled, known, .updateCpuGov core :: ops =>
    settled core ∧
      Prepared settled (fun c => known c ∨ c = core) ops
| settled, known, .writeCpuGov core _ _ :: ops =>
    known core ∧ Prepared settled known ops
| settled, known, .governorOverrun :: ops =>
    Prepared settled known ops

variable {settled known : Nat → Prop}

theorem Prepared.mono
    {settled' known' : Nat → Prop}
    {ops : List SysfsOp}
    (hPrepared : Prepared settled known ops)
    (hSettled : ∀ core, settled core → settled' core)
    (hKnown : ∀ core, known core → known' core) :
    Prepared settled' known' ops := by
  induction ops generalizing settled settled' known known' with
  | nil =>
      trivial
  | cons op ops ih =>
      cases op with
      | write path d =>
          refine ih hPrepared ?_ hKnown
          intro core hCore
          exact hCore.imp_left (hSettled core)
      | updateCpuGov core =>
          refine ⟨hSettled core hPrepared.1, ?_⟩
          refine ih hPrepared.2 hSettled ?_
          intro other hOther
          exact hOther.imp_left (hKnown other)
      | writeCpuGov core file d =>
          exact ⟨hKnown core hPrepared.1,
            ih hPrepared.2 hSettled hKnown⟩
      | governorOverrun =>
          exact ih hPrepared hSettled hKnown

theorem Prepared.append
    {ops later : List SysfsOp}
    (hOps : Prepared settled known ops)
    (hLater : Prepared settled known later) :
    Prepared settled known (ops ++ later) := by
  induction ops generalizing settled known with
  | nil =>
      exact hLater
  | cons op ops ih =>
      cases op with
      | write path d =>
          refine ih hOps (hLater.mono ?_ fun _ => id)
          intro core hCore
          exact Or.inl hCore
      | updateCpuGov core =>
          refine ⟨hOps.1, ih hOps.2 ?_⟩
          refine hLater.mono (fun _ => id) ?_
          intro other hOther
          exact Or.inl hOther
      | writeCpuGov core file d =>
          exact ⟨hOps.1, ih hOps.2 hLater⟩
      | governorOverrun =>
          exact ih hOps hLater

/- A statement that needs no more than known governors. -/
def SysfsOp.Ready
    (known : Nat → Prop) :
    SysfsOp → Prop
| .write _ _ | .governorOverrun => True
| .writeCpuGov core _ _ => known core
| .updateCpuGov _ => False

theorem prepared_of_ready
    {ops : List SysfsOp}
    (hReady : ∀ op ∈ ops, op.Ready known) :
    Prepared settled known ops := by
  induction ops generalizing settled with
  | nil =>
      trivial
  | cons op ops ih =>
      have hRest : ∀ other ∈ ops, other.Ready known := by
        intro other hMem
        exact hReady other (List.mem_cons_of_mem _ hMem)
      cases op with
      | write path d =>
          exact ih hRest
      | updateCpuGov core =>
          exact absurd (hReady _ List.mem_cons_self) id
      | writeCpuGov core file d =>
          exact ⟨hReady _ List.mem_cons_self, ih hRest⟩
      | governorOverrun =>
          exact ih hRest

/- A governor is named, if at all, and then read back. -/
theorem prepared_readBack
    {core : Nat}
    {first ops : List SysfsOp}
    (hFirst :
      (first = [] ∧ settled core) ∨
        ∃ d, first = [.write (governorNode core) d])
    (hReady :
      ∀ op ∈ ops,
        op.Ready (fun other => known other ∨ other = core)) :
    Prepared settled known
      (first ++ .updateCpuGov core :: ops) := by
  rcases hFirst with ⟨rfl, hSettled⟩ | ⟨d, rfl⟩
  · exact ⟨hSettled, prepared_of_ready hReady⟩
  · exact ⟨Or.inr rfl, prepared_of_ready hReady⟩

/- The governor that a script names for a CPU. -/
def namedGovernor
    (ops : List SysfsOp)
    (core : Nat) : Option String :=
  lastSetting (fun _ => "") (governorNode core) ops

/- Only a write to the node sets it. -/
theorem setting_governorNode
    {governor : Nat → String}
    {core : Nat}
    {text : String}
    {op : SysfsOp}
    (hSetting :
      op.setting governor (governorNode core) = some text) :
    ∃ d, op = .write (governorNode core) d ∧
      d.text = text := by
  cases op with
  | write path d =>
      simp only [SysfsOp.setting] at hSetting
      split at hSetting
      · rename_i hPath
        cases hSetting
        exact ⟨d, by rw [hPath], rfl⟩
      · cases hSetting
  | updateCpuGov other =>
      cases hSetting
  | writeCpuGov other file d =>
      simp only [SysfsOp.setting] at hSetting
      split at hSetting
      · rename_i hFile
        exact absurd hFile.2 (governorFile_ne _ _ _ _)
      · cases hSetting
  | governorOverrun =>
      cases hSetting

theorem setting_write_self
    (governor : Nat → String)
    (path : String)
    (d : Datum) :
    (SysfsOp.write path d).setting governor path =
      some d.text :=
  if_pos rfl

/- What a script names does not depend on the governors. -/
theorem lastSetting_governorNode
    (governor : Nat → String)
    (ops : List SysfsOp)
    (core : Nat) :
    lastSetting governor (governorNode core) ops =
      namedGovernor ops core := by
  unfold namedGovernor
  induction ops with
  | nil =>
      rfl
  | cons op ops ih =>
      rw [lastSetting, lastSetting, ih]
      congr 1
      cases op with
      | writeCpuGov other file d =>
          simp [SysfsOp.setting, governorFile_ne]
      | _ =>
          rfl

/- A governor is named by some write of the script. -/
theorem exists_write_of_named
    {ops : List SysfsOp}
    {core : Nat}
    {text : String}
    (hNamed : namedGovernor ops core = some text) :
    ∃ d, .write (governorNode core) d ∈ ops ∧
      d.text = text := by
  rcases exists_setting_of_lastSetting hNamed with
    ⟨op, hMem, hSetting⟩
  rcases setting_governorNode hSetting with
    ⟨d, rfl, hText⟩
  exact ⟨d, hMem, hText⟩

/- A script names each governor once and uses it afterwards. -/
structure WellOrdered (ops : List SysfsOp) : Prop where
  unique :
    ∀ core d, .write (governorNode core) d ∈ ops →
      namedGovernor ops core = some d.text
  prepared :
    Prepared (fun core => namedGovernor ops core = none)
      (fun _ => False) ops

/- Writes that agree name one governor. -/
theorem namedGovernor_of_mem
    {ops : List SysfsOp}
    {core : Nat}
    {d : Datum}
    (hAgree :
      ∀ d d',
        .write (governorNode core) d ∈ ops →
        .write (governorNode core) d' ∈ ops →
        d = d')
    (hMem : .write (governorNode core) d ∈ ops) :
    namedGovernor ops core = some d.text := by
  have hSome := lastSetting_isSome hMem
    (setting_write_self (fun _ => "") _ d)
  rcases Option.isSome_iff_exists.mp hSome with
    ⟨text, hNamed⟩
  rcases exists_write_of_named hNamed with
    ⟨d', hMem', hText⟩
  rw [hAgree d d' hMem hMem', hText]
  exact hNamed

end Utils

end Universal7420

------------------------------------------------------------
-- Steps Of A Script In Order
------------------------------------------------------------

namespace Universal7420

namespace Utils

/-
  The governors that a script works with: those it names, and
  for other CPUs those of the nodes.
-/
def goal
    (ops : List SysfsOp)
    (w : World)
    (core : Nat) : String :=
  match namedGovernor ops core with
  | some text => firstLine text
  | none => governorOf w core

def Settled
    (ops : List SysfsOp)
    (w : World)
    (core : Nat) : Prop :=
  governorOf w core = goal ops w core

def Known
    (ops : List SysfsOp)
    (sys : Sysfs)
    (core : Nat) : Prop :=
  sys.kCpuGovernors core = goal ops sys.world core

/- What some thread does to the nodes of a script. -/
structure ScriptStep
    (ops : List SysfsOp)
    (sys sys' : Sysfs)
    (op : SysfsOp) : Prop where
  goal : goal ops sys'.world = goal ops sys.world
  content :
    ∀ path,
      sys'.world.content path =
        (op.setting (Utils.goal ops sys.world) path).getD
          (sys.world.content path)
  settled :
    ∀ core, Settled ops sys.world core →
      Settled ops sys'.world core
  known :
    ∀ core, Known ops sys core → Known ops sys' core

variable {ops rest : List SysfsOp}
variable {op : SysfsOp}
variable {sys sys' : Sysfs}

/- The governor node holds the named governor or is kept. -/
theorem governorOf_step
    (hOps : WellOrdered ops)
    (hMem : op ∈ ops)
    (hContent :
      ∀ path,
        sys'.world.content path =
          (op.setting (goal ops sys.world) path).getD
            (sys.world.content path))
    (core : Nat) :
    (∃ d, op = .write (governorNode core) d ∧
        namedGovernor ops core = some d.text ∧
        governorOf sys'.world core = firstLine d.text) ∨
      governorOf sys'.world core =
        governorOf sys.world core := by
  have hNode := hContent (governorNode core)
  cases hSetting :
      op.setting (goal ops sys.world)
        (governorNode core) with
  | none =>
      right
      rw [hSetting] at hNode
      unfold governorOf
      rw [hNode]
      rfl
  | some text =>
      left
      rcases setting_governorNode hSetting with
        ⟨d, rfl, hText⟩
      refine ⟨d, rfl, hOps.unique core d hMem, ?_⟩
      rw [hSetting] at hNode
      unfold governorOf
      rw [hNode, hText]
      rfl

theorem WellOrdered.step
    (hOps : WellOrdered ops)
    (hMem : op ∈ ops)
    (hPrepared :
      Prepared (Settled ops sys.world) (Known ops sys)
        (op :: rest))
    (hStep : opStep sys op = some sys') :
    ScriptStep ops sys sys' op := by
  have hKnown :
      ∀ core file d, op = .writeCpuGov core file d →
        sys.kCpuGovernors core =
          goal ops sys.world core := by
    rintro core file d rfl
    exact hPrepared.1
  have hContent := opStep_content hStep hKnown
  have hGoal : goal ops sys'.world = goal ops sys.world := by
    funext core
    rcases governorOf_step hOps hMem hContent core with
      ⟨d, _, hNamed, _⟩ | hSame
    · unfold goal
      rw [hNamed]
    · unfold goal
      rw [hSame]
  refine ⟨hGoal, hContent, ?_, ?_⟩
  · intro core hSettled
    unfold Settled
    rw [hGoal]
    rcases governorOf_step hOps hMem hContent core with
      ⟨d, _, hNamed, hLine⟩ | hSame
    · rw [hLine, goal, hNamed]
    · rw [hSame]
      exact hSettled
  · intro core hCore
    unfold Known
    rw [hGoal]
    rcases opStep_governors hStep core with
      ⟨_, hSame⟩ | ⟨rfl, hRead⟩
    · rw [hSame]
      exact hCore
    · rw [hRead]
      exact hPrepared.1

/- The rest of the script stays prepared. -/
theorem ScriptStep.prepared
    (hScript : ScriptStep ops sys sys' op)
    (hOps : WellOrdered ops)
    (hMem : op ∈ ops)
    (hPrepared :
      Prepared (Settled ops sys.world) (Known ops sys)
        (op :: rest))
    (hStep : opStep sys op = some sys') :
    Prepared (Settled ops sys'.world) (Known ops sys')
      rest := by
  cases op with
  | write path d =>
      have hRest :
          Prepared
            (fun core =>
              Settled ops sys.world core ∨
                path = governorNode core)
            (Known ops sys) rest :=
        hPrepared
      refine hRest.mono ?_ hScript.known
      rintro core (hCore | rfl)
      · exact hScript.settled core hCore
      · unfold Settled
        rw [hScript.goal]
        have hNode := hScript.content (governorNode core)
        rw [setting_write_self] at hNode
        unfold governorOf Utils.goal
        rw [hNode, hOps.unique core d hMem]
        rfl
  | updateCpuGov core =>
      refine hPrepared.2.mono hScript.settled ?_
      rintro other (hOther | rfl)
      · exact hScript.known other hOther
      · unfold Known
        rw [hScript.goal]
        rcases opStep_governors hStep other with
          ⟨hNe, _⟩ | ⟨_, hRead⟩
        · exact absurd rfl hNe
        · rw [hRead]
          exact hPrepared.1
  | writeCpuGov core file d =>
      exact hPrepared.2.mono hScript.settled hScript.known
  | governorOverrun =>
      cases hStep

/-
  A node that a script sets holds its value after a step, is
  going to be set, or is out of reach of the step and the rest.
-/
theorem settles_of_scriptStep
    {path text : String}
    (hScript : ScriptStep ops sys sys' op)
    (hSuffix : op :: rest <:+ ops)
    (hLast :
      lastSetting (goal ops sys.world) path ops =
        some text) :
    sys'.world.content path = text ∨
      (lastSetting (goal ops sys.world) path rest).isSome =
        true ∨
      (sys'.world.content path = sys.world.content path ∧
        lastSetting (goal ops sys.world) path (op :: rest) =
          none) := by
  rw [hScript.content path]
  cases hRest :
      lastSetting (goal ops sys.world) path rest with
  | some later =>
      exact Or.inr (Or.inl rfl)
  | none =>
      have hHead :
          lastSetting (goal ops sys.world) path
              (op :: rest) =
            op.setting (goal ops sys.world) path := by
        rw [lastSetting, hRest, Option.none_or]
      rw [hHead]
      cases hSetting :
          op.setting (goal ops sys.world) path with
      | some written =>
          -- it was the last write of the script to the node
          left
          rw [hSetting] at hHead
          have hFinal := lastSetting_of_suffix hSuffix hHead
          rw [hLast] at hFinal
          exact (Option.some.inj hFinal).symm
      | none =>
          exact Or.inr (Or.inr ⟨rfl, rfl⟩)

/- A script can begin at any time. -/
theorem WellOrdered.start
    (hOps : WellOrdered ops)
    (sys : Sysfs) :
    Prepared (Settled ops sys.world) (Known ops sys) ops := by
  refine hOps.prepared.mono ?_ (fun _ => False.elim)
  intro core hNone
  unfold Settled goal
  rw [hNone]

end Utils

end Universal7420

------------------------------------------------------------
-- Profiles Are In Order
------------------------------------------------------------

namespace Universal7420

namespace Power

open Profiles Utils

/- The first CPU of a cluster. -/
def firstCore : Cluster → Nat
| .apollo => 0
| .atlas => 4

theorem settingNodes_class :
    ∀ path ∈ settingNodes,
      path.toList.take 14 ≠ "/sys/devices/s".toList := by
  simp only [settingNodes, List.forall_mem_cons,
    String.toList_append]
  repeat rw [String.toList_ofList]
  decide +kernel

/- A profile writes a governor node with its governor. -/
theorem profileOps_governorNode
    (data : SecPowerProfile) :
    ∀ op ∈ profileOps data, ∀ core d,
      op = .write (governorNode core) d →
        ∃ c, core = firstCore c ∧
          (data.leaves (.governor c)).set = true ∧
          d = datum _ (data.leaves (.governor c)).value := by
  have hOther :
      ∀ core file, file ≠ "cpufreq/scaling_governor" →
        ∀ d core' d',
          SysfsOp.write (cpuPath core file) d ≠
            .write (governorNode core') d' := by
    intro core file hFile d core' d' hSame
    have hPath := (SysfsOp.write.inj hSame).1
    exact hFile (cpuPath_inj hPath).2
  have hCluster :
      ∀ c, ∀ op ∈ clusterOps data c (firstCore c),
        ∀ core d, op = .write (governorNode core) d →
          ∃ c', core = firstCore c' ∧
            (data.leaves (.governor c')).set = true ∧
            d = datum _
              (data.leaves (.governor c')).value := by
    intro c
    apply forall_clusterOps
    · intro hSet core d hSame
      have hWrite := SysfsOp.write.inj hSame
      refine ⟨c, ?_, hSet, hWrite.2.symm⟩
      exact (cpuPath_inj hWrite.1).1.symm
    · intro core file hFile d core' d' hSame
      refine absurd hSame (hOther core file ?_ d core' d')
      rintro rfl
      revert hFile
      decide
    · intro core core' d' hSame
      cases hSame
    · intro core file d core' d' hSame
      cases hSame
    · intro core d hSame
      cases hSame
  apply forall_profileOps
  · intro core d core' d' hSame
    refine absurd hSame (hOther core _ ?_ d core' d')
    decide
  · intro path hPath d core d' hSame
    have hNode := (SysfsOp.write.inj hSame).1
    exact absurd hNode.symm
      (cpuPath_ne (settingNodes_class path hPath) core _)
  · exact hCluster .apollo
  · exact hCluster .atlas

/- A cluster reads its governor back before it uses it. -/
theorem prepared_clusterOps
    {data : SecPowerProfile}
    {c : Cluster}
    {core : Nat}
    {settled known : Nat → Prop}
    (hSettled :
      (data.leaves (.governor c)).set = false →
        settled core) :
    Prepared settled known (clusterOps data c core) := by
  have hWrites :
      ∀ path l, ∀ op ∈ profileWrite data path l,
        op.Ready (fun other => known other ∨ other = core) :=
    fun path l =>
      forall_profileWrite (fun _ => trivial) data l
  have hTuned :
      ∀ file l, ∀ op ∈ clusterWrite data core file l,
        op.Ready
          (fun other => known other ∨ other = core) := by
    intro file l op hOp
    rw [List.mem_singleton.mp hOp]
    exact Or.inr rfl
  have hData :
      ∀ op ∈ governorDataOps data c core,
        op.Ready
          (fun other => known other ∨ other = core) :=
    forall_governorDataOps (fun _ _ => Or.inr rfl) trivial
      data c
  unfold clusterOps
  simp only [List.append_assoc, List.singleton_append]
  apply prepared_readBack
  · unfold profileWrite
    split
    · exact Or.inr ⟨_, rfl⟩
    · rename_i hUnset
      exact Or.inl ⟨rfl, hSettled (by simpa using hUnset)⟩
  · simp only [List.append_eq, List.forall_mem_append]
    exact ⟨hWrites _ _, hWrites _ _, hWrites _ _,
      hWrites _ _, hWrites _ _, hWrites _ _, hTuned _ _,
      hTuned _ _, hTuned _ _, hData⟩

theorem firstCore_inj
    {c c' : Cluster}
    (hSame : firstCore c = firstCore c') :
    c = c' := by
  cases c <;> cases c' <;> first | rfl | cases hSame

/- All writes of a governor node write the same. -/
theorem profileOps_unique
    (data : SecPowerProfile)
    {core : Nat}
    {d : Datum}
    (hMem : .write (governorNode core) d ∈ profileOps data) :
    namedGovernor (profileOps data) core = some d.text := by
  have hNode := profileOps_governorNode data
  refine namedGovernor_of_mem ?_ hMem
  intro d₁ d₂ hMem₁ hMem₂
  rcases hNode _ hMem₁ core d₁ rfl with
    ⟨c₁, hCore₁, _, hDatum₁⟩
  rcases hNode _ hMem₂ core d₂ rfl with
    ⟨c₂, hCore₂, _, hDatum₂⟩
  have hSame := firstCore_inj (hCore₁.symm.trans hCore₂)
  rw [hDatum₁, hDatum₂, hSame]

/- A governor that is not set is not named. -/
theorem namedGovernor_of_unset
    {data : SecPowerProfile}
    {c : Cluster}
    (hUnset : (data.leaves (.governor c)).set = false) :
    namedGovernor (profileOps data) (firstCore c) =
      none := by
  cases hNamed :
      namedGovernor (profileOps data) (firstCore c) with
  | none =>
      rfl
  | some text =>
      rcases exists_write_of_named hNamed with ⟨d, hMem, _⟩
      rcases profileOps_governorNode data _ hMem _ d rfl with
        ⟨c', hCore, hSet, _⟩
      rw [← firstCore_inj hCore, hUnset] at hSet
      cases hSet

theorem profileOps_prepared
    (data : SecPowerProfile) :
    Prepared
      (fun core =>
        namedGovernor (profileOps data) core = none)
      (fun _ => False) (profileOps data) := by
  generalize hFree :
      (fun core =>
        namedGovernor (profileOps data) core = none) = free
  have hCluster :
      ∀ c,
        Prepared free (fun _ => False)
          (blockOps data (.cluster c)
            (clusterOps data c (firstCore c))) := by
    intro c
    unfold blockOps
    split
    · apply prepared_clusterOps
      intro hUnset
      rw [← hFree]
      exact namedGovernor_of_unset hUnset
    · trivial
  have hOnline :
      Prepared free (fun _ => False)
        (cpuOnline 0 ++ cpuOnline 4) :=
    trivial
  have hCpu :
      Prepared free (fun _ => False)
        (blockOps data .cpu
          (blockOps data (.cluster .apollo)
              (clusterOps data .apollo 0) ++
            blockOps data (.cluster .atlas)
              (clusterOps data .atlas 4))) := by
    have hBoth :=
      (hCluster .apollo).append (hCluster .atlas)
    unfold blockOps at hBoth ⊢
    split
    · exact hBoth
    · trivial
  rcases profileOps_split data with
    ⟨settings, hSplit, hWrites⟩
  have hSettings :
      Prepared free (fun _ => False) settings := by
    apply prepared_of_ready
    intro op hMem
    rcases hWrites op hMem with ⟨path, _, d, rfl⟩
    trivial
  have hAll := (hOnline.append hCpu).append hSettings
  rw [← hSplit] at hAll
  exact hAll

/- The script of a profile names governors and then uses them. -/
theorem profileOps_wellOrdered
    (data : SecPowerProfile) :
    WellOrdered (profileOps data) where
  unique := fun _ _ hMem => profileOps_unique data hMem
  prepared := profileOps_prepared data

end Power

end Universal7420
