import Universal7420.Power.ScriptSteps

/-
  How far `setProfile` gets when nodes fail.

  Which nodes can be opened may change from statement to
  statement.  The profile is stored before anything else, and
  in the strict build a governor that cannot be read ends the
  function, with all the sections that come later.  A write
  that fails does not.  Which file of a governor is meant comes
  from the node that was read, and nothing later renames it, so
  the files at the end are told by the governors at the end.

  Main declarations:
    * `Universal7420.Utils.Access`
    * `Universal7420.Utils.runOpsUnder`
    * `Universal7420.Utils.runOpsUnder_const`
    * `Universal7420.Utils.SysfsOp.usable`
    * `Universal7420.Utils.runOpsUnder_outcome`
    * `Universal7420.Power.setProfileUnder`
    * `Universal7420.Power.setProfileUnder_const`
    * `Universal7420.Power.CarriedOut`
    * `Universal7420.Power.setProfile_carries_out`
    * `Universal7420.Power.NotHalfApplied`
-/

------------------------------------------------------------
-- Scripts Under Failures
------------------------------------------------------------

namespace Universal7420

namespace Utils

/- Which nodes can be used at one moment. -/
structure Access where
  readable : String → Bool
  writable : String → Bool
  regular : String → Bool

/- What can be used in a world. -/
def World.access (w : World) : Access where
  readable := w.readable
  writable := w.writable
  regular := w.regular

/- The nodes at such a moment. -/
def Access.within
    (access : Access)
    (sys : Sysfs) : Sysfs :=
  { sys with
    world := { sys.world with
      readable := access.readable
      writable := access.writable
      regular := access.regular } }

/- A statement that was carried out, and its result. -/
structure Done where
  op : SysfsOp
  ok : Bool
deriving DecidableEq, Repr

/- Carry out one statement. -/
def SysfsOp.carryOut
    (access : Access)
    (sys : Sysfs) :
    SysfsOp → Except Fault (Bool × Sysfs)
| .write path d =>
    .ok (Utils.write path d (access.within sys))
| .updateCpuGov core =>
    .ok (Utils.updateCpuGov core (access.within sys))
| .writeCpuGov core file d =>
    .ok (Utils.writeCpuGov core file d (access.within sys))
| .governorOverrun => .error .governorOverrun

/- A governor that could not be read. -/
def Done.isFailedRead : Done → Bool
| ⟨.updateCpuGov _, false⟩ => true
| _ => false

/- What was carried out with success. -/
def succeededOps (done : List Done) : List SysfsOp :=
  (done.filter Done.ok).map Done.op

/-
  A statement can use its file at one moment, when the nodes
  hold what they do in a world.
-/
def SysfsOp.usable
    (now : Access)
    (w : World) :
    SysfsOp → Bool
| .write path _ => now.writable path
| .updateCpuGov core =>
    decide (core < nrCpus) &&
      now.readable (governorNode core) &&
      decide (w.content (governorNode core) ≠ "")
| .writeCpuGov core file _ =>
    decide (core < nrCpus) &&
      now.regular (governorFile (governorOf w) core file) &&
      now.writable (governorFile (governorOf w) core file)
| .governorOverrun => false

/-
  Execute a script from turn `n` on, with what was carried
  out.  A governor that cannot be read is the end.
-/
def runOpsUnder
    (access : Nat → Access) :
    Nat → List SysfsOp → Sysfs →
      Except Fault (List Done × Sysfs)
| _, [], sys => .ok ([], sys)
| n, op :: ops, sys => do
    let (ok, sys) ← op.carryOut (access n) sys
    if (⟨op, ok⟩ : Done).isFailedRead then
      return ([⟨op, ok⟩], sys)
    else
      let (done, sys) ← runOpsUnder access (n + 1) ops sys
      return (⟨op, ok⟩ :: done, sys)

end Utils

namespace Power

open Profiles Utils

/- `setProfile` under failures, with what was carried out. -/
def setProfileUnder
    (access : Nat → Access)
    (profile : SecPowerProfiles)
    (s : PowerState) :
    Except Fault (List Done × PowerState) :=
  let s := { s with mCurrentProfile := profile }
  if isModuleEnabled s.sysfs.world "profiles" then
    match getProfileData s.mCurrentProfile with
    | none => .error .nullProfile
    | some id =>
        if (s.profiles id).enabled then do
          let (done, sysfs) ←
            runOpsUnder access 0
              (profileOps (s.profiles id)) s.sysfs
          return (done, { s with sysfs := sysfs })
        else
          .ok ([], s)
  else
    .ok ([], s)

end Power

end Universal7420

------------------------------------------------------------
-- One Statement
------------------------------------------------------------

namespace Universal7420

namespace Utils

open Fallible

variable {access : Nat → Access}

/- A script that returns has carried out its first statement. -/
theorem runOpsUnder_cons
    {n : Nat}
    {op : SysfsOp}
    {ops : List SysfsOp}
    {sys sys' : Sysfs}
    {done : List Done}
    (hRun :
      runOpsUnder access n (op :: ops) sys =
        .ok (done, sys')) :
    ∃ ok next,
      op.carryOut (access n) sys = .ok (ok, next) ∧
      ((Done.isFailedRead ⟨op, ok⟩ = true ∧
          done = [⟨op, ok⟩] ∧ sys' = next) ∨
        (Done.isFailedRead ⟨op, ok⟩ = false ∧
          ∃ later,
            done = ⟨op, ok⟩ :: later ∧
              runOpsUnder access (n + 1) ops next =
                .ok (later, sys'))) := by
  rw [runOpsUnder] at hRun
  rcases bind_eq_ok_iff.mp hRun with
    ⟨⟨ok, next⟩, hOp, hRest⟩
  refine ⟨ok, next, hOp, ?_⟩
  simp only at hRest
  split at hRest
  · rename_i hFailed
    cases hRest
    exact Or.inl ⟨hFailed, rfl, rfl⟩
  · rename_i hGoes
    rcases bind_eq_ok_iff.mp hRest with
      ⟨⟨later, last⟩, hLater, hLast⟩
    cases hLast
    exact Or.inr
      ⟨Bool.eq_false_iff.mpr hGoes, later, rfl, hLater⟩

/- What is carried out is the statement at that moment. -/
theorem carryOut_after
    {now : Access}
    {op : SysfsOp}
    {sys next : Sysfs}
    {ok : Bool}
    (hOp : op.carryOut now sys = .ok (ok, next)) :
    next = op.after (now.within sys) := by
  cases op with
  | write path d | updateCpuGov core
  | writeCpuGov core file d =>
      exact (congrArg Prod.snd (Except.ok.inj hOp)).symm
  | governorOverrun =>
      cases hOp

/- The CPU whose governor a statement needs. -/
def SysfsOp.core? : SysfsOp → Option Nat
| .write _ _ | .governorOverrun => none
| .updateCpuGov core | .writeCpuGov core _ _ => some core

/- Only that governor decides what a statement does. -/
theorem governorOf_congr
    {w w' : World}
    {core : Nat}
    (hNode :
      w'.content (governorNode core) =
        w.content (governorNode core)) :
    governorOf w' core = governorOf w core := by
  unfold governorOf
  rw [hNode]

theorem usable_congr
    {now : Access}
    {op : SysfsOp}
    {w w' : World}
    (hNode :
      ∀ core ∈ op.core?,
        w'.content (governorNode core) =
          w.content (governorNode core)) :
    op.usable now w' = op.usable now w := by
  cases op with
  | write path d | governorOverrun =>
      rfl
  | updateCpuGov core =>
      simp only [SysfsOp.usable, hNode core rfl]
  | writeCpuGov core file d =>
      have hSame := governorOf_congr (hNode core rfl)
      simp only [SysfsOp.usable, governorFile, hSame]

theorem setting_congr
    {op : SysfsOp}
    {w w' : World}
    (hNode :
      ∀ core ∈ op.core?,
        w'.content (governorNode core) =
          w.content (governorNode core))
    (path : String) :
    op.setting (governorOf w') path =
      op.setting (governorOf w) path := by
  cases op with
  | write p d | updateCpuGov core | governorOverrun =>
      rfl
  | writeCpuGov core file d =>
      have hFile :
          governorFile (governorOf w') core file =
            governorFile (governorOf w) core file := by
        unfold governorFile
        rw [governorOf_congr (hNode core rfl)]
      simp only [SysfsOp.setting, hFile]

/- What one statement has done, successful or not. -/
structure Carried
    (now : Access)
    (op : SysfsOp)
    (ok : Bool)
    (sys next : Sysfs) : Prop where
  usable : ok = op.usable now sys.world
  content :
    ∀ path,
      next.world.content path =
        (if ok then op.setting (governorOf sys.world) path
          else none).getD (sys.world.content path)
  governors :
    ∀ core,
      next.kCpuGovernors core =
        if ok = true ∧ op = .updateCpuGov core then
          governorOf sys.world core
        else
          sys.kCpuGovernors core

/- A write sets its node if it may. -/
theorem write_carried
    {now : Access}
    {path : String}
    {d : Datum}
    {sys : Sysfs} :
    (write path d (now.within sys)).1 = now.writable path ∧
      (∀ node,
        (write path d (now.within sys)).2.world.content node =
          (if now.writable path then
              if path = node then some d.text else none
            else
              none).getD (sys.world.content node)) ∧
      (write path d (now.within sys)).2.kCpuGovernors =
        sys.kCpuGovernors := by
  unfold write
  cases hWritable : now.writable path with
  | false =>
      have hWithin :
          (now.within sys).world.writable path = false :=
        hWritable
      simp only [hWithin, Bool.false_eq_true, if_false]
      exact ⟨trivial, fun node => rfl, rfl⟩
  | true =>
      have hWithin :
          (now.within sys).world.writable path = true :=
        hWritable
      simp only [hWithin, if_true]
      refine ⟨trivial, ?_, rfl⟩
      intro node
      by_cases hSame : path = node
      · rw [if_pos hSame, ← hSame]
        exact Function.update_self path _ _
      · rw [if_neg hSame]
        exact Function.update_of_ne (Ne.symm hSame) _ _

/- A governor is read from its node if there is a line. -/
theorem updateCpuGov_carried
    {now : Access}
    {core : Nat}
    {sys next : Sysfs}
    {ok : Bool}
    (hUpdate :
      updateCpuGov core (now.within sys) = (ok, next)) :
    Carried now (.updateCpuGov core) ok sys next := by
  by_cases hCan :
      core < nrCpus ∧
        now.readable (governorNode core) = true ∧
        sys.world.content (governorNode core) ≠ ""
  · have hRead :
        read (now.within sys).world
            (cpuPath core "cpufreq/scaling_governor") =
          some (governorOf sys.world core) :=
      if_pos hCan.2
    rw [updateCpuGov, if_pos hCan.1, hRead] at hUpdate
    cases hUpdate
    refine ⟨?_, fun path => rfl, ?_⟩
    · simp [SysfsOp.usable, hCan]
    · intro other
      by_cases hSame : core = other
      · rw [hSame, if_pos ⟨rfl, rfl⟩]
        exact Function.update_self other _ _
      · rw [if_neg (by simpa using hSame)]
        exact Function.update_of_ne (Ne.symm hSame) _ _
  · have hFails :
        updateCpuGov core (now.within sys) =
          (false, now.within sys) := by
      unfold updateCpuGov
      split
      · rename_i hCore
        have hRead :
            read (now.within sys).world
                (cpuPath core "cpufreq/scaling_governor") =
              none :=
          if_neg (fun hBoth => hCan ⟨hCore, hBoth⟩)
        rw [hRead]
      · rfl
    rw [hFails] at hUpdate
    cases hUpdate
    refine ⟨?_, fun path => rfl, ?_⟩
    · symm
      rw [← Bool.not_eq_true]
      simpa [SysfsOp.usable, and_assoc] using hCan
    · intro other
      rw [if_neg (by simp)]
      rfl

/- A file of a governor is written if it is a regular one. -/
theorem writeCpuGov_carried
    {now : Access}
    {core : Nat}
    {file : String}
    {d : Datum}
    {sys next : Sysfs}
    {ok : Bool}
    (hKnown :
      sys.kCpuGovernors core = governorOf sys.world core)
    (hTuned :
      writeCpuGov core file d (now.within sys) =
        (ok, next)) :
    Carried now (.writeCpuGov core file d) ok sys next := by
  have hFile :
      cpuPath core
          ("cpufreq/" ++
            (now.within sys).kCpuGovernors core ++ "/" ++
              file) =
        governorFile (governorOf sys.world) core file := by
    unfold governorFile
    rw [← hKnown]
    rfl
  by_cases hCan :
      core < nrCpus ∧
        now.regular
          (governorFile (governorOf sys.world) core file) =
            true
  · have hRegular :
        (now.within sys).world.regular
          (governorFile (governorOf sys.world) core file) =
            true :=
      hCan.2
    simp only [writeCpuGov, hCan.1, if_true, hFile,
      hRegular] at hTuned
    have hWrite := @write_carried now
      (governorFile (governorOf sys.world) core file) d sys
    rw [hTuned] at hWrite
    rcases hWrite with ⟨hOk, hContent, hGovernors⟩
    refine ⟨?_, ?_, ?_⟩
    · simp only [SysfsOp.usable, hCan, decide_true,
        Bool.true_and]
      exact hOk
    · intro node
      rw [hContent node, ← hOk]
      simp only [SysfsOp.setting, hCan.1, true_and]
    · intro other
      rw [if_neg (by simp)]
      exact congrFun hGovernors other
  · have hFails :
        writeCpuGov core file d (now.within sys) =
          (false, now.within sys) := by
      unfold writeCpuGov
      split
      · rename_i hCore
        simp only [hFile]
        rw [if_neg]
        intro hRegular
        exact hCan ⟨hCore, hRegular⟩
      · rfl
    rw [hFails] at hTuned
    cases hTuned
    refine ⟨?_, fun path => rfl, ?_⟩
    · symm
      rw [← Bool.not_eq_true]
      simp only [SysfsOp.usable, Bool.and_eq_true,
        decide_eq_true_eq]
      exact fun hBoth => hCan hBoth.1
    · intro other
      rw [if_neg (by simp)]
      rfl

theorem carryOut_carried
    {now : Access}
    {op : SysfsOp}
    {sys next : Sysfs}
    {ok : Bool}
    (hKnown :
      ∀ core file d, op = .writeCpuGov core file d →
        sys.kCpuGovernors core = governorOf sys.world core)
    (hOp : op.carryOut now sys = .ok (ok, next)) :
    Carried now op ok sys next := by
  cases op with
  | write path d =>
      have hWrite := @write_carried now path d sys
      rw [Except.ok.inj hOp] at hWrite
      rcases hWrite with ⟨hOk, hContent, hGovernors⟩
      refine ⟨hOk, ?_, ?_⟩
      · intro node
        rw [hContent node, ← hOk]
        rfl
      · intro core
        rw [if_neg (by simp)]
        exact congrFun hGovernors core
  | updateCpuGov core =>
      exact updateCpuGov_carried (Except.ok.inj hOp)
  | writeCpuGov core file d =>
      exact writeCpuGov_carried (hKnown core file d rfl)
        (Except.ok.inj hOp)
  | governorOverrun =>
      cases hOp

end Utils

end Universal7420

------------------------------------------------------------
-- Whole Scripts
------------------------------------------------------------

namespace Universal7420

namespace Utils

variable {access : Nat → Access}

/- A governor is not renamed once it has been read. -/
def ReadsLast (ops : List SysfsOp) : Prop :=
  ops.Pairwise
    (fun op later =>
      ∀ core d, op = .updateCpuGov core →
        later ≠ .write (governorNode core) d)

/- What holds when a script has ended. -/
structure Outcome
    (access : Nat → Access)
    (n : Nat)
    (known : Nat → Prop)
    (done : List Done)
    (sys sys' : Sysfs) : Prop where
  used :
    ∀ i (hi : i < done.length),
      done[i].ok =
        done[i].op.usable (access (n + i)) sys'.world
  content :
    ∀ path,
      sys'.world.content path =
        (lastSetting (governorOf sys'.world) path
          (succeededOps done)).getD (sys.world.content path)
  known :
    ∀ core, known core →
      sys'.world.content (governorNode core) =
        sys.world.content (governorNode core)

theorem succeededOps_cons
    (d : Done)
    (done : List Done) :
    succeededOps (d :: done) =
      if d.ok then d.op :: succeededOps done
      else succeededOps done := by
  unfold succeededOps
  rw [List.filter_cons]
  split
  · rfl
  · rfl

/- A known governor is not renamed by one statement. -/
theorem Carried.keepsGovernor
    {now : Access}
    {op : SysfsOp}
    {ok : Bool}
    {sys next : Sysfs}
    {core : Nat}
    (hCarried : Carried now op ok sys next)
    (hOther : ∀ d, op ≠ .write (governorNode core) d) :
    next.world.content (governorNode core) =
      sys.world.content (governorNode core) := by
  rw [hCarried.content]
  split
  · cases hSetting :
        op.setting (governorOf sys.world)
          (governorNode core) with
    | none =>
        rfl
    | some text =>
        rcases setting_governorNode hSetting with
          ⟨d, hWrite, _⟩
        exact absurd hWrite (hOther d)
  · rfl

/- The rest of a script continues what was carried out. -/
theorem Carried.outcome
    {n : Nat}
    {known : Nat → Prop}
    {op : SysfsOp}
    {ok : Bool}
    {later : List Done}
    {sys next sys' : Sysfs}
    (hCarried : Carried (access n) op ok sys next)
    (hRest :
      Outcome access (n + 1) (fun core =>
        known core ∨ (ok = true ∧ op = .updateCpuGov core))
        later next sys')
    (hNeeds : ∀ core ∈ op.core?,
      known core ∨ (ok = true ∧ op = .updateCpuGov core) ∨
        sys'.world.content (governorNode core) =
          sys.world.content (governorNode core))
    (hOther :
      ∀ core,
        known core ∨ (ok = true ∧ op = .updateCpuGov core) →
        ∀ d, op ≠ .write (governorNode core) d) :
    Outcome access n known (⟨op, ok⟩ :: later) sys sys' := by
  have hKept :
      ∀ core,
        known core ∨ (ok = true ∧ op = .updateCpuGov core) →
        sys'.world.content (governorNode core) =
          sys.world.content (governorNode core) := by
    intro core hCore
    rw [hRest.known core hCore]
    exact hCarried.keepsGovernor (hOther core hCore)
  have hNode :
      ∀ core ∈ op.core?,
        sys'.world.content (governorNode core) =
          sys.world.content (governorNode core) := by
    intro core hCore
    rcases hNeeds core hCore with hKnown | hRead | hSame
    · exact hKept core (Or.inl hKnown)
    · exact hKept core (Or.inr hRead)
    · exact hSame
  constructor
  · intro i hi
    cases i with
    | zero =>
        rw [List.getElem_cons_zero, Nat.add_zero,
          usable_congr hNode]
        exact hCarried.usable
    | succ i =>
        rw [List.getElem_cons_succ, Nat.add_comm i 1,
          ← Nat.add_assoc]
        exact hRest.used i (Nat.lt_of_succ_lt_succ hi)
  · intro path
    rw [hRest.content path, hCarried.content path,
      succeededOps_cons]
    cases ok with
    | false =>
        rfl
    | true =>
        simp only [if_true, lastSetting]
        rw [setting_congr hNode path]
        cases lastSetting (governorOf sys'.world) path
            (succeededOps later) with
        | none =>
            rw [Option.none_or]
            rfl
        | some text =>
            rfl
  · intro core hCore
    exact hKept core (Or.inl hCore)

/-
  Whatever can be opened: each statement that was carried out
  succeeded exactly if its file could be used, and the nodes
  hold what the successful ones set them to.  A governor that
  has been read names the files until the end.
-/
theorem runOpsUnder_outcome
    {n : Nat}
    {known : Nat → Prop}
    {ops : List SysfsOp}
    {sys sys' : Sysfs}
    {done : List Done}
    (hPrepared : Prepared (fun _ => True) known ops)
    (hLast : ReadsLast ops)
    (hFree :
      ∀ core, known core →
        ∀ d, .write (governorNode core) d ∉ ops)
    (hKnown :
      ∀ core, known core →
        sys.kCpuGovernors core = governorOf sys.world core)
    (hRun :
      runOpsUnder access n ops sys = .ok (done, sys')) :
    Outcome access n known done sys sys' := by
  induction ops generalizing n known sys done with
  | nil =>
      cases hRun
      exact ⟨by simp, fun path => rfl, fun core _ => rfl⟩
  | cons op ops ih =>
      rcases runOpsUnder_cons hRun with
        ⟨ok, next, hOp, hRest⟩
      rcases List.pairwise_cons.mp hLast with
        ⟨hHead, hTail⟩
      have hReady :
          ∀ core file d, op = .writeCpuGov core file d →
            known core := by
        rintro core file d rfl
        exact hPrepared.1
      have hCarried :=
        carryOut_carried
          (fun core file d hSame =>
            hKnown core (hReady core file d hSame))
          hOp
      have hOther :
          ∀ core,
            known core ∨
                (ok = true ∧ op = .updateCpuGov core) →
            ∀ d, op ≠ .write (governorNode core) d := by
        rintro core (hCore | ⟨_, rfl⟩) d hSame
        · exact hFree core hCore d (by simp [hSame])
        · cases hSame
      have hNeeds :
          ∀ core ∈ op.core?,
            known core ∨ op = .updateCpuGov core := by
        intro core hCore
        cases op with
        | write path d | governorOverrun =>
            cases hCore
        | updateCpuGov other =>
            cases hCore
            exact Or.inr rfl
        | writeCpuGov other file d =>
            cases hCore
            exact Or.inl (hReady core file d rfl)
      rcases hRest with
        ⟨hFailed, rfl, rfl⟩ | ⟨hGoes, later, rfl, hLater⟩
      · -- the governor could not be read: nothing has changed
        have hSame :
            ∀ core,
              sys'.world.content (governorNode core) =
                sys.world.content (governorNode core) := by
          intro core
          apply hCarried.keepsGovernor
          rintro d rfl
          cases hFailed
        refine hCarried.outcome
          ⟨by simp, fun path => rfl, fun core _ => rfl⟩ ?_
          hOther
        intro core _
        exact Or.inr (Or.inr (hSame core))
      · have hReads :
            ∀ core, op = .updateCpuGov core → ok = true := by
          rintro core rfl
          cases ok with
          | true =>
              rfl
          | false =>
              cases hGoes
        refine hCarried.outcome (ih ?_ hTail ?_ ?_ hLater) ?_
          hOther
        · cases op with
          | write path d =>
              exact Prepared.mono hPrepared
                (fun _ _ => trivial) (fun _ => Or.inl)
          | updateCpuGov core =>
              refine hPrepared.2.mono (fun _ => id) ?_
              rintro next (hOld | hSame)
              · exact Or.inl hOld
              · rw [hSame]
                exact Or.inr ⟨hReads core rfl, rfl⟩
          | writeCpuGov core file d =>
              exact hPrepared.2.mono (fun _ => id)
                (fun _ => Or.inl)
          | governorOverrun =>
              exact Prepared.mono hPrepared (fun _ => id)
                (fun _ => Or.inl)
        · rintro core (hCore | ⟨_, hRead⟩) d hMem
          · exact hFree core hCore d
              (List.mem_cons_of_mem op hMem)
          · exact hHead _ hMem core d hRead rfl
        · intro core hCore
          rw [hCarried.governors core,
            governorOf_congr
              (hCarried.keepsGovernor (hOther core hCore))]
          split
          · rfl
          · rename_i hNot
            rcases hCore with hOld | hRead
            · exact hKnown core hOld
            · exact absurd hRead hNot
        · intro core hCore
          rcases hNeeds core hCore with hOld | hRead
          · exact Or.inl hOld
          · exact Or.inr (Or.inl ⟨hReads core hRead, hRead⟩)

/-
  What is carried out is all of the script, and every governor
  could be read, or it ends with the first one that could not.
-/
theorem runOpsUnder_done
    {n : Nat}
    {ops : List SysfsOp}
    {sys sys' : Sysfs}
    {done : List Done}
    (hRun :
      runOpsUnder access n ops sys = .ok (done, sys')) :
    (done.map Done.op = ops ∧
        ∀ d ∈ done, d.isFailedRead = false) ∨
      ∃ front core rest,
        done = front ++ [⟨.updateCpuGov core, false⟩] ∧
          ops = front.map Done.op ++
            .updateCpuGov core :: rest ∧
          ∀ d ∈ front, d.isFailedRead = false := by
  induction ops generalizing n sys done with
  | nil =>
      cases hRun
      exact Or.inl ⟨rfl, by simp⟩
  | cons op ops ih =>
      rcases runOpsUnder_cons hRun with
        ⟨ok, next, hOp, ⟨hFailed, rfl, rfl⟩ |
          ⟨hGoes, later, rfl, hLater⟩⟩
      · -- only a governor that was not read is a failure
        cases op with
        | updateCpuGov core =>
            cases ok with
            | true =>
                cases hFailed
            | false =>
                exact Or.inr
                  ⟨[], core, ops, rfl, rfl, by simp⟩
        | write path d =>
            cases hFailed
        | writeCpuGov core file d =>
            cases hFailed
        | governorOverrun =>
            cases hFailed
      · rcases ih hLater with
          ⟨hAll, hReads⟩ | ⟨front, core, rest, rfl, rfl, hReads⟩
        · refine Or.inl ⟨by simp [hAll], ?_⟩
          exact List.forall_mem_cons.mpr ⟨hGoes, hReads⟩
        · refine Or.inr
            ⟨⟨op, ok⟩ :: front, core, rest, by simp,
              by simp, ?_⟩
          exact List.forall_mem_cons.mpr ⟨hGoes, hReads⟩

/- Afterwards the access is what it was for the statement. -/
theorem carryOut_within
    {now : Access}
    {op : SysfsOp}
    {sys next : Sysfs}
    {ok : Bool}
    (hOp : op.carryOut now sys = .ok (ok, next)) :
    now.within next = next := by
  have hSame :
      SameAccess (now.within sys).world next.world := by
    rw [carryOut_after hOp]
    exact after_sameAccess op (now.within sys)
  unfold Access.within
  rw [← show next.world.readable = now.readable from
      hSame.readable,
    ← show next.world.writable = now.writable from
      hSame.writable,
    ← show next.world.regular = now.regular from
      hSame.regular]

/- The nodes at the end, after the first statement. -/
theorem runOpsUnder_map_snd
    {n : Nat}
    {op : SysfsOp}
    {ops : List SysfsOp}
    {sys next : Sysfs}
    {ok : Bool}
    (hOp : op.carryOut (access n) sys = .ok (ok, next)) :
    (runOpsUnder access n (op :: ops) sys).map Prod.snd =
      if Done.isFailedRead ⟨op, ok⟩ then
        .ok next
      else
        (runOpsUnder access (n + 1) ops next).map
          Prod.snd := by
  simp only [runOpsUnder, hOp, bind, Except.bind]
  split
  · rfl
  · rcases runOpsUnder access (n + 1) ops next with
      _ | ⟨later, last⟩
    · rfl
    · rfl

/- Without any change of access it is the usual run. -/
theorem runOpsUnder_const
    {now : Access}
    {n : Nat}
    {ops : List SysfsOp}
    {sys : Sysfs}
    (hAccess : now.within sys = sys) :
    (runOpsUnder (fun _ => now) n ops sys).map Prod.snd =
      runOps ops sys := by
  induction ops generalizing n sys with
  | nil =>
      rfl
  | cons op ops ih =>
      have hStep :
          ∀ ok next,
            op.carryOut now sys = .ok (ok, next) →
            (runOpsUnder (fun _ => now) n (op :: ops)
                sys).map Prod.snd =
              if Done.isFailedRead ⟨op, ok⟩ then
                .ok next
              else
                runOps ops next := by
        intro ok next hOp
        rw [runOpsUnder_map_snd hOp, ih (carryOut_within hOp)]
      cases op with
      | write path d =>
          have hOp :
              (SysfsOp.write path d).carryOut now sys =
                .ok (Utils.write path d sys) := by
            rw [SysfsOp.carryOut, hAccess]
          rw [hStep _ _ hOp]
          rfl
      | updateCpuGov core =>
          have hOp :
              (SysfsOp.updateCpuGov core).carryOut now sys =
                .ok (Utils.updateCpuGov core sys) := by
            rw [SysfsOp.carryOut, hAccess]
          rw [runOps]
          split
          · rename_i next hUpdate
            rw [hUpdate] at hOp
            rw [hStep _ _ hOp]
            rfl
          · rename_i next hUpdate
            rw [hUpdate] at hOp
            rw [hStep _ _ hOp]
            rfl
      | writeCpuGov core file d =>
          have hOp :
              (SysfsOp.writeCpuGov core file d).carryOut now
                  sys =
                .ok (Utils.writeCpuGov core file d sys) := by
            rw [SysfsOp.carryOut, hAccess]
          rw [hStep _ _ hOp]
          rfl
      | governorOverrun =>
          rfl

end Utils

end Universal7420

------------------------------------------------------------
-- The Governor Reads Of A Profile
------------------------------------------------------------

namespace Universal7420

namespace Power

open Profiles Utils

/- What `setProfile` does before it reads a governor. -/
def opsBeforeRead
    (data : SecPowerProfile) : Cluster → List SysfsOp
| .apollo =>
    cpuOnline 0 ++ cpuOnline 4 ++
      profileWrite data
        (cpuPath 0 "cpufreq/scaling_governor")
        (.governor .apollo)
| .atlas =>
    cpuOnline 0 ++ cpuOnline 4 ++
      blockOps data (.cluster .apollo)
        (clusterOps data .apollo 0) ++
      profileWrite data
        (cpuPath 4 "cpufreq/scaling_governor")
        (.governor .atlas)

/- A statement that does not read a governor. -/
def ReadsNothing (op : SysfsOp) : Prop :=
  ∀ core, op ≠ .updateCpuGov core

theorem cpuOnline_readsNothing
    (core : Nat) :
    ∀ op ∈ cpuOnline core, ReadsNothing op := by
  intro op hOp core' hSame
  rw [List.mem_singleton.mp hOp] at hSame
  cases hSame

theorem profileWrite_readsNothing
    (data : SecPowerProfile)
    (path : String)
    (l : Leaf) :
    ∀ op ∈ profileWrite data path l, ReadsNothing op := by
  apply forall_profileWrite
  intro d core hSame
  cases hSame

/- A statement that does not rename a governor. -/
def NamesNothing (op : SysfsOp) : Prop :=
  ∀ core d, op ≠ .write (governorNode core) d

/- A file of a CPU that is not its governor node. -/
theorem fileWrite_namesNothing
    {file : String}
    (hFile : file ≠ "cpufreq/scaling_governor")
    (core : Nat)
    (d : Datum) :
    NamesNothing (.write (cpuPath core file) d) := by
  intro core' d' hSame
  exact hFile (cpuPath_inj (SysfsOp.write.inj hSame).1).2

/-
  A cluster reads its governor once, and does not name it
  afterwards.
-/
theorem clusterOps_read
    (data : SecPowerProfile)
    (c : Cluster)
    (core : Nat) :
    ∃ tuned,
      clusterOps data c core =
        profileWrite data
            (cpuPath core "cpufreq/scaling_governor")
            (.governor c) ++
          .updateCpuGov core :: tuned ∧
      ∀ op ∈ tuned, ReadsNothing op ∧ NamesNothing op := by
  have hTuned :
      ∀ file l, ∀ op ∈ clusterWrite data core file l,
        ReadsNothing op ∧ NamesNothing op := by
    intro file l op hOp
    rw [List.mem_singleton.mp hOp]
    exact ⟨fun core' hSame => (by cases hSame),
      fun core' d hSame => (by cases hSame)⟩
  have hData :
      ∀ op ∈ governorDataOps data c core,
        ReadsNothing op ∧ NamesNothing op := by
    apply forall_governorDataOps
    · intro file d
      exact ⟨fun core' hSame => (by cases hSame),
        fun core' d' hSame => (by cases hSame)⟩
    · exact ⟨fun core' hSame => (by cases hSame),
        fun core' d hSame => (by cases hSame)⟩
  have hNode :
      ∀ core' file l, file ≠ "cpufreq/scaling_governor" →
        ∀ op ∈ profileWrite data (cpuPath core' file) l,
          ReadsNothing op ∧ NamesNothing op := by
    intro core' file l hFile
    apply forall_profileWrite
    intro d
    exact ⟨fun core'' hSame => (by cases hSame),
      fileWrite_namesNothing hFile core' d⟩
  refine ⟨?tuned, ?split, ?reads⟩
  case split =>
    unfold clusterOps
    simp only [List.append_assoc, List.singleton_append]
    rfl
  case reads =>
    simp only [List.append_eq, List.forall_mem_append]
    refine ⟨hNode _ _ _ ?_, hNode _ _ _ ?_, hNode _ _ _ ?_,
      hNode _ _ _ ?_, hNode _ _ _ ?_, hNode _ _ _ ?_,
      hTuned _ _, hTuned _ _, hTuned _ _, hData⟩
    all_goals decide

theorem read_mem_clusterOps
    {data : SecPowerProfile}
    {c : Cluster}
    {core core' : Nat}
    (hMem :
      SysfsOp.updateCpuGov core' ∈ clusterOps data c core) :
    core' = core := by
  rcases clusterOps_read data c core with
    ⟨tuned, hSplit, hTuned⟩
  rw [hSplit] at hMem
  rcases List.mem_append.mp hMem with hNode | hRest
  · exact absurd rfl
      (profileWrite_readsNothing data _ _ _ hNode core')
  · rcases List.mem_cons.mp hRest with hSame | hLater
    · exact SysfsOp.updateCpuGov.inj hSame
    · exact absurd rfl ((hTuned _ hLater).1 core')

theorem mem_blockOps
    {data : SecPowerProfile}
    {s : Section}
    {ops : List SysfsOp}
    {op : SysfsOp} :
    op ∈ blockOps data s ops ↔
      data.on s = true ∧ op ∈ ops := by
  unfold blockOps
  split
  · rename_i hOn
    simp [hOn]
  · rename_i hOff
    simp [hOff]

theorem setting_readsNothing
    {op : SysfsOp}
    (hSetting : WritesSetting op) :
    ReadsNothing op := by
  rcases hSetting with ⟨path, _, d, rfl⟩
  intro core hSame
  cases hSame

/- Only the enabled clusters are read. -/
theorem read_mem_profileOps
    {data : SecPowerProfile}
    {core : Nat}
    (hMem : SysfsOp.updateCpuGov core ∈ profileOps data) :
    ∃ c,
      core = firstCore c ∧
        data.on .cpu = true ∧
        data.on (.cluster c) = true := by
  rcases profileOps_split data with
    ⟨settings, hSplit, hSettings⟩
  rw [hSplit] at hMem
  rcases List.mem_append.mp hMem with hFront | hSetting
  · rcases List.mem_append.mp hFront with hOnline | hCpu
    · rcases List.mem_append.mp hOnline with hZero | hFour
      · exact absurd rfl
          (cpuOnline_readsNothing 0 _ hZero core)
      · exact absurd rfl
          (cpuOnline_readsNothing 4 _ hFour core)
    · rcases mem_blockOps.mp hCpu with ⟨hOn, hClusters⟩
      rcases List.mem_append.mp hClusters with
        hApollo | hAtlas
      · rcases mem_blockOps.mp hApollo with
          ⟨hCluster, hRead⟩
        exact ⟨.apollo, read_mem_clusterOps hRead, hOn,
          hCluster⟩
      · rcases mem_blockOps.mp hAtlas with
          ⟨hCluster, hRead⟩
        exact ⟨.atlas, read_mem_clusterOps hRead, hOn,
          hCluster⟩
  · exact absurd rfl
      (setting_readsNothing (hSettings _ hSetting) core)

/-
  The read of an enabled cluster stands at one place of the
  profile, after the statements above.
-/
theorem profileOps_read
    {data : SecPowerProfile}
    {c : Cluster}
    (hCpu : data.on .cpu = true)
    (hCluster : data.on (.cluster c) = true) :
    ∃ rest,
      profileOps data =
        opsBeforeRead data c ++
          .updateCpuGov (firstCore c) :: rest ∧
      SysfsOp.updateCpuGov (firstCore c) ∉
        opsBeforeRead data c ∧
      SysfsOp.updateCpuGov (firstCore c) ∉ rest := by
  rcases profileOps_split data with
    ⟨settings, hSplit, hSettings⟩
  have hNever :
      ∀ {ops : List SysfsOp} {core : Nat},
        (∀ op ∈ ops, ReadsNothing op) →
        SysfsOp.updateCpuGov core ∉ ops :=
    fun hOps hMem => hOps _ hMem _ rfl
  have hOnline := cpuOnline_readsNothing
  have hNode := profileWrite_readsNothing data
  have hLater :
      SysfsOp.updateCpuGov (firstCore c) ∉ settings :=
    hNever (fun op hOp =>
      setting_readsNothing (hSettings op hOp))
  cases c with
  | apollo =>
      rcases clusterOps_read data .apollo 0 with
        ⟨tuned, hTuned, hReads⟩
      refine ⟨tuned ++
        (blockOps data (.cluster .atlas)
          (clusterOps data .atlas 4) ++ settings), ?_, ?_, ?_⟩
      · rw [hSplit]
        simp [blockOps, hCpu, hCluster, hTuned,
          opsBeforeRead, firstCore]
      · simp only [opsBeforeRead, List.mem_append, not_or]
        exact ⟨⟨hNever (hOnline 0), hNever (hOnline 4)⟩,
          hNever (hNode _ _)⟩
      · simp only [List.mem_append, not_or]
        refine ⟨hNever (fun op hOp => (hReads op hOp).1), ?_, hLater⟩
        intro hAtlas
        have hSame :=
          read_mem_clusterOps (mem_blockOps.mp hAtlas).2
        cases hSame
  | atlas =>
      rcases clusterOps_read data .atlas 4 with
        ⟨tuned, hTuned, hReads⟩
      refine ⟨tuned ++ settings, ?_, ?_, ?_⟩
      · rw [hSplit]
        simp [blockOps, hCpu, hCluster, hTuned,
          opsBeforeRead, firstCore]
      · simp only [opsBeforeRead, List.mem_append, not_or]
        refine ⟨⟨⟨hNever (hOnline 0), hNever (hOnline 4)⟩,
          ?_⟩, hNever (hNode _ _)⟩
        intro hApollo
        have hSame :=
          read_mem_clusterOps (mem_blockOps.mp hApollo).2
        cases hSame
      · simp only [List.mem_append, not_or]
        exact ⟨hNever (fun op hOp => (hReads op hOp).1), hLater⟩

/- Statements that read nothing come in any order. -/
theorem readsLast_of_readsNothing
    {ops : List SysfsOp}
    (hReads : ∀ op ∈ ops, ReadsNothing op) :
    ReadsLast ops := by
  apply List.pairwise_of_forall_mem_list
  intro op hOp later _ core d hSame
  exact absurd hSame (hReads op hOp core)

/- Behind statements that name nothing one may have read. -/
theorem ReadsLast.append
    {ops later : List SysfsOp}
    (hOps : ReadsLast ops)
    (hLater : ReadsLast later)
    (hApart :
      ∀ core, .updateCpuGov core ∈ ops →
        ∀ d, .write (governorNode core) d ∉ later) :
    ReadsLast (ops ++ later) := by
  refine List.pairwise_append.mpr ⟨hOps, hLater, ?_⟩
  intro op hOp next hNext core d hRead hWrite
  exact hApart core (hRead ▸ hOp) d (hWrite ▸ hNext)

/- A cluster names the governor of its first CPU. -/
theorem write_mem_clusterOps
    {data : SecPowerProfile}
    {c : Cluster}
    {core core' : Nat}
    {d : Datum}
    (hMem :
      .write (governorNode core') d ∈
        clusterOps data c core) :
    core' = core := by
  rcases clusterOps_read data c core with
    ⟨tuned, hSplit, hTuned⟩
  rw [hSplit] at hMem
  rcases List.mem_append.mp hMem with hNode | hRest
  · unfold profileWrite at hNode
    split at hNode
    · have hSame := List.mem_singleton.mp hNode
      exact (cpuPath_inj (SysfsOp.write.inj hSame).1).1
    · cases hNode
  · rcases List.mem_cons.mp hRest with hSame | hLater
    · cases hSame
    · exact absurd rfl ((hTuned _ hLater).2 core' d)

theorem clusterOps_readsLast
    (data : SecPowerProfile)
    (c : Cluster)
    (core : Nat) :
    ReadsLast (clusterOps data c core) := by
  rcases clusterOps_read data c core with
    ⟨tuned, hSplit, hTuned⟩
  rw [hSplit]
  refine ReadsLast.append
    (readsLast_of_readsNothing
      (profileWrite_readsNothing data _ _)) ?_ ?_
  · refine List.pairwise_cons.mpr ⟨?_,
      readsLast_of_readsNothing
        (fun op hOp => (hTuned op hOp).1)⟩
    intro later hLater core' d _
    exact (hTuned later hLater).2 core' d
  · intro core' hMem
    exact absurd rfl
      (profileWrite_readsNothing data _ _ _ hMem core')

/- A profile names each governor before it reads it. -/
theorem profileOps_readsLast
    (data : SecPowerProfile) :
    ReadsLast (profileOps data) := by
  rcases profileOps_split data with
    ⟨settings, hSplit, hSettings⟩
  have hBlock :
      ∀ s ops, ReadsLast ops →
        ReadsLast (blockOps data s ops) := by
    intro s ops hOps
    unfold blockOps
    split
    · exact hOps
    · exact List.Pairwise.nil
  have hClusters :
      ReadsLast
        (blockOps data (.cluster .apollo)
            (clusterOps data .apollo 0) ++
          blockOps data (.cluster .atlas)
            (clusterOps data .atlas 4)) := by
    refine ReadsLast.append
      (hBlock _ _ (clusterOps_readsLast data .apollo 0))
      (hBlock _ _ (clusterOps_readsLast data .atlas 4)) ?_
    intro core hRead d hWrite
    have hZero :=
      read_mem_clusterOps (mem_blockOps.mp hRead).2
    have hFour :=
      write_mem_clusterOps (mem_blockOps.mp hWrite).2
    rw [hZero] at hFour
    cases hFour
  have hOnline :
      ∀ op ∈ cpuOnline 0 ++ cpuOnline 4,
        ReadsNothing op := by
    intro op hOp
    rcases List.mem_append.mp hOp with hZero | hFour
    · exact cpuOnline_readsNothing 0 op hZero
    · exact cpuOnline_readsNothing 4 op hFour
  rw [hSplit]
  refine ReadsLast.append
    (ReadsLast.append (readsLast_of_readsNothing hOnline)
      (hBlock _ _ hClusters) ?_)
    (readsLast_of_readsNothing
      (fun op hOp => setting_readsNothing (hSettings op hOp)))
    ?_
  · intro core hRead
    exact absurd rfl (hOnline _ hRead core)
  · intro core _ d hWrite
    rcases hSettings _ hWrite with ⟨path, hPath, d', hSame⟩
    have hNode := (SysfsOp.write.inj hSame).1
    exact cpuPath_ne (settingNodes_class path hPath) core _
      hNode

end Power

end Universal7420

------------------------------------------------------------
-- After setProfile
------------------------------------------------------------

namespace Universal7420

namespace Power

open Profiles Utils Fallible

variable {access : Nat → Access}
variable {profile : SecPowerProfiles}

/- Without any change of access it is `setProfile`. -/
theorem setProfileUnder_const
    (profile : SecPowerProfiles)
    (s : PowerState) :
    (setProfileUnder (fun _ => s.sysfs.world.access) profile
        s).map Prod.snd =
      setProfile profile s := by
  unfold setProfileUnder setProfile applyProfile
  simp only
  split
  · cases hData : getProfileData profile with
    | none =>
        rfl
    | some id =>
        simp only
        split
        · have hRun :
              (runOpsUnder (fun _ => s.sysfs.world.access) 0
                  (profileOps (s.profiles id))
                  s.sysfs).map Prod.snd =
                runOps (profileOps (s.profiles id))
                  s.sysfs :=
            runOpsUnder_const rfl
          rw [← hRun]
          rcases runOpsUnder
              (fun _ => s.sysfs.world.access) 0
              (profileOps (s.profiles id)) s.sysfs with
            _ | ⟨done, sysfs⟩
          · rfl
          · rfl
        · rfl
  · rfl

/- The profile that is stored is to be applied. -/
def Applies
    (profile : SecPowerProfiles)
    (s : PowerState)
    (data : SecPowerProfile) : Prop :=
  isModuleEnabled s.sysfs.world "profiles" = true ∧
    ∃ id,
      getProfileData profile = some id ∧
        s.profiles id = data ∧ data.enabled = true

/-
  What holds when `setProfile` has returned.  Either nothing
  was to be done, or all statements have been carried out, or
  those up to the first governor that could not be read.  Each
  of them succeeded exactly if its file could be used at its
  turn, and every file holds the text of the last one that did
  and is about it, or what it held before.
-/
structure CarriedOut
    (access : Nat → Access)
    (profile : SecPowerProfiles)
    (s : PowerState)
    (done : List Done)
    (s' : PowerState) : Prop where
  stored : s'.mCurrentProfile = profile
  skipped :
    (∀ data, ¬ Applies profile s data) →
      done = [] ∧ s'.sysfs = s.sysfs
  complete :
    ∀ data, Applies profile s data →
      (∀ core, (⟨.updateCpuGov core, false⟩ : Done) ∉ done) →
      done.map Done.op = profileOps data
  stopped :
    ∀ data, Applies profile s data →
      ∀ core, (⟨.updateCpuGov core, false⟩ : Done) ∈ done →
      ∃ c,
        core = firstCore c ∧
          done.map Done.op =
            opsBeforeRead data c ++ [.updateCpuGov core]
  used :
    ∀ i (hi : i < done.length),
      done[i].ok =
        done[i].op.usable (access i) s'.sysfs.world
  content :
    ∀ path,
      s'.content path =
        (lastSetting (governorOf s'.sysfs.world) path
          (succeededOps done)).getD (s.content path)

/- A profile that is not applied. -/
theorem CarriedOut.of_skipped
    {s : PowerState}
    (hNot : ∀ data, ¬ Applies profile s data) :
    CarriedOut access profile s []
      { s with mCurrentProfile := profile } where
  stored := rfl
  skipped := fun _ => ⟨rfl, rfl⟩
  complete := fun data hApplies =>
    absurd hApplies (hNot data)
  stopped := fun data hApplies =>
    absurd hApplies (hNot data)
  used := by simp
  content := fun _ => rfl

/- The first governor that is not read is one of a cluster. -/
theorem done_of_failed
    {data : SecPowerProfile}
    {front : List SysfsOp}
    {core : Nat}
    {rest : List SysfsOp}
    (hOps :
      profileOps data =
        front ++ SysfsOp.updateCpuGov core :: rest) :
    ∃ c,
      core = firstCore c ∧ front = opsBeforeRead data c := by
  have hMem :
      SysfsOp.updateCpuGov core ∈ profileOps data := by
    rw [hOps]
    simp
  rcases read_mem_profileOps hMem with
    ⟨c, rfl, hCpu, hCluster⟩
  rcases profileOps_read hCpu hCluster with
    ⟨later, hSplit, hBefore, hAfter⟩
  rw [hSplit] at hOps
  refine ⟨c, rfl, ?_⟩
  exact ((List.append_cons_inj_of_notMem hBefore
    hAfter).mp hOps).1.symm

/- A profile that is applied. -/
theorem CarriedOut.of_applied
    {s : PowerState}
    {data : SecPowerProfile}
    {done : List Done}
    {sysfs : Sysfs}
    (hApplies : Applies profile s data)
    (hRun :
      runOpsUnder access 0 (profileOps data) s.sysfs =
        .ok (done, sysfs)) :
    CarriedOut access profile s done
      { s with
        mCurrentProfile := profile
        sysfs := sysfs } := by
  have hOutcome :
      Outcome access 0 (fun _ => False) done s.sysfs sysfs :=
    runOpsUnder_outcome
      ((profileOps_prepared data).mono (fun _ _ => trivial)
        (fun _ => id))
      (profileOps_readsLast data) (fun _ => False.elim)
      (fun _ => False.elim) hRun
  have hOnly :
      ∀ other, Applies profile s other → other = data := by
    rintro other ⟨_, id, hId, rfl, _⟩
    rcases hApplies with ⟨_, id', hId', rfl, _⟩
    rw [hId] at hId'
    cases hId'
    rfl
  constructor
  case stored =>
    rfl
  case skipped =>
    intro hNot
    exact absurd hApplies (hNot data)
  case complete =>
    intro other hOther hReads
    rw [hOnly other hOther]
    rcases runOpsUnder_done hRun with
      ⟨hAll, _⟩ | ⟨front, core, rest, hDone, _, _⟩
    · exact hAll
    · refine absurd ?_ (hReads core)
      simp [hDone]
  case stopped =>
    intro other hOther core hFailed
    rw [hOnly other hOther]
    rcases runOpsUnder_done hRun with
      ⟨_, hReads⟩ | ⟨front, last, rest, hDone, hOps, hReads⟩
    · have hRead := hReads _ hFailed
      cases hRead
    · -- the one that failed is the last that was carried out
      have hLast : core = last := by
        rw [hDone] at hFailed
        rcases List.mem_append.mp hFailed with hFront | hEnd
        · have hRead := hReads _ hFront
          cases hRead
        · have hSame := List.mem_singleton.mp hEnd
          cases hSame
          rfl
      rcases done_of_failed hOps with ⟨c, hCore, hFront⟩
      refine ⟨c, hLast.trans hCore, ?_⟩
      rw [hDone, hLast, ← hFront]
      simp
  case used =>
    intro i hi
    have hUsed := hOutcome.used i hi
    rwa [Nat.zero_add] at hUsed
  case content =>
    exact hOutcome.content

/-
  Whatever can be opened, the profile is stored, and what the
  nodes hold comes from the statements before the first
  governor that could not be read.
-/
theorem setProfile_carries_out
    {access : Nat → Access}
    {profile : SecPowerProfiles}
    {s s' : PowerState}
    {done : List Done}
    (hSet :
      setProfileUnder access profile s = .ok (done, s')) :
    CarriedOut access profile s done s' := by
  unfold setProfileUnder at hSet
  simp only at hSet
  split at hSet
  · rename_i hModule
    split at hSet
    · cases hSet
    · rename_i id hId
      split at hSet
      · rename_i hEnabled
        rcases bind_eq_ok_iff.mp hSet with
          ⟨⟨steps, sysfs⟩, hRun, hNew⟩
        cases hNew
        exact CarriedOut.of_applied
          ⟨hModule, id, hId, rfl, hEnabled⟩ hRun
      · rename_i hDisabled
        cases hSet
        apply CarriedOut.of_skipped
        rintro data ⟨_, id', hId', rfl, hEnabled⟩
        rw [hId] at hId'
        cases hId'
        exact hDisabled hEnabled
  · rename_i hModule
    cases hSet
    apply CarriedOut.of_skipped
    intro data hApplies
    exact hModule hApplies.1

/- A profile with a first cluster and cpusets. -/
def cpusetProfile : SecPowerProfile :=
  { SecPowerProfile.zero with
    switches := fun s =>
      ⟨s = .profile ∨ s = .ofSection .cpu ∨
          s = .ofSection (.cluster .apollo) ∨
          s = .ofSection .cpusets,
        true⟩
    leaves :=
      Function.update SecPowerProfile.zero.leaves .defaults
        ⟨"0-3", true⟩ }

def cpusetState : PowerState :=
  { bootState with profiles := fun _ => cpusetProfile }

/- The governor of the first cluster cannot be read. -/
def apolloUnreadable : Nat → Access :=
  fun _ =>
    { bootWorld.access with
      readable := fun path =>
        path ≠ cpuPath 0 "cpufreq/scaling_governor" }

/- It is the last thing that is tried. -/
def apolloSteps : List Done :=
  [⟨.write (cpuPath 0 "online") (.bool true), true⟩,
    ⟨.write (cpuPath 4 "online") (.bool true), true⟩,
    ⟨.updateCpuGov 0, false⟩]

theorem apolloUnreadable_steps :
    ∃ sysfs,
      setProfileUnder apolloUnreadable
          SecPowerProfiles.powerSave cpusetState =
        .ok (apolloSteps,
          { cpusetState with
            mCurrentProfile := SecPowerProfiles.powerSave
            sysfs := sysfs }) :=
  ⟨_, rfl⟩

theorem setProfile_apollo_unreadable :
    ∃ s',
      setProfileUnder apolloUnreadable
          SecPowerProfiles.powerSave cpusetState =
        .ok (apolloSteps, s') ∧
      CarriedOut apolloUnreadable SecPowerProfiles.powerSave
        cpusetState apolloSteps s' := by
  rcases apolloUnreadable_steps with ⟨sysfs, hSet⟩
  exact ⟨_, hSet, setProfile_carries_out hSet⟩

end Power

end Universal7420

------------------------------------------------------------
-- Half Applied
------------------------------------------------------------

namespace Universal7420

namespace Power

open Profiles Utils

/-
  The statements of the enabled sections: without the policy
  cores, which come first, and the hotplug switch.
-/
def sectionOps
    (data : SecPowerProfile) : List SysfsOp :=
  ((profileOps data).drop 2).filter
    (fun op =>
      op ≠ .write "/sys/power/enable_dm_hotplug"
        (.bool false))

/- A statement of a cluster whose governor was not read. -/
def ConcernsFailed
    (data : SecPowerProfile)
    (done : List Done)
    (op : SysfsOp) : Prop :=
  ∃ c,
    (⟨.updateCpuGov (firstCore c), false⟩ : Done) ∈ done ∧
      op ∈ clusterOps data c (firstCore c)

/-
  Either the profile is stored and all its sections but those
  of a failing cluster are written, or nothing has changed.
-/
def NotHalfApplied
    (profile : SecPowerProfiles)
    (s : PowerState)
    (done : List Done)
    (s' : PowerState) : Prop :=
  (s'.mCurrentProfile = profile ∧
    ∀ id, getProfileData profile = some id →
      ∀ op ∈ sectionOps (s.profiles id),
        op ∈ done.map Done.op ∨
          ConcernsFailed (s.profiles id) done op) ∨
  (s'.mCurrentProfile = s.mCurrentProfile ∧
    ∀ node, s'.content node = s.content node)

/- The cpusets of the new profile are not written. -/
theorem setProfile_half_applied :
    ∃ done s',
      setProfileUnder apolloUnreadable
          SecPowerProfiles.powerSave cpusetState =
        .ok (done, s') ∧
      ¬ NotHalfApplied SecPowerProfiles.powerSave cpusetState
        done s' := by
  rcases apolloUnreadable_steps with ⟨sysfs, hSet⟩
  refine ⟨_, _, hSet, ?_⟩
  rintro (⟨_, hAll⟩ | ⟨hOld, _⟩)
  · rcases hAll .powerSave rfl
        (.write "/dev/cpuset/cpus" (.string "0-3"))
        (by decide +kernel) with hDone | ⟨c, _, hCluster⟩
    · revert hDone
      decide +kernel
    · cases c with
      | apollo =>
          revert hCluster
          decide +kernel
      | atlas =>
          revert hCluster
          decide +kernel
  · have hNew :
        SecPowerProfiles.powerSave ≠
          cpusetState.mCurrentProfile := by
      decide
    exact hNew hOld

end Power

end Universal7420
