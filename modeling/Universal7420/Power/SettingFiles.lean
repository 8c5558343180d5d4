import Universal7420.Power.LoaderTotality
import Universal7420.Power.ScriptSteps
import Mathlib.Data.List.Nodup

/-
  Which setting `setProfile` writes to which file.

  The calls of `Utils::write` are recorded in order.  Most
  settings go to a file of the same meaning; the table of
  `Power.cpp` crosses one pair in the hmp section.

  Main declarations:
    * `Universal7420.Profiles.WellLoaded`
    * `Universal7420.Utils.writeCalls`
    * `Universal7420.Power.settingFile`
    * `Universal7420.Power.settingTable`
    * `Universal7420.Power.settings_written_iff`
-/

------------------------------------------------------------
-- Loaded Records
------------------------------------------------------------

namespace Universal7420

namespace Profiles

open Xml Fallible

/-
  A member that is set lies in enabled sections, and the
  governor lists end.
-/
structure WellLoaded (p : SecPowerProfile) : Prop where
  owned :
    ∀ l, (p.leaves l).set = true →
      ∀ s ∈ l.sections, p.on s = true
  terminated :
    ∀ c, ∃ i < governorDataSize,
      (p.governorData c i).1 = ""

theorem wellLoaded_of_unset
    {p : SecPowerProfile}
    (hLeaves : p.leaves = SecPowerProfile.zero.leaves)
    (hData :
      p.governorData = SecPowerProfile.zero.governorData) :
    WellLoaded p := by
  constructor
  · intro l hSet
    rw [hLeaves] at hSet
    cases hSet
  · intro c
    rw [hData]
    exact ⟨0, by decide, rfl⟩

theorem WellLoaded.cpugov
    {doc : Document}
    {id : ProfileName}
    {p q : SecPowerProfile}
    {c : Cluster}
    (hLoaded : WellLoaded p)
    (hGovernor : xmlGetCpugov doc id p c = .ok q) :
    WellLoaded q := by
  rcases xmlGetCpugov_eq_ok hGovernor with
    ⟨hSwitches, hLeaves⟩
  constructor
  · intro l hSet s hs
    rw [hLeaves] at hSet
    have hOn := hLoaded.owned l hSet s hs
    rwa [SecPowerProfile.on, hSwitches]
  · intro c'
    rcases xmlGetCpugov_governorData hGovernor with
      hSame | ⟨entries, index, hRoom, hNew⟩
    · rw [hSame]
      exact hLoaded.terminated c'
    · rw [hNew]
      by_cases hCluster : c' = c
      · rw [hCluster, Function.update_self]
        exact ⟨index, hRoom, by rw [Function.update_self]⟩
      · rw [Function.update_of_ne hCluster]
        exact hLoaded.terminated c'

/- A statement sets its member only in enabled sections. -/
theorem WellLoaded.stmt
    {doc : Document}
    {id : ProfileName}
    {p q : SecPowerProfile}
    {stmt : LoadStmt}
    (hLoaded : WellLoaded p)
    (hScript : stmt ∈ loadScript)
    (hStmt : loadStmt doc id p stmt = .ok q) :
    WellLoaded q := by
  unfold loadStmt at hStmt
  split at hStmt
  · rename_i hOn
    cases hAction : stmt.action with
    | cpugov c =>
        simp only [hAction] at hStmt
        exact hLoaded.cpugov hStmt
    | set l =>
        simp only [hAction] at hStmt
        unfold profileSet at hStmt
        rcases bind_eq_ok_iff.mp hStmt with ⟨v, _, hNew⟩
        cases hNew
        have hMem :
            stmt ∈ loadScript.filter
              (fun stmt => stmt.action = .set l) := by
          simpa [hAction] using hScript
        rw [loadScript_filter, List.mem_singleton] at hMem
        constructor
        · intro l' hSet
          by_cases hSame : l' = l
          · rw [hSame]
            rw [hMem] at hOn
            exact List.all_eq_true.mp hOn
          · simp only [Function.update_of_ne hSame] at hSet
            exact hLoaded.owned l' hSet
        · exact hLoaded.terminated
  · cases hStmt
    exact hLoaded

/- A profile is loaded into an untouched record. -/
theorem WellLoaded.load
    {doc : Document}
    {store : Store}
    {id : ProfileName}
    {q : SecPowerProfile}
    (hStore : ∀ name, WellLoaded (store name))
    (hZero : store id = SecPowerProfile.zero)
    (hLoad : loadProfileImpl doc store id = .ok q) :
    WellLoaded q := by
  rcases loadProfileImpl_cases hLoad with ⟨p, hPass, hRest⟩
  rw [hZero] at hPass
  have hFirst : WellLoaded p :=
    wellLoaded_of_unset (switchPass_leaves hPass)
      (switchPass_governorData hPass)
  rcases hRest with ⟨_, hSame⟩ | ⟨_, r, hParent, hLeaves⟩
  · rw [hSame]
    exact hFirst
  · have hCopied : WellLoaded r := by
      unfold inheritParent at hParent
      split at hParent
      · cases hParent
        exact hFirst
      · split at hParent
        · cases hParent
        · rename_i parent _
          cases hParent
          by_cases hSelf : parent = id
          · rw [hSelf, Function.update_self]
            exact hFirst
          · rw [Function.update_of_ne hSelf]
            exact hStore parent
    apply foldlM_invariant _ hCopied hLeaves
    intro stmt hMem s s' hInv hStmt
    exact hInv.stmt hMem hStmt

/- Every record of a loaded store is well loaded. -/
theorem wellLoaded_of_load
    {doc : Document}
    {store : Store}
    (hLoad : loadProfilesImpl doc = .ok store)
    (id : ProfileName) :
    WellLoaded (store id) := by
  have hGeneral :
      ∀ (order : List ProfileName) (first : Store),
        order.Nodup →
        (∀ name ∈ order,
          first name = SecPowerProfile.zero) →
        (∀ name, WellLoaded (first name)) →
        order.foldlM (loadInto doc) first = .ok store →
        ∀ name, WellLoaded (store name) := by
    intro order
    induction order with
    | nil =>
        intro first _ _ hAll hFold
        cases hFold
        exact hAll
    | cons a rest ih =>
        intro first hNodup hZero hAll hFold
        rcases List.nodup_cons.mp hNodup with
          ⟨hFresh, hRestNodup⟩
        rcases foldlM_cons_eq_ok_iff.mp hFold with
          ⟨next, hFirst, hRest⟩
        unfold loadInto at hFirst
        rcases bind_eq_ok_iff.mp hFirst with ⟨p, hOne, hNew⟩
        cases hNew
        refine ih _ hRestNodup ?_ ?_ hRest
        · intro name hMem
          rw [Function.update_of_ne]
          · exact hZero name (by simp [hMem])
          · intro hSame
            exact hFresh (hSame ▸ hMem)
        · intro name
          by_cases hSame : name = a
          · rw [hSame, Function.update_self]
            exact WellLoaded.load hAll (hZero a (by simp))
              hOne
          · rw [Function.update_of_ne hSame]
            exact hAll name
  refine hGeneral ProfileName.loadOrder _ (by decide)
    (fun _ _ => rfl) ?_ hLoad id
  intro name
  exact wellLoaded_of_unset rfl rfl

end Profiles

end Universal7420

------------------------------------------------------------
-- Calls Of Write
------------------------------------------------------------

namespace Universal7420

namespace Utils

/- The calls of `Utils::write` that a script makes. -/
def writeCalls :
    List SysfsOp → Sysfs → List (String × Datum)
| [], _ => []
| .write path d :: ops, sys =>
    (path, d) :: writeCalls ops (write path d sys).2
| .updateCpuGov core :: ops, sys =>
    match updateCpuGov core sys with
    | (true, sys) => writeCalls ops sys
    | (false, _) => []
| .writeCpuGov core file d :: ops, sys =>
    let path := governorFile sys.kCpuGovernors core file
    (if core < nrCpus ∧ sys.world.regular path = true then
        [(path, d)]
      else
        []) ++
      writeCalls ops (writeCpuGov core file d sys).2
| .governorOverrun :: _, _ => []

/- Make calls of `Utils::write` one after the other. -/
def replay
    (calls : List (String × Datum))
    (sys : Sysfs) : Sysfs :=
  calls.foldl (fun sys call => (write call.1 call.2 sys).2)
    sys

theorem replay_world
    (calls : List (String × Datum))
    {sys sys' : Sysfs}
    (hWorld : sys.world = sys'.world) :
    (replay calls sys).world =
      (replay calls sys').world := by
  induction calls generalizing sys sys' with
  | nil =>
      exact hWorld
  | cons call calls ih =>
      apply ih
      change (write call.1 call.2 sys).2.world =
        (write call.1 call.2 sys').2.world
      unfold write
      rw [hWorld]
      split
      · rfl
      · exact hWorld

/- The nodes after a script are those after its calls. -/
theorem runOps_eq_replay
    {ops : List SysfsOp}
    {sys sys' : Sysfs}
    (hRun : runOps ops sys = .ok sys') :
    sys'.world = (replay (writeCalls ops sys) sys).world := by
  induction ops generalizing sys with
  | nil =>
      cases hRun
      rfl
  | cons op ops ih =>
      cases op with
      | write path d =>
          exact ih hRun
      | updateCpuGov core =>
          have hWorld := updateCpuGov_world core sys
          rcases hUpdate : updateCpuGov core sys with
            ⟨read, next⟩
          rw [hUpdate] at hWorld
          cases read with
          | true =>
              simp only [runOps, hUpdate] at hRun
              simp only [writeCalls, hUpdate]
              rw [ih hRun]
              exact replay_world _ hWorld
          | false =>
              simp only [runOps, hUpdate] at hRun
              simp only [writeCalls, hUpdate]
              cases hRun
              exact hWorld
      | writeCpuGov core file d =>
          rw [writeCalls, ih hRun]
          unfold writeCpuGov governorFile
          by_cases hCore : core < nrCpus
          · simp only [hCore, if_true, true_and]
            split
            · rfl
            · rfl
          · simp [hCore]
      | governorOverrun =>
          cases hRun

/- Every `updateCpuGov` that a script reaches succeeds. -/
def ReadsSucceed :
    List SysfsOp → Sysfs → Prop
| [], _ => True
| .write path d :: ops, sys =>
    ReadsSucceed ops (write path d sys).2
| .updateCpuGov core :: ops, sys =>
    (updateCpuGov core sys).1 = true ∧
      ReadsSucceed ops (updateCpuGov core sys).2
| .writeCpuGov core file d :: ops, sys =>
    ReadsSucceed ops (writeCpuGov core file d sys).2
| .governorOverrun :: _, _ => True

/- What is written to one file, in order. -/
def writesTo
    (path : String)
    (calls : List (String × Datum)) : List Datum :=
  calls.filterMap
    (fun call => if call.1 = path then some call.2 else none)

/- What a statement writes to a file that it names. -/
def SysfsOp.named?
    (path : String) :
    SysfsOp → Option Datum
| .write p d => if p = path then some d else none
| .updateCpuGov _ | .writeCpuGov _ _ _
| .governorOverrun => none

/- What the statements write to a file that they name. -/
def namedWrites
    (path : String)
    (ops : List SysfsOp) : List Datum :=
  ops.filterMap (SysfsOp.named? path)

/-
  A script that goes to its end writes to a file, which is not
  one of a governor, what its statements name it for.
-/
theorem writesTo_writeCalls
    {path : String}
    (hFile :
      ∀ governor core file,
        governorFile governor core file ≠ path)
    {ops : List SysfsOp}
    {sys : Sysfs}
    (hReads : ReadsSucceed ops sys)
    (hEnds : SysfsOp.governorOverrun ∉ ops) :
    writesTo path (writeCalls ops sys) =
      namedWrites path ops := by
  induction ops generalizing sys with
  | nil =>
      rfl
  | cons op ops ih =>
      have hLater : SysfsOp.governorOverrun ∉ ops := by
        intro hMem
        exact hEnds (List.mem_cons_of_mem _ hMem)
      cases op with
      | write p d =>
          have hRest := ih hReads hLater
          unfold writesTo namedWrites at hRest ⊢
          simp only [writeCalls, List.filterMap_cons,
            SysfsOp.named?, hRest]
      | updateCpuGov core =>
          rcases hReads with ⟨hRead, hReads⟩
          have hRest := ih hReads hLater
          rw [writeCalls]
          split
          · rename_i next hUpdate
            rw [hUpdate] at hRest
            exact hRest
          · rename_i next hUpdate
            rw [hUpdate] at hRead
            cases hRead
      | writeCpuGov core file d =>
          have hRest := ih hReads hLater
          unfold writesTo namedWrites at hRest ⊢
          simp only [writeCalls, List.filterMap_append,
            List.filterMap_cons, SysfsOp.named?, hRest]
          split
          · simp [hFile]
          · simp
      | governorOverrun =>
          exact absurd List.mem_cons_self hEnds

/- A path with few slashes is not a file of a governor. -/
theorem governorFile_ne_of_count
    {path : String}
    (hCount : path.toList.count '/' < 8)
    (governor : Nat → String)
    (core : Nat)
    (file : String) :
    governorFile governor core file ≠ path := by
  intro hSame
  rw [← hSame, governorFile, count_cpuPath] at hCount
  simp only [String.toList_append, List.count_append]
    at hCount
  have hDir : "cpufreq/".toList.count '/' = 1 := by
    decide
  have hSlash : "/".toList.count '/' = 1 := by
    decide
  omega

end Utils

end Universal7420

------------------------------------------------------------
-- Files Of Settings
------------------------------------------------------------

namespace Universal7420

namespace Power

open Profiles Utils

/- The file of the same meaning as a setting. -/
def settingFile : Leaf → Option String
| .governor c =>
    some (cpuPath (firstCore c) "cpufreq/scaling_governor")
| .freqMin c =>
    some (cpuPath (firstCore c) "cpufreq/scaling_min_freq")
| .freqMax c =>
    some (cpuPath (firstCore c) "cpufreq/scaling_max_freq")
| .freqHispeed _ | .freqBoost _ => none
| .core1 c => some (cpuPath (firstCore c) "online")
| .core2 c => some (cpuPath (firstCore c + 1) "online")
| .core3 c => some (cpuPath (firstCore c + 2) "online")
| .core4 c => some (cpuPath (firstCore c + 3) "online")
| .defaults => some "/dev/cpuset/cpus"
| .foreground => some "/dev/cpuset/foreground/cpus"
| .foregroundBoost =>
    some "/dev/cpuset/foreground/boost/cpus"
| .background => some "/dev/cpuset/background/cpus"
| .systemBackground =>
    some "/dev/cpuset/system-background/cpus"
| .topApp => some "/dev/cpuset/top-app/cpus"
| .boost => some "/sys/kernel/hmp/boost"
| .semiboost => some "/sys/kernel/hmp/semiboost"
| .powerMigration => some "/sys/kernel/hmp/power_migration"
| .activeDownMigration =>
    some "/sys/kernel/hmp/active_down_migration"
| .aggressiveUpMigration =>
    some "/sys/kernel/hmp/aggressive_up_migration"
| .thresholdDown => some "/sys/kernel/hmp/down_threshold"
| .thresholdUp => some "/sys/kernel/hmp/up_threshold"
| .sbThresholdDown =>
    some "/sys/kernel/hmp/sb_down_threshold"
| .sbThresholdUp => some "/sys/kernel/hmp/sb_up_threshold"
| .dvfsFreqMin =>
    some "/sys/devices/14ac0000.mali/dvfs_min_lock"
| .dvfsFreqMax =>
    some "/sys/devices/14ac0000.mali/dvfs_max_lock"
| .highspeedFreq =>
    some "/sys/devices/14ac0000.mali/highspeed_clock"
| .highspeedLoad =>
    some "/sys/devices/14ac0000.mali/highspeed_load"
| .pewq =>
    some "/sys/module/workqueue/parameters/power_efficient"
| .controlTemp => some "/sys/power/ipa/control_temp"
| .modeToggle =>
    some ("/sys/devices/virtual/sec/sec_slow/" ++
      "enforced_slow_mode")
| .timerRate =>
    some "/sys/devices/virtual/sec/sec_slow/timer_rate"
| .tail => some "/sys/class/input_booster/tail"
| .head => some "/sys/class/input_booster/head"

/- The files of the policy cores, which are set to 1 first. -/
def policyWrites (path : String) : List Datum :=
  if path = cpuPath 0 "online" ∨
      path = cpuPath 4 "online" then
    [.bool true]
  else
    []

/- The value of a member, if it is set in enabled sections. -/
def settingWrites
    (data : SecPowerProfile)
    (guards : List Section)
    (l : Leaf) : List Datum :=
  if guards.all data.on = true ∧
      (data.leaves l).set = true then
    [datum l.kind (data.leaves l).value]
  else
    []

/-
  The calls write to the file of every setting its own value
  if all sections around it are enabled and it is set, and
  nothing otherwise.
-/
def SettingsWritten
    (data : SecPowerProfile)
    (calls : List (String × Datum)) : Prop :=
  ∀ l path, settingFile l = some path →
    writesTo path calls =
      if data.enabled = true then
        policyWrites path ++ settingWrites data l.sections l
      else
        []

/- The calls of `Utils::write` in `setProfile`. -/
def setProfileCalls
    (profile : SecPowerProfiles)
    (s : PowerState) : List (String × Datum) :=
  if isModuleEnabled s.sysfs.world "profiles" then
    match getProfileData profile with
    | none => []
    | some id =>
        if (s.profiles id).enabled then
          writeCalls (profileOps (s.profiles id)) s.sysfs
        else
          []
  else
    []

/- The nodes after `setProfile` are those after its calls. -/
theorem setProfile_eq_replay
    {profile : SecPowerProfiles}
    {s s' : PowerState}
    (hSet : setProfile profile s = .ok s') :
    s'.sysfs.world =
      (replay (setProfileCalls profile s) s.sysfs).world := by
  unfold setProfile applyProfile at hSet
  unfold setProfileCalls
  by_cases hModule :
      isModuleEnabled s.sysfs.world "profiles" = true
  · simp only [hModule, if_true] at hSet ⊢
    cases hData : getProfileData profile with
    | none =>
        simp only [hData] at hSet
        cases hSet
    | some id =>
        simp only [hData] at hSet ⊢
        by_cases hEnabled : (s.profiles id).enabled = true
        · simp only [hEnabled, if_true] at hSet ⊢
          rcases Fallible.bind_eq_ok_iff.mp hSet with
            ⟨sysfs, hRun, hNew⟩
          cases hNew
          exact runOps_eq_replay hRun
        · simp only [hEnabled] at hSet ⊢
          cases hSet
          rfl
  · simp only [hModule] at hSet ⊢
    cases hSet
    rfl

end Power

end Universal7420

------------------------------------------------------------
-- The Table Of setProfile
------------------------------------------------------------

namespace Universal7420

namespace Power

open Profiles Utils

/- A `PROFILE_WRITE` with the sections whose `if` it is in. -/
structure SettingStmt where
  guards : List Section
  path : String
  leaf : Leaf
deriving DecidableEq

/- The statements of a cluster that name their file. -/
def clusterTable
    (c : Cluster)
    (core : Nat) : List SettingStmt :=
  [⟨[.cpu, .cluster c],
      cpuPath core "cpufreq/scaling_governor", .governor c⟩,
    ⟨[.cpu, .cluster c],
      cpuPath core "cpufreq/scaling_min_freq", .freqMin c⟩,
    ⟨[.cpu, .cluster c],
      cpuPath core "cpufreq/scaling_max_freq", .freqMax c⟩,
    ⟨[.cpu, .cluster c], cpuPath core "online", .core1 c⟩,
    ⟨[.cpu, .cluster c], cpuPath (core + 1) "online",
      .core2 c⟩,
    ⟨[.cpu, .cluster c], cpuPath (core + 2) "online",
      .core3 c⟩,
    ⟨[.cpu, .cluster c], cpuPath (core + 3) "online",
      .core4 c⟩]

/- All statements that name the file of a setting. -/
def settingTable : List SettingStmt :=
  clusterTable .apollo 0 ++ clusterTable .atlas 4 ++
    [⟨[.cpusets], "/dev/cpuset/cpus", .defaults⟩,
      ⟨[.cpusets], "/dev/cpuset/foreground/cpus",
        .foreground⟩,
      ⟨[.cpusets], "/dev/cpuset/foreground/boost/cpus",
        .foregroundBoost⟩,
      ⟨[.cpusets], "/dev/cpuset/background/cpus",
        .background⟩,
      ⟨[.cpusets], "/dev/cpuset/system-background/cpus",
        .systemBackground⟩,
      ⟨[.cpusets], "/dev/cpuset/top-app/cpus", .topApp⟩,
      ⟨[.ipa], "/sys/power/ipa/control_temp", .controlTemp⟩,
      ⟨[.gpu, .dvfs],
        "/sys/devices/14ac0000.mali/dvfs_min_lock",
        .dvfsFreqMin⟩,
      ⟨[.gpu, .dvfs],
        "/sys/devices/14ac0000.mali/dvfs_max_lock",
        .dvfsFreqMax⟩,
      ⟨[.gpu, .highspeed],
        "/sys/devices/14ac0000.mali/highspeed_clock",
        .highspeedFreq⟩,
      ⟨[.gpu, .highspeed],
        "/sys/devices/14ac0000.mali/highspeed_load",
        .highspeedLoad⟩,
      ⟨[.hmp], "/sys/kernel/hmp/boost", .boost⟩,
      ⟨[.hmp], "/sys/kernel/hmp/semiboost", .semiboost⟩,
      ⟨[.hmp], "/sys/kernel/hmp/power_migration",
        .powerMigration⟩,
      ⟨[.hmp], "/sys/kernel/hmp/active_down_migration",
        .semiboost⟩,
      ⟨[.hmp], "/sys/kernel/hmp/aggressive_up_migration",
        .aggressiveUpMigration⟩,
      ⟨[.hmp, .threshold], "/sys/kernel/hmp/down_threshold",
        .thresholdDown⟩,
      ⟨[.hmp, .threshold], "/sys/kernel/hmp/up_threshold",
        .thresholdUp⟩,
      ⟨[.hmp, .sbThreshold],
        "/sys/kernel/hmp/sb_down_threshold",
        .sbThresholdDown⟩,
      ⟨[.hmp, .sbThreshold],
        "/sys/kernel/hmp/sb_up_threshold", .sbThresholdUp⟩,
      ⟨[.kernel],
        "/sys/module/workqueue/parameters/power_efficient",
        .pewq⟩,
      ⟨[.slow],
        "/sys/devices/virtual/sec/sec_slow/" ++
          "enforced_slow_mode", .modeToggle⟩,
      ⟨[.slow],
        "/sys/devices/virtual/sec/sec_slow/timer_rate",
        .timerRate⟩,
      ⟨[.inputBooster], "/sys/class/input_booster/tail",
        .tail⟩,
      ⟨[.inputBooster], "/sys/class/input_booster/head",
        .head⟩]

/- What a statement writes to a file. -/
def SettingStmt.writes
    (data : SecPowerProfile)
    (path : String)
    (stmt : SettingStmt) : List Datum :=
  if stmt.path = path then
    settingWrites data stmt.guards stmt.leaf
  else
    []

end Power

end Universal7420

------------------------------------------------------------
-- From The Script To The Table
------------------------------------------------------------

namespace Universal7420

namespace Power

open Profiles Utils

variable {data : SecPowerProfile}
variable {path : String}

/- Statements write to a file what a part of the table says. -/
def Names
    (data : SecPowerProfile)
    (path : String)
    (ops : List SysfsOp)
    (stmts : List SettingStmt) : Prop :=
  namedWrites path ops =
    stmts.flatMap (SettingStmt.writes data path)

namespace Names

variable {ops later : List SysfsOp}
variable {stmts more : List SettingStmt}

theorem append
    (hOps : Names data path ops stmts)
    (hLater : Names data path later more) :
    Names data path (ops ++ later) (stmts ++ more) := by
  unfold Names at hOps hLater ⊢
  rw [List.flatMap_append, ← hOps, ← hLater]
  exact List.filterMap_append

theorem silent
    (hOps : namedWrites path ops = []) :
    Names data path ops [] :=
  hOps

theorem profileWrite
    (p : String)
    (l : Leaf) :
    Names data path (profileWrite data p l)
      [⟨[], p, l⟩] := by
  simp only [Names, Power.profileWrite, List.flatMap_cons,
    List.flatMap_nil, List.append_nil, SettingStmt.writes,
    settingWrites]
  by_cases hSet : (data.leaves l).set = true
  · by_cases hPath : p = path
    · simp [namedWrites, SysfsOp.named?, hPath, hSet]
    · simp [namedWrites, SysfsOp.named?, hPath, hSet]
  · simp [namedWrites, hSet]

/- An enclosing `if` is a guard of every statement in it. -/
theorem blockOps
    (s : Section)
    (hOps : Names data path ops stmts) :
    Names data path (blockOps data s ops)
      (stmts.map (fun stmt =>
        { stmt with guards := s :: stmt.guards })) := by
  have hGuard :
      ∀ stmt : SettingStmt,
        SettingStmt.writes data path
            { stmt with guards := s :: stmt.guards } =
          if data.on s then
            SettingStmt.writes data path stmt
          else
            [] := by
    intro stmt
    unfold SettingStmt.writes settingWrites
    by_cases hOn : data.on s = true
    · simp [hOn]
    · simp [hOn]
  unfold Names at hOps ⊢
  rw [List.flatMap_map]
  simp only [hGuard, Power.blockOps]
  by_cases hOn : data.on s = true
  · simp only [hOn, if_true, hOps]
  · simp [hOn, namedWrites]

theorem clusterOps
    (c : Cluster)
    (core : Nat) :
    Names data path (clusterOps data c core)
      ((clusterTable c core).map (fun stmt =>
        { stmt with guards := [] })) := by
  have hTuned :
      ∀ file l,
        Names data path (clusterWrite data core file l)
          [] :=
    fun _ _ => .silent rfl
  have hGovernor :
      Names data path (governorDataOps data c core) [] := by
    apply Names.silent
    apply List.filterMap_eq_nil_iff.mpr
    apply forall_governorDataOps
    · intro file d
      rfl
    · rfl
  have hUpdate :
      Names data path [.updateCpuGov core] [] :=
    .silent rfl
  exact profileWrite _ _
    |>.append hUpdate
    |>.append (profileWrite _ _)
    |>.append (profileWrite _ _)
    |>.append (profileWrite _ _)
    |>.append (profileWrite _ _)
    |>.append (profileWrite _ _)
    |>.append (profileWrite _ _)
    |>.append (hTuned _ _)
    |>.append (hTuned _ _)
    |>.append (hTuned _ _)
    |>.append hGovernor

end Names

/- What the whole script writes to the file of a setting. -/
theorem namedWrites_profileOps
    (hIpa : path ≠ "/sys/power/ipa/enabled")
    (hHotplug : path ≠ "/sys/power/enable_dm_hotplug") :
    namedWrites path (profileOps data) =
      policyWrites path ++
        settingTable.flatMap
          (SettingStmt.writes data path) := by
  have hFixed :
      ∀ p d, path ≠ p →
        Names data path [.write p d] [] := by
    intro p d hOther
    apply Names.silent
    simp [namedWrites, SysfsOp.named?, hOther.symm]
  have hPolicy :
      namedWrites path (cpuOnline 0 ++ cpuOnline 4) =
        policyWrites path := by
    have hApart : cpuPath 0 "online" ≠ cpuPath 4 "online" := by
      decide
    unfold policyWrites
    by_cases hZero : path = cpuPath 0 "online"
    · simp [namedWrites, cpuOnline, SysfsOp.named?, hZero,
        hApart.symm]
    · by_cases hFour : path = cpuPath 4 "online"
      · simp [namedWrites, cpuOnline, SysfsOp.named?, hFour,
          hApart]
      · simp [namedWrites, cpuOnline, SysfsOp.named?,
          Ne.symm hZero, Ne.symm hFour, hZero, hFour]
  have hTable :
      ∃ rest stmts,
        profileOps data =
          (cpuOnline 0 ++ cpuOnline 4) ++ rest ∧
        Names data path rest stmts ∧
        stmts = settingTable := by
    apply Exists.intro
    apply Exists.intro
    refine ⟨?split, ?names, ?same⟩
    case split =>
      unfold profileOps
      simp only [List.append_assoc]
      rfl
    case names =>
      -- the guards and the order are read off the blocks
      repeat'
        first
        | with_reducible exact Names.profileWrite _ _
        | with_reducible exact Names.clusterOps _ _
        | with_reducible exact hFixed _ _ hIpa
        | with_reducible exact hFixed _ _ hHotplug
        | with_reducible apply Names.blockOps
        | with_reducible apply Names.append
    case same =>
      rfl
  rcases hTable with ⟨rest, stmts, hSplit, hNames, hSame⟩
  rw [hSplit, ← hPolicy, ← hSame, ← hNames]
  exact List.filterMap_append

end Power

end Universal7420

------------------------------------------------------------
-- Settings And Their Files
------------------------------------------------------------

namespace Universal7420

namespace Power

open Profiles Utils

/- The member that is written to the file of a setting. -/
def tableLeaf : Leaf → Leaf
| .activeDownMigration => .semiboost
| l => l

/- The sections that the write of a setting is guarded by. -/
def tableGuards : Leaf → List Section
| .core1 c | .core2 c | .core3 c | .core4 c =>
    [.cpu, .cluster c]
| l => l.sections

variable {data : SecPowerProfile}
variable {path : String}
variable {l : Leaf}

/- The nodes of the script are different from each other. -/
theorem nodes_nodup :
    ("/sys/power/ipa/enabled" ::
      "/sys/power/enable_dm_hotplug" ::
        settingTable.map SettingStmt.path).Nodup := by
  apply List.Nodup.of_map String.toList
  simp only [settingTable, clusterTable, List.map_append,
    List.map_cons, List.map_nil, cpuPath_toList,
    String.toList_append]
  repeat rw [String.toList_ofList]
  decide +kernel

/- The table has a statement for every setting file. -/
theorem setting_mem
    (hFile : settingFile l = some path) :
    ⟨tableGuards l, path, tableLeaf l⟩ ∈ settingTable := by
  cases l with
  | governor c | freqMin c | freqMax c | freqHispeed c
  | freqBoost c | core1 c | core2 c | core3 c | core4 c =>
      cases c <;> cases hFile <;>
        simp [settingTable, clusterTable, tableGuards,
          tableLeaf, firstCore, Leaf.sections]
  | _ =>
      cases hFile
      simp [settingTable, tableGuards, tableLeaf,
        Leaf.sections]

/- A setting file is no other node of the script. -/
theorem settingFile_ne
    (hFile : settingFile l = some path) :
    path ≠ "/sys/power/ipa/enabled" ∧
      path ≠ "/sys/power/enable_dm_hotplug" := by
  have hMem :
      path ∈ settingTable.map SettingStmt.path :=
    List.mem_map_of_mem (setting_mem hFile)
  rcases List.nodup_cons.mp nodes_nodup with ⟨hIpa, hRest⟩
  rcases List.nodup_cons.mp hRest with ⟨hHotplug, _⟩
  constructor
  · intro hSame
    apply hIpa
    rw [← hSame]
    exact List.mem_cons_of_mem _ hMem
  · intro hSame
    apply hHotplug
    rw [← hSame]
    exact hMem

theorem settingFile_count
    (hFile : settingFile l = some path) :
    path.toList.count '/' < 8 := by
  have hAll :
      ∀ stmt ∈ settingTable,
        stmt.path.toList.count '/' < 8 := by
    simp only [settingTable, clusterTable,
      List.forall_mem_append, List.forall_mem_cons,
      cpuPath_toList, String.toList_append]
    repeat rw [String.toList_ofList]
    decide +kernel
  exact hAll _ (setting_mem hFile)

/- The table has only one statement for a setting file. -/
theorem settingTable_filter
    (hFile : settingFile l = some path) :
    settingTable.filter (fun stmt => stmt.path = path) =
      [⟨tableGuards l, path, tableLeaf l⟩] := by
  have hPaths :
      (settingTable.map SettingStmt.path).Nodup :=
    nodes_nodup.tail.tail
  rcases List.append_of_mem (setting_mem hFile) with
    ⟨before, after, hTable⟩
  rw [hTable, List.map_append, List.map_cons] at hPaths
  rcases List.nodup_append.mp hPaths with
    ⟨_, hAfter, hApart⟩
  have hBeforeNone :
      ∀ stmt ∈ before, stmt.path ≠ path := by
    intro stmt hMem
    exact hApart _ (List.mem_map_of_mem hMem) _
      List.mem_cons_self
  have hAfterNone :
      ∀ stmt ∈ after, stmt.path ≠ path := by
    intro stmt hMem hSame
    apply (List.nodup_cons.mp hAfter).1
    exact List.mem_map.mpr ⟨stmt, hMem, hSame⟩
  rw [hTable, List.filter_append, List.filter_cons_of_pos
    (by simp), List.filter_eq_nil_iff.mpr,
    List.filter_eq_nil_iff.mpr, List.nil_append]
  · simpa using hAfterNone
  · simpa using hBeforeNone

theorem flatMap_writes
    (stmts : List SettingStmt) :
    stmts.flatMap (SettingStmt.writes data path) =
      (stmts.filter (fun stmt => stmt.path = path)).flatMap
        (fun stmt =>
          settingWrites data stmt.guards stmt.leaf) := by
  induction stmts with
  | nil =>
      rfl
  | cons stmt stmts ih =>
      by_cases hPath : stmt.path = path
      · simp [SettingStmt.writes, hPath, ih]
      · simp [SettingStmt.writes, hPath, ih]

/- What the script writes to the file of a setting. -/
theorem namedWrites_setting
    (hFile : settingFile l = some path) :
    namedWrites path (profileOps data) =
      policyWrites path ++
        settingWrites data (tableGuards l)
          (tableLeaf l) := by
  rcases settingFile_ne hFile with ⟨hIpa, hHotplug⟩
  rw [namedWrites_profileOps hIpa hHotplug, flatMap_writes,
    settingTable_filter hFile]
  simp

/- The governor lists of a loaded profile end. -/
theorem overrun_not_mem
    (hLoaded : WellLoaded data) :
    SysfsOp.governorOverrun ∉ profileOps data := by
  have hWrite :
      ∀ p m,
        SysfsOp.governorOverrun ∉ profileWrite data p m := by
    intro p m
    unfold profileWrite
    split
    · simp
    · simp
  have hGovernor :
      ∀ c core,
        SysfsOp.governorOverrun ∉
          governorDataOps data c core := by
    intro c core hMem
    rcases hLoaded.terminated c with ⟨i, hi, hName⟩
    rcases List.mem_append.mp hMem with hEntry | hEnd
    · rcases List.mem_map.mp hEntry with ⟨_, _, hSame⟩
      cases hSame
    · split at hEnd
      · rename_i hAll
        have hMemEntry :
            data.governorData c i ∈
              (List.range 64).map (data.governorData c) :=
          List.mem_map_of_mem (List.mem_range.mpr hi)
        have hNamed :=
          List.all_eq_true.mp hAll _ hMemEntry
        simp [hName] at hNamed
      · cases hEnd
  have hCluster :
      ∀ c core,
        SysfsOp.governorOverrun ∉
          clusterOps data c core := by
    intro c core
    simp [clusterOps, clusterWrite, hWrite, hGovernor]
  have hBlock :
      ∀ s ops, SysfsOp.governorOverrun ∉ ops →
        SysfsOp.governorOverrun ∉ blockOps data s ops := by
    intro s ops hOps
    unfold blockOps
    split
    · exact hOps
    · simp
  rcases profileOps_split data with
    ⟨settings, hSplit, hSettings⟩
  intro hMem
  rw [hSplit] at hMem
  rcases List.mem_append.mp hMem with hFirst | hLater
  · rcases List.mem_append.mp hFirst with hPolicy | hCpu
    · simp [cpuOnline] at hPolicy
    · refine hBlock _ _ ?_ hCpu
      rw [List.mem_append, not_or]
      exact ⟨hBlock _ _ (hCluster _ _),
        hBlock _ _ (hCluster _ _)⟩
  · rcases hSettings _ hLater with ⟨_, _, _, hSame⟩
    cases hSame

/-
  The crossed pair: `semiboost` and `active_down_migration`
  are both unset, or set to the same value.
-/
def PairAgrees (data : SecPowerProfile) : Prop :=
  (data.leaves .semiboost).set =
      (data.leaves .activeDownMigration).set ∧
    ((data.leaves .activeDownMigration).set = true →
      (data.leaves .semiboost).value =
        (data.leaves .activeDownMigration).value)

/- Every other setting is written under its own sections. -/
theorem settingWrites_own
    (hLoaded : WellLoaded data)
    (hOther : l ≠ .activeDownMigration) :
    settingWrites data (tableGuards l) (tableLeaf l) =
      settingWrites data l.sections l := by
  have hLeaf : tableLeaf l = l := by
    cases l <;> first | rfl | exact absurd rfl hOther
  have hGuards :
      ∀ s ∈ tableGuards l, s ∈ l.sections := by
    cases l <;> simp [tableGuards, Leaf.sections]
  rw [hLeaf]
  unfold settingWrites
  by_cases hSet : (data.leaves l).set = true
  · have hOn := hLoaded.owned l hSet
    have hSections : l.sections.all data.on = true :=
      List.all_eq_true.mpr hOn
    have hTable : (tableGuards l).all data.on = true :=
      List.all_eq_true.mpr
        (fun s hs => hOn s (hGuards s hs))
    rw [hSections, hTable]
  · simp [hSet]

/- The crossed pair is right if the two members agree. -/
theorem settingWrites_crossed :
    settingWrites data [.hmp] .semiboost =
        settingWrites data [.hmp] .activeDownMigration ↔
      (data.on .hmp = true → PairAgrees data) := by
  unfold settingWrites PairAgrees
  by_cases hOn : data.on .hmp = true
  · cases hFirst : (data.leaves .semiboost).set with
    | true =>
        cases hSecond :
            (data.leaves .activeDownMigration).set with
        | true =>
            simp [hOn, datum, Leaf.kind]
        | false =>
            simp [hOn]
    | false =>
        cases hSecond :
            (data.leaves .activeDownMigration).set with
        | true =>
            simp [hOn]
        | false =>
            simp [hOn]
  · simp [hOn]

section Calls

variable {doc : Xml.Document}
variable {s : PowerState}
variable {profile : SecPowerProfiles}
variable {id : ProfileName}

/- What `setProfile` writes to the file of a setting. -/
theorem writesTo_setProfileCalls
    (hLoad : loadProfilesImpl doc = .ok s.profiles)
    (hModule :
      isModuleEnabled s.sysfs.world "profiles" = true)
    (hProfile : getProfileData profile = some id)
    (hReads :
      ReadsSucceed (profileOps (s.profiles id)) s.sysfs)
    (hEnabled : (s.profiles id).enabled = true)
    (hFile : settingFile l = some path) :
    writesTo path (setProfileCalls profile s) =
      policyWrites path ++
        settingWrites (s.profiles id) (tableGuards l)
          (tableLeaf l) := by
  have hLoaded := wellLoaded_of_load hLoad id
  have hCount := settingFile_count hFile
  rw [← namedWrites_setting hFile]
  unfold setProfileCalls
  simp only [hModule, hProfile, hEnabled, if_true]
  exact writesTo_writeCalls
    (governorFile_ne_of_count hCount) hReads
    (overrun_not_mem hLoaded)

/-
  For every loaded profile, `setProfile` writes every setting
  to its own file if and only if the profile or its hmp
  section is off, or the crossed pair agrees.
-/
theorem settings_written_iff
    (hLoad : loadProfilesImpl doc = .ok s.profiles)
    (hModule :
      isModuleEnabled s.sysfs.world "profiles" = true)
    (hProfile : getProfileData profile = some id)
    (hReads :
      ReadsSucceed (profileOps (s.profiles id)) s.sysfs) :
    SettingsWritten (s.profiles id)
        (setProfileCalls profile s) ↔
      ((s.profiles id).enabled = true →
        (s.profiles id).on .hmp = true →
          PairAgrees (s.profiles id)) := by
  by_cases hEnabled : (s.profiles id).enabled = true
  · have hCalls :
        ∀ l path, settingFile l = some path →
          writesTo path (setProfileCalls profile s) =
            policyWrites path ++
              settingWrites (s.profiles id) (tableGuards l)
                (tableLeaf l) :=
      fun l path hFile =>
        writesTo_setProfileCalls hLoad hModule hProfile
          hReads hEnabled hFile
    simp only [hEnabled, forall_const]
    rw [← settingWrites_crossed]
    unfold SettingsWritten
    simp only [hEnabled, if_true]
    constructor
    · intro hWritten
      have hPair := hWritten .activeDownMigration _ rfl
      rw [hCalls .activeDownMigration _ rfl] at hPair
      exact List.append_cancel_left hPair
    · intro hPair l path hFile
      rw [hCalls l path hFile]
      by_cases hCrossed : l = .activeDownMigration
      · rw [hCrossed]
        exact congrArg (policyWrites path ++ ·) hPair
      · have hLoaded := wellLoaded_of_load hLoad id
        rw [settingWrites_own hLoaded hCrossed]
  · have hNone : setProfileCalls profile s = [] := by
      simp [setProfileCalls, hProfile, hEnabled]
    unfold SettingsWritten
    rw [hNone]
    simp [hEnabled, writesTo]

end Calls

end Power

end Universal7420

------------------------------------------------------------
-- A Profile With An hmp Section
------------------------------------------------------------

namespace Universal7420

namespace Power

open Profiles Utils

/- `screen_off` sets the two members of the crossed pair. -/
def hmpDocument
    (semiboost activeDown : String) : Xml.Document :=
  screenOffDocument
    [textElement "enabled" "true",
      .element "hmp" []
        [textElement "enabled" "true",
          textElement "semiboost" semiboost,
          textElement "active_down_migration" activeDown]]

/- Without the cpu section no governor is read. -/
theorem readsSucceed_of_cpu_off
    {data : SecPowerProfile}
    (hOff : data.on .cpu = false)
    (sys : Sysfs) :
    ReadsSucceed (profileOps data) sys := by
  have hWrites :
      ∀ (ops : List SysfsOp) (sys : Sysfs),
        (∀ op ∈ ops, ∃ path d, op = .write path d) →
        ReadsSucceed ops sys := by
    intro ops
    induction ops with
    | nil =>
        intro sys _
        trivial
    | cons op ops ih =>
        intro sys hOps
        rcases hOps op (by simp) with ⟨path, d, rfl⟩
        apply ih
        intro op' hMem
        exact hOps op' (by simp [hMem])
  apply hWrites
  intro op hMem
  rcases profileOps_split data with
    ⟨settings, hSplit, hSettings⟩
  rw [hSplit] at hMem
  simp only [blockOps, hOff, Bool.false_eq_true, if_false,
    List.append_nil, List.mem_append, cpuOnline,
    List.mem_singleton] at hMem
  rcases hMem with (hZero | hFour) | hSetting
  · exact ⟨_, _, hZero⟩
  · exact ⟨_, _, hFour⟩
  · rcases hSettings op hSetting with ⟨path, _, d, hSame⟩
    exact ⟨path, d, hSame⟩

/- The service with loaded profiles. -/
def hmpState (ps : Store) : PowerState :=
  { bootState with
    profiles := ps
    sysfs := ⟨bootWorld, fun _ => ""⟩ }

theorem hmpState_module
    (ps : Store) :
    isModuleEnabled (hmpState ps).sysfs.world "profiles" =
      true := by
  simp [isModuleEnabled, getProperty, hmpState, bootWorld]

/- What is loaded from the two texts. -/
structure HmpLoaded
    (semiboost activeDown : Bool)
    (ps : Store) : Prop where
  enabled : (ps .screenOff).enabled = true
  hmp : (ps .screenOff).on .hmp = true
  cpu : (ps .screenOff).on .cpu = false
  semiboost :
    (ps .screenOff).leaves .semiboost = ⟨semiboost, true⟩
  activeDown :
    (ps .screenOff).leaves .activeDownMigration =
      ⟨activeDown, true⟩

theorem hmpDocument_loads :
    (∃ ps,
      loadProfilesImpl (hmpDocument "true" "true") =
        .ok ps ∧ HmpLoaded true true ps) ∧
    ∃ ps,
      loadProfilesImpl (hmpDocument "true" "false") =
        .ok ps ∧ HmpLoaded true false ps := by
  constructor
  · refine ⟨_, rfl, ?_⟩
    constructor
    · rfl
    · rfl
    · rfl
    · rfl
    · rfl
  · refine ⟨_, rfl, ?_⟩
    constructor
    · rfl
    · rfl
    · rfl
    · rfl
    · rfl

theorem settings_written_agreeing :
    ∃ s,
      loadProfilesImpl (hmpDocument "true" "true") =
          .ok s.profiles ∧
        (s.profiles .screenOff).on .hmp = true ∧
        SettingsWritten (s.profiles .screenOff)
          (setProfileCalls .screenOff s) := by
  rcases hmpDocument_loads.1 with ⟨ps, hLoad, hPs⟩
  refine ⟨hmpState ps, hLoad, hPs.hmp, ?_⟩
  apply (settings_written_iff hLoad (hmpState_module ps) rfl
    (readsSucceed_of_cpu_off hPs.cpu _)).mpr
  intro _ _
  change PairAgrees (ps .screenOff)
  unfold PairAgrees
  rw [hPs.semiboost, hPs.activeDown]
  exact ⟨rfl, fun _ => rfl⟩

/- `active_down_migration` gets the value of `semiboost`. -/
theorem settings_crossed :
    ∃ s,
      loadProfilesImpl (hmpDocument "true" "false") =
          .ok s.profiles ∧
        isModuleEnabled s.sysfs.world "profiles" = true ∧
        ReadsSucceed (profileOps (s.profiles .screenOff))
          s.sysfs ∧
        (s.profiles .screenOff).leaves
            .activeDownMigration = ⟨false, true⟩ ∧
        writesTo "/sys/kernel/hmp/active_down_migration"
            (setProfileCalls .screenOff s) =
          [.bool true] ∧
        ¬ SettingsWritten (s.profiles .screenOff)
          (setProfileCalls .screenOff s) := by
  rcases hmpDocument_loads.2 with ⟨ps, hLoad, hPs⟩
  have hReads :=
    readsSucceed_of_cpu_off hPs.cpu (hmpState ps).sysfs
  have hPolicy :
      policyWrites
        "/sys/kernel/hmp/active_down_migration" = [] := by
    decide +kernel
  have hEnabled :
      ((hmpState ps).profiles .screenOff).enabled = true :=
    hPs.enabled
  have hCrossed :
      writesTo "/sys/kernel/hmp/active_down_migration"
          (setProfileCalls .screenOff (hmpState ps)) =
        [.bool true] := by
    rw [writesTo_setProfileCalls (l := .activeDownMigration)
      hLoad (hmpState_module ps) rfl hReads hEnabled rfl,
      hPolicy]
    change settingWrites (ps .screenOff) [.hmp] .semiboost =
      [.bool true]
    unfold settingWrites
    simp [hPs.hmp, hPs.semiboost, datum, Leaf.kind]
  refine ⟨hmpState ps, hLoad, hmpState_module ps, hReads,
    hPs.activeDown, hCrossed, ?_⟩
  intro hWritten
  have hOwn := hWritten .activeDownMigration _ rfl
  rw [hCrossed, hPolicy] at hOwn
  change [Datum.bool true] =
    if (ps .screenOff).enabled = true then
      [] ++ settingWrites (ps .screenOff) [.hmp]
        .activeDownMigration
    else
      [] at hOwn
  unfold settingWrites at hOwn
  simp [hPs.enabled, hPs.hmp, hPs.activeDown, datum,
    Leaf.kind] at hOwn

end Power

end Universal7420
