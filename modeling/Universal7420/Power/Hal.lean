import Universal7420.Lib.EventSystem
import Universal7420.Lib.Fallible
import Universal7420.Power.Profile
import Universal7420.Power.Utils

/-
  The power service of `Power.cpp`.

  The build has the Lineage hints and the strict behaviour,
  and neither the lock nor the polled profile file.  Calls are
  handled one at a time.  A delayed profile and a touchkey
  write run later on detached threads: the first carries its
  profile by value, the second reads the member when it runs.

  Main declarations:
    * `Universal7420.Power.PowerState`
    * `Universal7420.Power.profileOps`
    * `Universal7420.Power.setProfile`
    * `Universal7420.Power.perform`
    * `Universal7420.Power.construct`
    * `Universal7420.Power.system`
-/

------------------------------------------------------------
-- Profile Numbers
------------------------------------------------------------

namespace Universal7420

namespace Power

open Profiles Utils

/- `SecPowerProfiles`: any 32-bit value can be cast to it. -/
abbrev SecPowerProfiles : Type := Int32

namespace SecPowerProfiles

def invalid : SecPowerProfiles := -0x7FFFFFFF - 1
def screenOff : SecPowerProfiles := -1
def powerSave : SecPowerProfiles := 0
def balanced : SecPowerProfiles := 1
def highPerformance : SecPowerProfiles := 2
def biasPowerSave : SecPowerProfiles := 3
def biasPerformance : SecPowerProfiles := 4

end SecPowerProfiles

/- `Profiles::getProfileData`; absent for a null pointer. -/
def getProfileData
    (profile : SecPowerProfiles) : Option ProfileName :=
  if profile = SecPowerProfiles.screenOff then
    some .screenOff
  else if profile = SecPowerProfiles.powerSave then
    some .powerSave
  else if profile = SecPowerProfiles.biasPowerSave then
    some .biasPowerSave
  else if profile = SecPowerProfiles.balanced then
    some .balanced
  else if profile = SecPowerProfiles.biasPerformance then
    some .biasPerformance
  else if profile = SecPowerProfiles.highPerformance then
    some .performance
  else
    none

end Power

end Universal7420

------------------------------------------------------------
-- Profile Scripts
------------------------------------------------------------

namespace Universal7420

namespace Power

open Profiles Utils

/- The overload that a member selects. -/
def datum : (k : Kind) → k.Val → Datum
| .bool, b => .bool b
| .int, v => .int v
| .uint, n => .uint n
| .string, s => .string s

/- `PROFILE_WRITE` -/
def profileWrite
    (data : SecPowerProfile)
    (path : String)
    (l : Leaf) : List SysfsOp :=
  if (data.leaves l).set then
    [.write path (datum l.kind (data.leaves l).value)]
  else
    []

/- `CPU_ONLINE` -/
def cpuOnline (core : Nat) : List SysfsOp :=
  [.write (cpuPath core "online") (.bool true)]

/- `cpu_apollo_write2` and `cpu_atlas_write2` -/
def clusterWrite
    (data : SecPowerProfile)
    (core : Nat)
    (file : String)
    (l : Leaf) : List SysfsOp :=
  [.writeCpuGov core file
    (datum l.kind (data.leaves l).value)]

/- The loop over the governor data up to an empty name. -/
def governorDataOps
    (data : SecPowerProfile)
    (c : Cluster)
    (core : Nat) : List SysfsOp :=
  let entries :=
    (List.range 64).map (data.governorData c)
  (entries.takeWhile (fun entry => entry.1 ≠ "")).map
      (fun entry =>
        .writeCpuGov core entry.1 (.string entry.2)) ++
    if entries.all (fun entry => entry.1 ≠ "") then
      [.governorOverrun]
    else
      []

/- The block of one cluster. -/
def clusterOps
    (data : SecPowerProfile)
    (c : Cluster)
    (core : Nat) : List SysfsOp :=
  profileWrite data
      (cpuPath core "cpufreq/scaling_governor")
      (.governor c) ++
    [.updateCpuGov core] ++
    profileWrite data
      (cpuPath core "cpufreq/scaling_min_freq")
      (.freqMin c) ++
    profileWrite data
      (cpuPath core "cpufreq/scaling_max_freq")
      (.freqMax c) ++
    profileWrite data (cpuPath core "online") (.core1 c) ++
    profileWrite data (cpuPath (core + 1) "online")
      (.core2 c) ++
    profileWrite data (cpuPath (core + 2) "online")
      (.core3 c) ++
    profileWrite data (cpuPath (core + 3) "online")
      (.core4 c) ++
    clusterWrite data core "freq_min" (.freqMin c) ++
    clusterWrite data core "freq_max" (.freqMax c) ++
    clusterWrite data core "hispeed_freq"
      (.freqHispeed c) ++
    governorDataOps data c core

/- `if (data->s.enabled) { ... }` around a block. -/
def blockOps
    (data : SecPowerProfile)
    (s : Section)
    (ops : List SysfsOp) : List SysfsOp :=
  if data.on s then ops else []

/-
  The statements of `setProfile` on an enabled profile.  The
  literal `"Y"` selects the flag overload of `Utils::write`.
-/
def profileOps (data : SecPowerProfile) : List SysfsOp :=
  cpuOnline 0 ++ cpuOnline 4 ++
    blockOps data .cpu
      (blockOps data (.cluster .apollo)
          (clusterOps data .apollo 0) ++
        blockOps data (.cluster .atlas)
          (clusterOps data .atlas 4)) ++
    blockOps data .cpusets
      (profileWrite data "/dev/cpuset/cpus" .defaults ++
        profileWrite data "/dev/cpuset/foreground/cpus"
          .foreground ++
        profileWrite data
          "/dev/cpuset/foreground/boost/cpus"
          .foregroundBoost ++
        profileWrite data "/dev/cpuset/background/cpus"
          .background ++
        profileWrite data
          "/dev/cpuset/system-background/cpus"
          .systemBackground ++
        profileWrite data "/dev/cpuset/top-app/cpus"
          .topApp) ++
    blockOps data .ipa
      ([.write "/sys/power/ipa/enabled" (.bool true)] ++
        profileWrite data "/sys/power/ipa/control_temp"
          .controlTemp) ++
    blockOps data .gpu
      (blockOps data .dvfs
          (profileWrite data
              "/sys/devices/14ac0000.mali/dvfs_min_lock"
              .dvfsFreqMin ++
            profileWrite data
              "/sys/devices/14ac0000.mali/dvfs_max_lock"
              .dvfsFreqMax) ++
        blockOps data .highspeed
          (profileWrite data
              "/sys/devices/14ac0000.mali/highspeed_clock"
              .highspeedFreq ++
            profileWrite data
              "/sys/devices/14ac0000.mali/highspeed_load"
              .highspeedLoad)) ++
    blockOps data .hmp
      (profileWrite data "/sys/kernel/hmp/boost" .boost ++
        profileWrite data "/sys/kernel/hmp/semiboost"
          .semiboost ++
        profileWrite data "/sys/kernel/hmp/power_migration"
          .powerMigration ++
        profileWrite data
          "/sys/kernel/hmp/active_down_migration"
          .semiboost ++
        profileWrite data
          "/sys/kernel/hmp/aggressive_up_migration"
          .aggressiveUpMigration ++
        blockOps data .threshold
          (profileWrite data
              "/sys/kernel/hmp/down_threshold"
              .thresholdDown ++
            profileWrite data
              "/sys/kernel/hmp/up_threshold"
              .thresholdUp) ++
        blockOps data .sbThreshold
          (profileWrite data
              "/sys/kernel/hmp/sb_down_threshold"
              .sbThresholdDown ++
            profileWrite data
              "/sys/kernel/hmp/sb_up_threshold"
              .sbThresholdUp)) ++
    [.write "/sys/power/enable_dm_hotplug" (.bool false)] ++
    blockOps data .kernel
      (profileWrite data
        "/sys/module/workqueue/parameters/power_efficient"
        .pewq) ++
    blockOps data .slow
      (profileWrite data
          ("/sys/devices/virtual/sec/sec_slow/" ++
            "enforced_slow_mode")
          .modeToggle ++
        profileWrite data
          "/sys/devices/virtual/sec/sec_slow/timer_rate"
          .timerRate) ++
    blockOps data .inputBooster
      (profileWrite data "/sys/class/input_booster/tail"
          .tail ++
        profileWrite data "/sys/class/input_booster/head"
          .head)

/- The boost of one cluster in `boostpulse`. -/
def boostOps
    (data : SecPowerProfile)
    (c : Cluster)
    (core : Nat)
    (duration : Int32) : List SysfsOp :=
  let freqBoost : Nat := (data.leaves (.freqBoost c)).value
  if freqBoost ≠ 0 then
    [.updateCpuGov core,
      .writeCpuGov core "boost_freq" (.uint freqBoost),
      .writeCpuGov core "boostpulse_duration"
        (.int (duration * 1000).toInt),
      .writeCpuGov core "boostpulse" (.bool true)]
  else
    []

end Power

end Universal7420

------------------------------------------------------------
-- The Service
------------------------------------------------------------

namespace Universal7420

namespace Power

open Profiles Utils

/- `SecDeviceVariant` -/
inductive SecDeviceVariant where
| unknown
| flat
| edge
deriving DecidableEq, Repr

/-
  The members of `Power`, the loaded profiles, the nodes, the
  profiles of the detached threads that are still asleep, and
  the number of touchkey writes that have not run yet.
-/
structure PowerState where
  mIsInteractive : Bool
  mRequestedProfile : SecPowerProfiles
  mCurrentProfile : SecPowerProfiles
  mVariant : SecDeviceVariant
  mTouchControlPath : String
  mTouchkeysEnabled : Bool
  mIsDT2WEnabled : Bool
  profiles : ProfileName → SecPowerProfile
  sysfs : Sysfs
  delayed : List SecPowerProfiles
  touchkeyTasks : Nat

/- `Power::isModuleEnabled` -/
def isModuleEnabled
    (w : World)
    (module_ : String) : Bool :=
  getProperty w ("sys.power." ++ module_) "true" == "true"

/- `setProfile` after the profile has been stored. -/
def applyProfile
    (s : PowerState) : Except Fault PowerState :=
  if isModuleEnabled s.sysfs.world "profiles" then
    match getProfileData s.mCurrentProfile with
    | none => .error .nullProfile
    | some id =>
        if (s.profiles id).enabled then do
          let sysfs ←
            runOps (profileOps (s.profiles id)) s.sysfs
          return { s with sysfs := sysfs }
        else
          .ok s
  else
    .ok s

/- `Power::setProfile(profile)` -/
def setProfile
    (profile : SecPowerProfiles)
    (s : PowerState) : Except Fault PowerState :=
  applyProfile { s with mCurrentProfile := profile }

/- `Power::setProfile(profile, delay)` -/
def setProfileDelayed
    (profile : SecPowerProfiles)
    (delay : Int)
    (s : PowerState) : Except Fault PowerState :=
  if delay ≤ 0 then
    setProfile profile s
  else
    .ok { s with delayed := s.delayed ++ [profile] }

/- The profile that a reset goes back to. -/
def resetTarget (s : PowerState) : SecPowerProfiles :=
  if s.mRequestedProfile = SecPowerProfiles.invalid then
    SecPowerProfiles.balanced
  else
    s.mRequestedProfile

/- `Power::resetProfile` -/
def resetProfile
    (delay : Int)
    (s : PowerState) : Except Fault PowerState :=
  setProfileDelayed (resetTarget s) delay s

/- A boost without a duration lasts ten frames. -/
def boostDuration (duration : Int32) : Int32 :=
  if duration ≤ 0 then (1000 / 60) * 10 else duration

/- `Power::boostpulse` -/
def boostpulse
    (duration : Int32)
    (s : PowerState) : Except Fault PowerState :=
  match getProfileData s.mCurrentProfile with
  | none => .error .nullProfile
  | some id => do
      let sysfs ← runOps
        (boostOps (s.profiles id) .apollo 0
            (boostDuration duration) ++
          boostOps (s.profiles id) .atlas 4
            (boostDuration duration))
        s.sysfs
      return { s with sysfs := sysfs }

/- Write a node and ignore whether it could be opened. -/
def PowerState.write
    (s : PowerState)
    (path : String)
    (d : Datum) : PowerState :=
  { s with sysfs := (Utils.write path d s.sysfs).2 }

def dt2wEnabledNode : String :=
  "/sys/class/dt2w/enabled"

def touchkeysEnabledNode : String :=
  "/sys/class/sec/sec_touchkey/input/enabled"

def touchkeysBrightnessNode : String :=
  "/sys/class/sec/sec_touchkey/brightness"

/- `Power::setDT2WState` -/
def setDT2WState (s : PowerState) : PowerState :=
  s.write dt2wEnabledNode (.bool s.mIsDT2WEnabled)

/- Set the touchscreen node, if the variant has one. -/
def setTouchscreen
    (enabled : Bool)
    (s : PowerState) : PowerState :=
  if s.mTouchControlPath ≠ "" then
    s.write s.mTouchControlPath (.bool enabled)
  else
    s

/- Start the touchkey write and light the keys. -/
def enableTouchkeys (s : PowerState) : PowerState :=
  if s.mVariant ≠ .edge then
    { s with touchkeyTasks := s.touchkeyTasks + 1 }.write
      touchkeysBrightnessNode (.int 255)
  else
    s

/-
  Save the touchkey state, if its node can be read, and turn
  the keys off.
-/
def disableTouchkeys
    (s : PowerState) : Except Fault PowerState :=
  if s.mVariant ≠ .edge then do
    let saved ← readBool s.sysfs.world touchkeysEnabledNode
    return ({ s with
      mTouchkeysEnabled :=
        saved.getD s.mTouchkeysEnabled }.write
          touchkeysEnabledNode (.bool false)).write
            touchkeysBrightnessNode (.int 0)
  else
    .ok s

/- The touchscreen stays on for doubletap2wake. -/
def disableTouchscreen (s : PowerState) : PowerState :=
  if s.mIsDT2WEnabled then s else setTouchscreen false s

/- `Power::setInputState` -/
def setInputState
    (enabled : Bool)
    (s : PowerState) : Except Fault PowerState :=
  match enabled with
  | true =>
      .ok (setDT2WState
        (enableTouchkeys (setTouchscreen true s)))
  | false => do
      let s ← disableTouchkeys s
      return setDT2WState (disableTouchscreen s)

/- `Power::setFingerprintState` -/
def setFingerprintState
    (enabled : Bool)
    (s : PowerState) : PowerState :=
  let pm := "/sys/class/fingerprint/fingerprint/pm"
  let wakelocks :=
    "/sys/class/fingerprint/fingerprint/wakelocks"
  if enabled then
    (s.write wakelocks (.bool true)).write pm (.bool true)
  else
    (s.write pm (.bool false)).write wakelocks (.bool false)

end Power

end Universal7420

------------------------------------------------------------
-- Calls And Events
------------------------------------------------------------

namespace Universal7420

namespace Power

open Profiles Utils

/- The hints that the service distinguishes. -/
inductive PowerHint where
| setProfile
| lowPower
| sustainedPerformance
| vrMode
| interaction
| launch
| vsync
| other
deriving DecidableEq, Repr

/- The features that the service distinguishes. -/
inductive Feature where
| doubleTapToWake
| other
deriving DecidableEq, Repr

/- `Power::setInteractive` after the state is stored. -/
def applyInteractive
    (s : PowerState) : Except Fault PowerState :=
  match s.mIsInteractive with
  | true => do
      let s ← resetProfile 500 s
      setInputState true s
  | false => do
      let screenOn ← screenIsOn s.sysfs.world
      if screenOn then
        return s
      else
        let s ← setProfile SecPowerProfiles.screenOff s
        setInputState false s

/- `Power::setInteractive` -/
def setInteractive
    (interactive : Bool)
    (s : PowerState) : Except Fault PowerState :=
  applyInteractive { s with mIsInteractive := interactive }

/- A hint that applies a profile while it is on. -/
def profileHint
    (profile : SecPowerProfiles)
    (data : Int32)
    (s : PowerState) : Except Fault PowerState :=
  if data ≠ 0 then setProfile profile s
  else resetProfile 0 s

/- `Power::powerHint` -/
def powerHint
    (hint : PowerHint)
    (data : Int32)
    (s : PowerState) : Except Fault PowerState :=
  match hint with
  | .setProfile =>
      setProfile data { s with mRequestedProfile := data }
  | .lowPower =>
      profileHint SecPowerProfiles.powerSave data s
  | .sustainedPerformance =>
      profileHint SecPowerProfiles.highPerformance data s
  | .vrMode =>
      profileHint SecPowerProfiles.highPerformance data s
  | .interaction => boostpulse data s
  | .launch | .vsync | .other => .ok s

/- `Power::setFeature` -/
def setFeature
    (feature : Feature)
    (activate : Bool)
    (s : PowerState) : PowerState :=
  match feature with
  | .doubleTapToWake =>
      setDT2WState { s with mIsDT2WEnabled := activate }
  | .other => s

/-
  Everything that can happen to the service: the calls, the
  end of the sleep of a detached thread, a touchkey write, and
  any change of the world outside.
-/
inductive PowerEvent where
| setInteractive (interactive : Bool)
| powerHint (hint : PowerHint) (data : Int32)
| setFeature (feature : Feature) (activate : Bool)
| delayedTask (index : Nat)
| touchkeyTask
| worldChanges (w : World)

/-
  One event.  A detached thread that does not exist does
  nothing.
-/
def perform
    (e : PowerEvent)
    (s : PowerState) : Except Fault PowerState :=
  match e with
  | .setInteractive interactive =>
      setInteractive interactive s
  | .powerHint hint data => powerHint hint data s
  | .setFeature feature activate =>
      .ok (setFeature feature activate s)
  | .delayedTask index =>
      match s.delayed[index]? with
      | none => .ok s
      | some profile =>
          setProfile profile { s with
            delayed := s.delayed.eraseIdx index }
  | .touchkeyTask =>
      if 0 < s.touchkeyTasks then
        .ok ({ s with
          touchkeyTasks := s.touchkeyTasks - 1 }.write
            touchkeysEnabledNode
            (.bool s.mTouchkeysEnabled))
      else
        .ok s
  | .worldChanges w =>
      .ok { s with sysfs := { s.sysfs with world := w } }

/- `Power::Power`, after the profiles have been loaded. -/
def construct
    (profiles : ProfileName → SecPowerProfile)
    (w : World) : Except Fault PowerState :=
  match read w "/sys/class/input/input1/name" with
  | none => .error .fatalLog
  | some touchDeviceName => do
      let flat := touchDeviceName == "sec_touchscreen"
      let s ← setProfile SecPowerProfiles.balanced
        { mIsInteractive := false
          mRequestedProfile := SecPowerProfiles.balanced
          mCurrentProfile := SecPowerProfiles.invalid
          mVariant := if flat then .flat else .edge
          mTouchControlPath :=
            if flat then "/sys/class/input/input1/enabled"
            else "/sys/class/input/input0/enabled"
          mTouchkeysEnabled := true
          mIsDT2WEnabled := false
          profiles := profiles
          sysfs :=
            { world := w, kCpuGovernors := fun _ => "" }
          delayed := []
          touchkeyTasks := 0 }
      let s ← setInputState true s
      return setFingerprintState true s

/- The service from a given state on; a fault ends it. -/
def system
    (s₀ : PowerState) :
    EventSystem PowerState PowerEvent where
  init := s₀
  step := fun s e => (perform e s).toOption

end Power

end Universal7420
