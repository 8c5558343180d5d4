import Mathlib.Logic.Function.Basic

/-
  The power-profile record of `Profiles.h`.

  Every member `x` of the C struct comes with a flag
  `__x_set`.  The leaf settings are indexed by `Leaf`, the
  `enabled` members by `Switch`, so that a record is the same
  collection of fields as the struct without its nesting.
  Each leaf carries its XML path, its hard-coded default text
  and the conversion that is applied to a text.

  Main declarations:
    * `Universal7420.Profiles.Section`
    * `Universal7420.Profiles.Leaf`
    * `Universal7420.Profiles.SecPowerProfile`
    * `Universal7420.Profiles.ProfileName`
-/

------------------------------------------------------------
-- Sections
------------------------------------------------------------

namespace Universal7420

namespace Profiles

/- The two CPU clusters of the SoC. -/
inductive Cluster where
| apollo
| atlas
deriving DecidableEq, Repr

/- The XML element of a cluster. -/
def Cluster.element : Cluster → String
| .apollo => "apollo"
| .atlas => "atlas"

/- The sub-structs of the profile that can be switched off. -/
inductive Section where
| cpu
| cluster (c : Cluster)
| cores (c : Cluster)
| cpusets
| hmp
| threshold
| sbThreshold
| gpu
| dvfs
| highspeed
| kernel
| ipa
| slow
| inputBooster
deriving DecidableEq, Repr

namespace Section

/- The XML path of a section below its profile. -/
def path : Section → List String
| .cpu => ["cpu"]
| .cluster c => ["cpu", c.element]
| .cores c => ["cpu", c.element, "cores"]
| .cpusets => ["cpusets"]
| .hmp => ["hmp"]
| .threshold => ["hmp", "threshold"]
| .sbThreshold => ["hmp", "sb_threshold"]
| .gpu => ["gpu"]
| .dvfs => ["gpu", "dvfs"]
| .highspeed => ["gpu", "highspeed"]
| .kernel => ["kernel"]
| .ipa => ["ipa"]
| .slow => ["slow"]
| .inputBooster => ["input_booster"]

/- The order of the `PROFILE_INIT` lines. -/
def initOrder : List Section :=
  [.cpu, .cluster .apollo, .cores .apollo,
    .cluster .atlas, .cores .atlas, .cpusets, .hmp,
    .threshold, .sbThreshold, .gpu, .dvfs, .highspeed,
    .kernel, .ipa, .slow, .inputBooster]

end Section

/- The `enabled` members: the profile's own and each section's. -/
inductive Switch where
| profile
| ofSection (s : Section)
deriving DecidableEq, Repr

/- The XML path of an `enabled` node below its profile. -/
def Switch.path : Switch → List String
| .profile => ["enabled"]
| .ofSection s => s.path ++ ["enabled"]

end Profiles

end Universal7420

------------------------------------------------------------
-- Leaf Settings
------------------------------------------------------------

namespace Universal7420

namespace Profiles

/- The member types that `PROFILE_DEFINE` is used with. -/
inductive Kind where
| bool
| int
| uint
| string
deriving DecidableEq, Repr

namespace Kind

/- Unsigned values are below `2 ^ 32`. -/
@[reducible] def Val : Kind → Type
| .bool => Bool
| .int => Int
| .uint => Nat
| .string => String

/- The value of zero-initialized static storage. -/
def zero : (k : Kind) → k.Val
| .bool => false
| .int => 0
| .uint => 0
| .string => ""

end Kind

/- All settings of a profile other than the switches. -/
inductive Leaf where
| governor (c : Cluster)
| freqMin (c : Cluster)
| freqMax (c : Cluster)
| freqHispeed (c : Cluster)
| freqBoost (c : Cluster)
| core1 (c : Cluster)
| core2 (c : Cluster)
| core3 (c : Cluster)
| core4 (c : Cluster)
| defaults
| foreground
| foregroundBoost
| background
| systemBackground
| topApp
| boost
| semiboost
| powerMigration
| activeDownMigration
| aggressiveUpMigration
| thresholdDown
| thresholdUp
| sbThresholdDown
| sbThresholdUp
| dvfsFreqMin
| dvfsFreqMax
| highspeedFreq
| highspeedLoad
| pewq
| controlTemp
| modeToggle
| timerRate
| tail
| head
deriving DecidableEq, Repr

namespace Leaf

/- The declared type of a member. -/
def kind : Leaf → Kind
| .governor _ => .string
| .freqMin _ | .freqMax _ | .freqHispeed _
| .freqBoost _ => .uint
| .core1 _ | .core2 _ | .core3 _ | .core4 _ => .bool
| .defaults | .foreground | .foregroundBoost
| .background | .systemBackground | .topApp => .string
| .boost | .semiboost | .powerMigration
| .activeDownMigration | .aggressiveUpMigration => .bool
| .thresholdDown | .thresholdUp
| .sbThresholdDown | .sbThresholdUp => .uint
| .dvfsFreqMin | .dvfsFreqMax
| .highspeedFreq | .highspeedLoad => .uint
| .pewq => .bool
| .controlTemp => .int
| .modeToggle => .bool
| .timerRate => .int
| .tail | .head => .string

/- The sections that enclose a member, outermost first. -/
def sections : Leaf → List Section
| .governor c | .freqMin c | .freqMax c
| .freqHispeed c | .freqBoost c => [.cpu, .cluster c]
| .core1 c | .core2 c | .core3 c | .core4 c =>
    [.cpu, .cluster c, .cores c]
| .defaults | .foreground | .foregroundBoost
| .background | .systemBackground | .topApp => [.cpusets]
| .boost | .semiboost | .powerMigration
| .activeDownMigration | .aggressiveUpMigration => [.hmp]
| .thresholdDown | .thresholdUp => [.hmp, .threshold]
| .sbThresholdDown | .sbThresholdUp =>
    [.hmp, .sbThreshold]
| .dvfsFreqMin | .dvfsFreqMax => [.gpu, .dvfs]
| .highspeedFreq | .highspeedLoad => [.gpu, .highspeed]
| .pewq => [.kernel]
| .controlTemp => [.ipa]
| .modeToggle | .timerRate => [.slow]
| .tail | .head => [.inputBooster]

/- The XML path that a member is read from. -/
def path : Leaf → List String
| .governor c => ["cpu", c.element, "governor"]
| .freqMin c => ["cpu", c.element, "freq_min"]
| .freqMax c => ["cpu", c.element, "freq_max"]
| .freqHispeed c => ["cpu", c.element, "freq_hispeed"]
| .freqBoost c => ["cpu", c.element, "freq_boost"]
| .core1 c => ["cpu", c.element, "cores", "core1"]
| .core2 c => ["cpu", c.element, "cores", "core2"]
| .core3 c => ["cpu", c.element, "cores", "core3"]
| .core4 c => ["cpu", c.element, "cores", "core4"]
| .defaults => ["cpusets", "default"]
| .foreground => ["cpusets", "foreground"]
| .foregroundBoost => ["cpusets", "foreground_boost"]
| .background => ["cpusets", "background"]
| .systemBackground => ["cpusets", "system_background"]
| .topApp => ["cpusets", "top_app"]
| .boost => ["hmp", "boost"]
| .semiboost => ["hmp", "semiboost"]
| .powerMigration => ["hmp", "power_migration"]
| .activeDownMigration =>
    ["hmp", "active_down_migration"]
| .aggressiveUpMigration =>
    ["hmp", "aggressive_up_migration"]
| .thresholdDown => ["hmp", "threshold", "down"]
| .thresholdUp => ["hmp", "threshold", "up"]
| .sbThresholdDown => ["hmp", "sb_threshold", "down"]
| .sbThresholdUp => ["hmp", "sb_threshold", "up"]
| .dvfsFreqMin => ["gpu", "dvfs", "freq_min"]
| .dvfsFreqMax => ["gpu", "dvfs", "freq_max"]
| .highspeedFreq => ["gpu", "highspeed", "freq"]
| .highspeedLoad => ["gpu", "highspeed", "load"]
| .pewq => ["kernel", "pewq"]
| .controlTemp => ["ipa", "control_temp"]
| .modeToggle => ["slow", "mode_toggle"]
| .timerRate => ["slow", "timer_rate"]
| .tail => ["input_booster", "tail"]
| .head => ["input_booster", "head"]

/- The hard-coded default text of a member. -/
def defaultText : Leaf → String
| .governor _ => "interactive"
| .freqMin _ => "200000"
| .freqMax .apollo => "1500000"
| .freqMax .atlas => "2100000"
| .freqHispeed .apollo => "1500000"
| .freqHispeed .atlas => "2100000"
| .freqBoost _ => "0"
| .core1 _ | .core2 _ | .core3 _ | .core4 _ => "true"
| .defaults | .foreground | .foregroundBoost
| .background | .systemBackground | .topApp => "0-7"
| .boost | .semiboost | .powerMigration
| .activeDownMigration
| .aggressiveUpMigration => "false"
| .thresholdDown => "214"
| .thresholdUp => "479"
| .sbThresholdDown => "150"
| .sbThresholdUp => "100"
| .dvfsFreqMin => "100"
| .dvfsFreqMax => "772"
| .highspeedFreq => "772"
| .highspeedLoad => "99"
| .pewq => "false"
| .controlTemp => "65"
| .modeToggle => "false"
| .timerRate => "0"
| .tail | .head => "0 0 0 0 0 0"

end Leaf

end Profiles

end Universal7420

------------------------------------------------------------
-- Profile Records
------------------------------------------------------------

namespace Universal7420

namespace Profiles

/- A member together with its `__name_set` flag. -/
structure Setting
    (α : Type) where
  value : α
  set : Bool
deriving DecidableEq, Repr

/-
  `SecPowerProfile`.  `governorData c i` is entry `i` of the
  cluster's array of 64 name and data buffers.
-/
structure SecPowerProfile where
  switches : Switch → Setting Bool
  sectionSet : Section → Bool
  leaves : (l : Leaf) → Setting l.kind.Val
  governorData : Cluster → Nat → String × String

namespace SecPowerProfile

/- A record in zero-initialized static storage. -/
def zero : SecPowerProfile where
  switches := fun _ => ⟨false, false⟩
  sectionSet := fun _ => false
  leaves := fun l => ⟨l.kind.zero, false⟩
  governorData := fun _ _ => ("", "")

/- The profile's own `enabled` member. -/
def enabled (p : SecPowerProfile) : Bool :=
  (p.switches .profile).value

/- The `enabled` member of a section. -/
def on (p : SecPowerProfile) (s : Section) : Bool :=
  (p.switches (.ofSection s)).value

end SecPowerProfile

/- The six profiles that are loaded. -/
inductive ProfileName where
| screenOff
| powerSave
| biasPowerSave
| balanced
| biasPerformance
| performance
deriving DecidableEq, Repr

namespace ProfileName

/- The element and `extends` name of a profile. -/
def element : ProfileName → String
| .screenOff => "screen_off"
| .powerSave => "power_save"
| .biasPowerSave => "bias_power_save"
| .balanced => "balanced"
| .biasPerformance => "bias_performance"
| .performance => "performance"

/- The order of the calls in `loadProfilesImpl`. -/
def loadOrder : List ProfileName :=
  [.screenOff, .powerSave, .biasPowerSave, .balanced,
    .biasPerformance, .performance]

/- The position of a profile in the load order. -/
def rank : ProfileName → Nat
| .screenOff => 0
| .powerSave => 1
| .biasPowerSave => 2
| .balanced => 3
| .biasPerformance => 4
| .performance => 5

/- `kProfileNameToData`; unknown names give a null pointer. -/
def ofElement? (name : String) : Option ProfileName :=
  loadOrder.find? (fun p => p.element == name)

end ProfileName

end Profiles

end Universal7420
