import Universal7420.Power.HalSpec

/-
  Which nodes the scripts of the power service write.

  A script writes a fixed set of nodes and the governor files
  below the CPU directory.  Every other node keeps its content,
  and no script changes who may read or write a node.

  Main declarations:
    * `Universal7420.Utils.SysfsOp.Writes`
    * `Universal7420.Utils.runOps_keeps`
    * `Universal7420.Utils.runOps_content`
    * `Universal7420.Power.forall_profileOps`
    * `Universal7420.Power.KeepsInput`
    * `Universal7420.Power.setProfile_keepsInput`
-/

------------------------------------------------------------
-- Written Nodes
------------------------------------------------------------

namespace Universal7420

namespace Utils

/- A statement may write a node. -/
def SysfsOp.Writes
    (path : String) :
    SysfsOp → Prop
| .write p _ => p = path
| .writeCpuGov core file _ =>
    ∃ governor,
      cpuPath core ("cpufreq/" ++ governor ++ "/" ++ file) =
        path
| .updateCpuGov _ | .governorOverrun => False

theorem write_content_of_ne
    {path node : String}
    (hNe : path ≠ node)
    (d : Datum)
    (sys : Sysfs) :
    (write path d sys).2.world.content node =
      sys.world.content node := by
  unfold write
  split
  · exact Function.update_of_ne hNe.symm _ _
  · rfl

/- A node that may be written holds the written text. -/
theorem write_content_self
    {path : String}
    {sys : Sysfs}
    (hWritable : sys.world.writable path = true)
    (d : Datum) :
    (write path d sys).2.world.content path = d.text := by
  unfold write
  rw [if_pos hWritable]
  exact Function.update_self path _ _

/- What a write leaves alone, besides the other nodes. -/
structure SameAccess
    (w w' : World) : Prop where
  property : w'.property = w.property
  readable : w'.readable = w.readable
  writable : w'.writable = w.writable
  regular : w'.regular = w.regular

theorem SameAccess.refl
    (w : World) :
    SameAccess w w :=
  ⟨rfl, rfl, rfl, rfl⟩

theorem SameAccess.trans
    {w₁ w₂ w₃ : World}
    (hFirst : SameAccess w₁ w₂)
    (hSecond : SameAccess w₂ w₃) :
    SameAccess w₁ w₃ where
  property := hSecond.property.trans hFirst.property
  readable := hSecond.readable.trans hFirst.readable
  writable := hSecond.writable.trans hFirst.writable
  regular := hSecond.regular.trans hFirst.regular

theorem write_sameAccess
    (path : String)
    (d : Datum)
    (sys : Sysfs) :
    SameAccess sys.world (write path d sys).2.world := by
  unfold write
  split
  · exact ⟨rfl, rfl, rfl, rfl⟩
  · exact SameAccess.refl sys.world

theorem updateCpuGov_world
    (core : Nat)
    (sys : Sysfs) :
    (updateCpuGov core sys).2.world = sys.world := by
  unfold updateCpuGov
  split
  · split
    · rfl
    · rfl
  · rfl

theorem writeCpuGov_sameAccess
    (core : Nat)
    (file : String)
    (d : Datum)
    (sys : Sysfs) :
    SameAccess sys.world
      (writeCpuGov core file d sys).2.world := by
  unfold writeCpuGov
  split
  · simp only
    split
    · exact write_sameAccess _ d sys
    · exact SameAccess.refl sys.world
  · exact SameAccess.refl sys.world

theorem writeCpuGov_content
    {core : Nat}
    {file node : String}
    {d : Datum}
    (hOther :
      ¬ (SysfsOp.writeCpuGov core file d).Writes node)
    (sys : Sysfs) :
    (writeCpuGov core file d sys).2.world.content node =
      sys.world.content node := by
  unfold writeCpuGov
  split
  · simp only
    split
    · apply write_content_of_ne
      intro hSame
      exact hOther ⟨_, hSame⟩
    · rfl
  · rfl

/- The nodes after one statement. -/
def SysfsOp.after
    (sys : Sysfs) :
    SysfsOp → Sysfs
| .write path d => (Utils.write path d sys).2
| .updateCpuGov core => (Utils.updateCpuGov core sys).2
| .writeCpuGov core file d =>
    (Utils.writeCpuGov core file d sys).2
| .governorOverrun => sys

theorem after_sameAccess
    (op : SysfsOp)
    (sys : Sysfs) :
    SameAccess sys.world (op.after sys).world := by
  cases op with
  | write path d =>
      exact write_sameAccess path d sys
  | updateCpuGov core =>
      rw [SysfsOp.after, updateCpuGov_world]
      exact SameAccess.refl _
  | writeCpuGov core file d =>
      exact writeCpuGov_sameAccess core file d sys
  | governorOverrun =>
      exact SameAccess.refl _

theorem after_content
    {op : SysfsOp}
    {node : String}
    (hOther : ¬ op.Writes node)
    (sys : Sysfs) :
    (op.after sys).world.content node =
      sys.world.content node := by
  cases op with
  | write path d =>
      exact write_content_of_ne hOther d sys
  | updateCpuGov core =>
      rw [SysfsOp.after, updateCpuGov_world]
  | writeCpuGov core file d =>
      exact writeCpuGov_content hOther sys
  | governorOverrun =>
      rfl

/- What each statement keeps is kept by a script. -/
theorem runOps_keeps
    {R : Sysfs → Sysfs → Prop}
    {ops : List SysfsOp}
    {sys sys' : Sysfs}
    (hRefl : ∀ s, R s s)
    (hTrans : ∀ {s₁ s₂ s₃}, R s₁ s₂ → R s₂ s₃ → R s₁ s₃)
    (hOps : ∀ op ∈ ops, ∀ s, R s (op.after s))
    (hRun : runOps ops sys = .ok sys') :
    R sys sys' := by
  induction ops generalizing sys with
  | nil =>
      cases hRun
      exact hRefl _
  | cons op ops ih =>
      have hHead := hOps op (by simp) sys
      have hTail :
          ∀ next, runOps ops next = .ok sys' →
            R next sys' :=
        fun next hRest =>
          ih (fun later hMem => hOps later (by simp [hMem]))
            hRest
      cases op with
      | write path d =>
          exact hTrans hHead (hTail _ hRun)
      | updateCpuGov core =>
          simp only [SysfsOp.after] at hHead
          rw [runOps] at hRun
          split at hRun
          · rename_i next hUpdate
            rw [hUpdate] at hHead
            exact hTrans hHead (hTail next hRun)
          · -- the governor cannot be read: the script ends
            rename_i next hUpdate
            rw [hUpdate] at hHead
            cases hRun
            exact hHead
      | writeCpuGov core file d =>
          exact hTrans hHead (hTail _ hRun)
      | governorOverrun =>
          cases hRun

/- A script changes the contents of nodes, nothing else. -/
theorem runOps_sameAccess
    {ops : List SysfsOp}
    {sys sys' : Sysfs}
    (hRun : runOps ops sys = .ok sys') :
    SameAccess sys.world sys'.world := by
  refine @runOps_keeps
    (fun s s' => SameAccess s.world s'.world) _ _ _ ?_ ?_ ?_
    hRun
  · intro s
    exact SameAccess.refl _
  · intro s₁ s₂ s₃ hFirst hSecond
    exact hFirst.trans hSecond
  · intro op _ s
    exact after_sameAccess op s

/- A node that no statement writes keeps its content. -/
theorem runOps_content
    {ops : List SysfsOp}
    {sys sys' : Sysfs}
    {node : String}
    (hOther : ∀ op ∈ ops, ¬ op.Writes node)
    (hRun : runOps ops sys = .ok sys') :
    sys'.world.content node = sys.world.content node := by
  refine @runOps_keeps
    (fun s s' =>
      s'.world.content node = s.world.content node)
    _ _ _ ?_ ?_ ?_ hRun
  · intro s
    rfl
  · intro s₁ s₂ s₃ hFirst hSecond
    exact hSecond.trans hFirst
  · intro op hMem s
    exact after_content (hOther op hMem) s

end Utils

end Universal7420

------------------------------------------------------------
-- The Nodes Of A Profile
------------------------------------------------------------

namespace Universal7420

namespace Power

open Profiles Utils

/- The nodes outside the CPU directory that a profile sets. -/
def settingNodes : List String :=
  ["/dev/cpuset/cpus",
    "/dev/cpuset/foreground/cpus",
    "/dev/cpuset/foreground/boost/cpus",
    "/dev/cpuset/background/cpus",
    "/dev/cpuset/system-background/cpus",
    "/dev/cpuset/top-app/cpus",
    "/sys/power/ipa/enabled",
    "/sys/power/ipa/control_temp",
    "/sys/devices/14ac0000.mali/dvfs_min_lock",
    "/sys/devices/14ac0000.mali/dvfs_max_lock",
    "/sys/devices/14ac0000.mali/highspeed_clock",
    "/sys/devices/14ac0000.mali/highspeed_load",
    "/sys/kernel/hmp/boost",
    "/sys/kernel/hmp/semiboost",
    "/sys/kernel/hmp/power_migration",
    "/sys/kernel/hmp/active_down_migration",
    "/sys/kernel/hmp/aggressive_up_migration",
    "/sys/kernel/hmp/down_threshold",
    "/sys/kernel/hmp/up_threshold",
    "/sys/kernel/hmp/sb_down_threshold",
    "/sys/kernel/hmp/sb_up_threshold",
    "/sys/power/enable_dm_hotplug",
    "/sys/module/workqueue/parameters/power_efficient",
    "/sys/devices/virtual/sec/sec_slow/" ++
      "enforced_slow_mode",
    "/sys/devices/virtual/sec/sec_slow/timer_rate",
    "/sys/class/input_booster/tail",
    "/sys/class/input_booster/head"]

/- The files of a CPU that a profile sets by their names. -/
def cpuFiles : List String :=
  ["online", "cpufreq/scaling_min_freq",
    "cpufreq/scaling_max_freq"]

theorem forall_profileWrite
    {P : SysfsOp → Prop}
    {path : String}
    (hWrite : ∀ d, P (.write path d))
    (data : SecPowerProfile)
    (l : Leaf) :
    ∀ op ∈ profileWrite data path l, P op := by
  unfold profileWrite
  split
  · simp [hWrite]
  · simp

theorem forall_blockOps
    {P : SysfsOp → Prop}
    {ops : List SysfsOp}
    (hOps : ∀ op ∈ ops, P op)
    (data : SecPowerProfile)
    (s : Section) :
    ∀ op ∈ blockOps data s ops, P op := by
  unfold blockOps
  split
  · exact hOps
  · simp

theorem forall_governorDataOps
    {P : SysfsOp → Prop}
    {core : Nat}
    (hGovernor : ∀ file d, P (.writeCpuGov core file d))
    (hOverrun : P .governorOverrun)
    (data : SecPowerProfile)
    (c : Cluster) :
    ∀ op ∈ governorDataOps data c core, P op := by
  intro op hOp
  rcases List.mem_append.mp hOp with hEntry | hEnd
  · rcases List.mem_map.mp hEntry with ⟨entry, _, rfl⟩
    exact hGovernor entry.1 _
  · split at hEnd
    · rw [List.mem_singleton.mp hEnd]
      exact hOverrun
    · cases hEnd

/-
  The statements of a cluster: only its governor node is
  written with the governor, if it is set.
-/
theorem forall_clusterOps
    {P : SysfsOp → Prop}
    {data : SecPowerProfile}
    {c : Cluster}
    {core : Nat}
    (hGovernorNode :
      (data.leaves (.governor c)).set = true →
        P (.write (cpuPath core "cpufreq/scaling_governor")
          (datum _ (data.leaves (.governor c)).value)))
    (hCpu :
      ∀ core, ∀ file ∈ cpuFiles, ∀ d,
        P (.write (cpuPath core file) d))
    (hUpdate : ∀ core, P (.updateCpuGov core))
    (hGovernor :
      ∀ core file d, P (.writeCpuGov core file d))
    (hOverrun : P .governorOverrun) :
    ∀ op ∈ clusterOps data c core, P op := by
  have hNode :
      ∀ op ∈ profileWrite data
        (cpuPath core "cpufreq/scaling_governor")
        (.governor c), P op := by
    intro op hOp
    unfold profileWrite at hOp
    split at hOp
    · rename_i hSet
      rw [List.mem_singleton.mp hOp]
      exact hGovernorNode hSet
    · cases hOp
  have hFile :
      ∀ core, ∀ file ∈ cpuFiles, ∀ l,
        ∀ op ∈ profileWrite data (cpuPath core file) l,
          P op :=
    fun core file hMem l =>
      forall_profileWrite (hCpu core file hMem) data l
  have hTuned :
      ∀ file l, ∀ op ∈ clusterWrite data core file l,
        P op := by
    intro file l op hOp
    rw [List.mem_singleton.mp hOp]
    exact hGovernor core file _
  simp only [clusterOps, List.forall_mem_append]
  refine ⟨⟨⟨⟨⟨⟨⟨⟨⟨⟨⟨hNode, ?_⟩, ?_⟩, ?_⟩, ?_⟩, ?_⟩, ?_⟩,
    ?_⟩, hTuned _ _⟩, hTuned _ _⟩, hTuned _ _⟩, ?_⟩
  · simpa using hUpdate core
  · exact hFile core _ (by simp [cpuFiles]) _
  · exact hFile core _ (by simp [cpuFiles]) _
  · exact hFile core _ (by simp [cpuFiles]) _
  · exact hFile (core + 1) _ (by simp [cpuFiles]) _
  · exact hFile (core + 2) _ (by simp [cpuFiles]) _
  · exact hFile (core + 3) _ (by simp [cpuFiles]) _
  · exact forall_governorDataOps (hGovernor core) hOverrun
      data c

/- A statement that writes one of the named nodes. -/
def WritesSetting (op : SysfsOp) : Prop :=
  ∃ path ∈ settingNodes, ∃ d, op = .write path d

/- After the clusters, a profile only writes its settings. -/
theorem profileOps_split
    (data : SecPowerProfile) :
    ∃ settings,
      profileOps data =
        cpuOnline 0 ++ cpuOnline 4 ++
          blockOps data .cpu
            (blockOps data (.cluster .apollo)
                (clusterOps data .apollo 0) ++
              blockOps data (.cluster .atlas)
                (clusterOps data .atlas 4)) ++
          settings ∧
      ∀ op ∈ settings, WritesSetting op := by
  have hNode :
      ∀ path ∈ settingNodes, ∀ l,
        ∀ op ∈ profileWrite data path l,
          WritesSetting op :=
    fun path hPath l =>
      forall_profileWrite
        (fun d => ⟨path, hPath, d, rfl⟩) data l
  have hPair :
      ∀ path ∈ settingNodes, ∀ path' ∈ settingNodes,
        ∀ l l',
          ∀ op ∈ profileWrite data path l ++
              profileWrite data path' l',
            WritesSetting op := by
    intro path hPath path' hPath' l l'
    rw [List.forall_mem_append]
    exact ⟨hNode path hPath l, hNode path' hPath' l'⟩
  have hFixed :
      ∀ path ∈ settingNodes, ∀ d,
        ∀ op ∈ [SysfsOp.write path d],
          WritesSetting op := by
    intro path hPath d op hOp
    rw [List.mem_singleton.mp hOp]
    exact ⟨path, hPath, d, rfl⟩
  have hBlock :
      ∀ s ops, (∀ op ∈ ops, WritesSetting op) →
        ∀ op ∈ blockOps data s ops, WritesSetting op :=
    fun s ops hOps => forall_blockOps hOps data s
  refine ⟨?settings, ?split, ?writes⟩
  case split =>
    unfold profileOps
    simp only [List.append_assoc]
    rfl
  case writes =>
    simp only [List.forall_mem_append]
    refine ⟨?_, ?_, ?_, ?_, ?_, ?_, ?_, ?_⟩
    · apply hBlock
      simp only [List.forall_mem_append]
      refine ⟨?_, ?_, ?_, ?_, ?_, ?_⟩
      all_goals
        exact hNode _ (by simp [settingNodes]) _
    · apply hBlock
      simp only [List.forall_mem_append]
      exact ⟨hFixed _ (by simp [settingNodes]) _,
        hNode _ (by simp [settingNodes]) _⟩
    · apply hBlock
      simp only [List.forall_mem_append]
      refine ⟨hBlock _ _ ?_, hBlock _ _ ?_⟩
      all_goals
        exact hPair _ (by simp [settingNodes])
          _ (by simp [settingNodes]) _ _
    · apply hBlock
      simp only [List.forall_mem_append]
      refine ⟨?_, ?_, ?_, ?_, ?_, hBlock _ _ ?_,
        hBlock _ _ ?_⟩
      all_goals
        first
        | exact hNode _ (by simp [settingNodes]) _
        | exact hPair _ (by simp [settingNodes])
            _ (by simp [settingNodes]) _ _
    · exact hFixed _ (by simp [settingNodes]) _
    · exact hBlock _ _ (hNode _ (by simp [settingNodes]) _)
    · apply hBlock
      exact hPair _ (by simp [settingNodes])
        _ (by simp [settingNodes]) _ _
    · apply hBlock
      exact hPair _ (by simp [settingNodes])
        _ (by simp [settingNodes]) _ _

/-
  What holds of the statements of the clusters and of every
  write to one of the named nodes holds of a whole profile.
-/
theorem forall_profileOps
    {P : SysfsOp → Prop}
    {data : SecPowerProfile}
    (hOnline :
      ∀ core d, P (.write (cpuPath core "online") d))
    (hSetting :
      ∀ path ∈ settingNodes, ∀ d, P (.write path d))
    (hApollo : ∀ op ∈ clusterOps data .apollo 0, P op)
    (hAtlas : ∀ op ∈ clusterOps data .atlas 4, P op) :
    ∀ op ∈ profileOps data, P op := by
  rcases profileOps_split data with
    ⟨settings, hSplit, hWrites⟩
  have hCore :
      ∀ core, ∀ op ∈ cpuOnline core, P op := by
    intro core op hOp
    rw [List.mem_singleton.mp hOp]
    exact hOnline core _
  rw [hSplit]
  simp only [List.forall_mem_append]
  refine ⟨⟨⟨hCore 0, hCore 4⟩, ?_⟩, ?_⟩
  · apply forall_blockOps
    simp only [List.forall_mem_append]
    exact ⟨forall_blockOps hApollo data _,
      forall_blockOps hAtlas data _⟩
  · intro op hOp
    rcases hWrites op hOp with ⟨path, hPath, d, rfl⟩
    exact hSetting path hPath d

end Power

end Universal7420

------------------------------------------------------------
-- Input Nodes
------------------------------------------------------------

namespace Universal7420

namespace Power

open Profiles Utils Fallible

/- The members that the input devices depend on. -/
structure InputView where
  variant : SecDeviceVariant
  touchControlPath : String
  touchkeysEnabled : Bool
  dt2wEnabled : Bool
  touchkeyTasks : Nat
deriving DecidableEq, Repr

def PowerState.inputView (s : PowerState) : InputView where
  variant := s.mVariant
  touchControlPath := s.mTouchControlPath
  touchkeysEnabled := s.mTouchkeysEnabled
  dt2wEnabled := s.mIsDT2WEnabled
  touchkeyTasks := s.touchkeyTasks

/- `POWER_TOUCHSCREEN_ENABLED_FLAT` and `_EDGE`. -/
def touchscreenNodes : List String :=
  ["/sys/class/input/input1/enabled",
    "/sys/class/input/input0/enabled"]

/- The nodes that switch an input device. -/
def inputNodes : List String :=
  [dt2wEnabledNode, touchkeysEnabledNode] ++
    touchscreenNodes

/- Both variants have a touchscreen node. -/
theorem touchscreenPath_mem
    (flat : Bool) :
    (if flat then "/sys/class/input/input1/enabled"
      else "/sys/class/input/input0/enabled") ∈
        touchscreenNodes := by
  cases flat <;> simp [touchscreenNodes]

/- A path that starts in another way is not below a CPU. -/
theorem cpuPath_ne
    {node : String}
    (hStart : node.toList.take 14 ≠ "/sys/devices/s".toList)
    (core : Nat)
    (file : String) :
    cpuPath core file ≠ node := by
  intro hSame
  apply hStart
  rw [← hSame]
  unfold cpuPath
  rw [String.toList_append, String.toList_append,
    String.toList_append, List.append_assoc,
    List.append_assoc,
    List.take_append_of_le_length (by decide)]
  decide

theorem inputNodes_class :
    ∀ node ∈ inputNodes,
      node.toList.take 14 ≠ "/sys/devices/s".toList := by
  decide +kernel

theorem settingNodes_disjoint :
    ∀ path ∈ settingNodes, ∀ node ∈ inputNodes,
      path ≠ node := by
  decide +kernel

/- No statement of a profile writes an input node. -/
theorem profileOps_not_writes
    (data : SecPowerProfile)
    {node : String}
    (hNode : node ∈ inputNodes) :
    ∀ op ∈ profileOps data, ¬ op.Writes node := by
  have hCpu := cpuPath_ne (inputNodes_class node hNode)
  have hCluster :
      ∀ c core, ∀ op ∈ clusterOps data c core,
        ¬ op.Writes node := by
    intro c core
    apply forall_clusterOps
    · intro _
      exact hCpu core _
    · intro core file _ d
      exact hCpu core file
    · intro core
      exact id
    · rintro core file d ⟨governor, hSame⟩
      exact hCpu core _ hSame
    · exact id
  apply forall_profileOps
  · intro core d
    exact hCpu core _
  · intro path hPath d
    exact settingNodes_disjoint path hPath node hNode
  · exact hCluster .apollo 0
  · exact hCluster .atlas 4

/- No statement of a boost writes an input node. -/
theorem boostOps_not_writes
    (data : SecPowerProfile)
    (c : Cluster)
    (core : Nat)
    (duration : Int32)
    {node : String}
    (hNode : node ∈ inputNodes) :
    ∀ op ∈ boostOps data c core duration,
      ¬ op.Writes node := by
  have hCpu := cpuPath_ne (inputNodes_class node hNode)
  have hGovernor :
      ∀ file d,
        ¬ (SysfsOp.writeCpuGov core file d).Writes
          node := by
    rintro file d ⟨governor, hSame⟩
    exact hCpu core _ hSame
  unfold boostOps
  simp only
  split
  · intro op hOp
    simp only [List.mem_cons, List.not_mem_nil,
      or_false] at hOp
    rcases hOp with rfl | rfl | rfl | rfl
    · exact id
    · exact hGovernor _ _
    · exact hGovernor _ _
    · exact hGovernor _ _
  · intro op hOp
    cases hOp

/- Who may use which node is the same in two states. -/
def PowerState.SameAccess
    (s t : PowerState) : Prop :=
  Utils.SameAccess s.sysfs.world t.sysfs.world

/- The content of a node. -/
def PowerState.content
    (s : PowerState)
    (node : String) : String :=
  s.sysfs.world.content node

/- Nothing that concerns an input device has changed. -/
structure KeepsInput
    (s t : PowerState) : Prop where
  view : t.inputView = s.inputView
  access : s.SameAccess t
  content :
    ∀ node ∈ inputNodes, t.content node = s.content node

/- The other members of the service may change. -/
theorem KeepsInput.of_view
    {s t : PowerState}
    (hView : t.inputView = s.inputView)
    (hSysfs : t.sysfs = s.sysfs) :
    KeepsInput s t := by
  refine ⟨hView, ?_, ?_⟩
  · unfold PowerState.SameAccess
    rw [hSysfs]
    exact SameAccess.refl _
  · intro node _
    unfold PowerState.content
    rw [hSysfs]

theorem KeepsInput.refl
    (s : PowerState) :
    KeepsInput s s :=
  .of_view rfl rfl

theorem KeepsInput.trans
    {s t u : PowerState}
    (hFirst : KeepsInput s t)
    (hSecond : KeepsInput t u) :
    KeepsInput s u where
  view := hSecond.view.trans hFirst.view
  access := SameAccess.trans hFirst.access hSecond.access
  content := fun node hNode =>
    (hSecond.content node hNode).trans
      (hFirst.content node hNode)

/- A script that writes no input node keeps them. -/
theorem KeepsInput.of_runOps
    {ops : List SysfsOp}
    {s : PowerState}
    {sysfs : Sysfs}
    (hOther :
      ∀ node ∈ inputNodes, ∀ op ∈ ops, ¬ op.Writes node)
    (hRun : runOps ops s.sysfs = .ok sysfs) :
    KeepsInput s { s with sysfs := sysfs } where
  view := rfl
  access := runOps_sameAccess hRun
  content := fun node hNode =>
    runOps_content (hOther node hNode) hRun

/- A profile leaves the input devices alone. -/
theorem setProfile_keepsInput
    {profile : SecPowerProfiles}
    {s t : PowerState}
    (hSet : setProfile profile s = .ok t) :
    KeepsInput s t := by
  have hStored :
      KeepsInput s { s with mCurrentProfile := profile } :=
    .of_view rfl rfl
  unfold setProfile applyProfile at hSet
  split at hSet
  · split at hSet
    · cases hSet
    · split at hSet
      · rcases bind_eq_ok_iff.mp hSet with
          ⟨sysfs, hRun, hNew⟩
        cases hNew
        have hApplied := KeepsInput.of_runOps
          (fun node hNode =>
            profileOps_not_writes _ hNode) hRun
        exact ⟨hApplied.view, hApplied.access,
          hApplied.content⟩
      · cases hSet
        exact hStored
  · cases hSet
    exact hStored

/- A reset leaves them alone, now and later. -/
theorem resetProfile_keepsInput
    {delay : Int}
    {s t : PowerState}
    (hReset : resetProfile delay s = .ok t) :
    KeepsInput s t := by
  unfold resetProfile setProfileDelayed at hReset
  split at hReset
  · exact setProfile_keepsInput hReset
  · cases hReset
    exact .of_view rfl rfl

/- So does a boost. -/
theorem boostpulse_keepsInput
    {duration : Int32}
    {s t : PowerState}
    (hBoost : boostpulse duration s = .ok t) :
    KeepsInput s t := by
  unfold boostpulse at hBoost
  split at hBoost
  · cases hBoost
  · rcases bind_eq_ok_iff.mp hBoost with
      ⟨sysfs, hRun, hNew⟩
    cases hNew
    refine KeepsInput.of_runOps ?_ hRun
    intro node hNode
    rw [List.forall_mem_append]
    exact ⟨boostOps_not_writes _ _ _ _ hNode,
      boostOps_not_writes _ _ _ _ hNode⟩

theorem profileHint_keepsInput
    {profile : SecPowerProfiles}
    {data : Int32}
    {s t : PowerState}
    (hHint : profileHint profile data s = .ok t) :
    KeepsInput s t := by
  unfold profileHint at hHint
  split at hHint
  · exact setProfile_keepsInput hHint
  · exact resetProfile_keepsInput hHint

/- No hint concerns an input device. -/
theorem powerHint_keepsInput
    {hint : PowerHint}
    {data : Int32}
    {s t : PowerState}
    (hCall : powerHint hint data s = .ok t) :
    KeepsInput s t := by
  cases hint with
  | setProfile =>
      have hSet := setProfile_keepsInput hCall
      exact ⟨hSet.view, hSet.access, hSet.content⟩
  | lowPower =>
      exact profileHint_keepsInput hCall
  | sustainedPerformance =>
      exact profileHint_keepsInput hCall
  | vrMode =>
      exact profileHint_keepsInput hCall
  | interaction =>
      exact boostpulse_keepsInput hCall
  | launch | vsync | other =>
      cases hCall
      exact KeepsInput.refl s

/- No delayed profile does. -/
theorem delayedTask_keepsInput
    {index : Nat}
    {s t : PowerState}
    (hTask : perform (.delayedTask index) s = .ok t) :
    KeepsInput s t := by
  simp only [perform] at hTask
  split at hTask
  · cases hTask
    exact KeepsInput.refl s
  · have hSet := setProfile_keepsInput hTask
    exact ⟨hSet.view, hSet.access, hSet.content⟩

/- Nor does the fingerprint sensor. -/
theorem setFingerprintState_keepsInput
    (enabled : Bool)
    (s : PowerState) :
    KeepsInput s (setFingerprintState enabled s) := by
  have hPm :
      ∀ node ∈ inputNodes,
        "/sys/class/fingerprint/fingerprint/pm" ≠ node := by
    decide +kernel
  have hWakelocks :
      ∀ node ∈ inputNodes,
        "/sys/class/fingerprint/fingerprint/wakelocks" ≠
          node := by
    decide +kernel
  have hWrite :
      ∀ (u : PowerState) path d,
        (∀ node ∈ inputNodes, path ≠ node) →
        KeepsInput u (u.write path d) := by
    intro u path d hOther
    refine ⟨rfl, write_sameAccess path d u.sysfs, ?_⟩
    intro node hNode
    exact write_content_of_ne (hOther node hNode) d u.sysfs
  unfold setFingerprintState
  cases enabled with
  | true =>
      exact (hWrite s _ _ hWakelocks).trans
        (hWrite _ _ _ hPm)
  | false =>
      exact (hWrite s _ _ hPm).trans
        (hWrite _ _ _ hWakelocks)

end Power

end Universal7420

------------------------------------------------------------
-- Input Calls
------------------------------------------------------------

namespace Universal7420

namespace Power

open Profiles Utils Fallible

theorem write_access
    (s : PowerState)
    (path : String)
    (d : Datum) :
    s.SameAccess (s.write path d) :=
  write_sameAccess path d s.sysfs

theorem content_write_of_ne
    (s : PowerState)
    {path node : String}
    (hNe : path ≠ node)
    (d : Datum) :
    (s.write path d).content node = s.content node :=
  write_content_of_ne hNe d s.sysfs

theorem content_write_self
    {s : PowerState}
    {path : String}
    (hWritable : s.sysfs.world.writable path = true)
    (d : Datum) :
    (s.write path d).content path = d.text :=
  write_content_self hWritable d

theorem setDT2WState_access
    (s : PowerState) :
    s.SameAccess (setDT2WState s) :=
  write_access s _ _

theorem content_setDT2WState_of_ne
    (s : PowerState)
    {node : String}
    (hNe : dt2wEnabledNode ≠ node) :
    (setDT2WState s).content node = s.content node :=
  content_write_of_ne s hNe _

theorem setTouchscreen_access
    (enabled : Bool)
    (s : PowerState) :
    s.SameAccess (setTouchscreen enabled s) := by
  unfold setTouchscreen
  split
  · exact write_access s _ _
  · exact SameAccess.refl _

theorem content_setTouchscreen_of_ne
    (enabled : Bool)
    {s : PowerState}
    {node : String}
    (hNe : s.mTouchControlPath ≠ node) :
    (setTouchscreen enabled s).content node =
      s.content node := by
  unfold setTouchscreen
  split
  · exact content_write_of_ne s hNe _
  · rfl

theorem inputView_setTouchscreen
    (enabled : Bool)
    (s : PowerState) :
    (setTouchscreen enabled s).inputView =
      s.inputView := by
  unfold setTouchscreen
  split
  · rfl
  · rfl

theorem enableTouchkeys_access
    (s : PowerState) :
    s.SameAccess (enableTouchkeys s) := by
  unfold enableTouchkeys
  split
  · exact write_sameAccess _ _ _
  · exact SameAccess.refl _

theorem touchkeysBrightnessNode_ne
    {node : String}
    (hNode : node ∈ inputNodes) :
    touchkeysBrightnessNode ≠ node := by
  revert node
  decide

theorem content_enableTouchkeys
    (s : PowerState)
    {node : String}
    (hNode : node ∈ inputNodes) :
    (enableTouchkeys s).content node = s.content node := by
  unfold enableTouchkeys
  split
  · exact content_write_of_ne _
      (touchkeysBrightnessNode_ne hNode) _
  · rfl

/- The touchkey write has been started. -/
theorem inputView_enableTouchkeys
    (s : PowerState) :
    (enableTouchkeys s).inputView =
      { s.inputView with
        touchkeyTasks :=
          if s.mVariant ≠ .edge then s.touchkeyTasks + 1
          else s.touchkeyTasks } := by
  unfold enableTouchkeys
  split
  · rfl
  · rfl

theorem disableTouchkeys_access
    {s t : PowerState}
    (hKeys : disableTouchkeys s = .ok t) :
    s.SameAccess t := by
  unfold disableTouchkeys at hKeys
  split at hKeys
  · rcases bind_eq_ok_iff.mp hKeys with ⟨saved, _, hNew⟩
    cases hNew
    exact (write_sameAccess _ _ _).trans
      (write_sameAccess _ _ _)
  · cases hKeys
    exact SameAccess.refl _

/- Only the saved state of the touchkeys may change. -/
theorem disableTouchkeys_inputView
    {s t : PowerState}
    (hKeys : disableTouchkeys s = .ok t) :
    t.inputView =
      { s.inputView with
        touchkeysEnabled := t.mTouchkeysEnabled } := by
  unfold disableTouchkeys at hKeys
  split at hKeys
  · rcases bind_eq_ok_iff.mp hKeys with ⟨saved, _, hNew⟩
    cases hNew
    rfl
  · cases hKeys
    rfl

theorem content_disableTouchkeys_of_ne
    {s t : PowerState}
    {node : String}
    (hNode : node ∈ inputNodes)
    (hNe : touchkeysEnabledNode ≠ node)
    (hKeys : disableTouchkeys s = .ok t) :
    t.content node = s.content node := by
  unfold disableTouchkeys at hKeys
  split at hKeys
  · rcases bind_eq_ok_iff.mp hKeys with ⟨saved, _, hNew⟩
    cases hNew
    rw [content_write_of_ne _
        (touchkeysBrightnessNode_ne hNode),
      content_write_of_ne _ hNe]
    rfl
  · cases hKeys
    rfl

end Power

end Universal7420
