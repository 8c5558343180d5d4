import Universal7420.Lib.Decimal
import Mathlib.Logic.Function.Basic

/-
  The file helpers of `Utils.cpp`, in the strict build.

  The world is what the process finds outside itself: system
  properties and the nodes of the file system.  A node that is
  written holds the text that was written.

  Main declarations:
    * `Universal7420.Utils.World`
    * `Universal7420.Utils.write`
    * `Universal7420.Utils.read`
    * `Universal7420.Utils.screenIsOn`
    * `Universal7420.Utils.runOps`
-/

------------------------------------------------------------
-- The World
------------------------------------------------------------

namespace Universal7420

namespace Utils

/- The ways in which the power service dies. -/
inductive Fault where
| nullProfile
| stoiThrows
| governorOverrun
| fatalLog
deriving DecidableEq, Repr

/- Properties and nodes; an unset property is empty. -/
structure World where
  property : String → String
  content : String → String
  readable : String → Bool
  writable : String → Bool
  regular : String → Bool

/- The world together with `kCpuGovernors`. -/
structure Sysfs where
  world : World
  kCpuGovernors : Nat → String

/- `android::base::GetProperty` -/
def getProperty
    (w : World)
    (key defaultValue : String) : String :=
  if w.property key = "" then defaultValue
  else w.property key

/- The argument types of the overloads of `Utils::write`. -/
inductive Datum where
| string (s : String)
| bool (b : Bool)
| int (v : Int)
| uint (n : Nat)
deriving DecidableEq, Repr

/- The text that an overload writes. -/
def Datum.text : Datum → String
| .string s => s
| .bool b => if b then "1" else "0"
| .int v => toString v
| .uint n => toString n

/- `Utils::write`; false when the node cannot be opened. -/
def write
    (path : String)
    (d : Datum)
    (sys : Sysfs) : Bool × Sysfs :=
  if sys.world.writable path then
    (true, { sys with
      world := { sys.world with
        content :=
          Function.update sys.world.content path d.text } })
  else
    (false, sys)

/- `Utils::read` of a line; an empty node has no line. -/
def read
    (w : World)
    (path : String) : Option String :=
  if w.readable path ∧ w.content path ≠ "" then
    some (String.ofList
      ((w.content path).toList.takeWhile (· ≠ '\n')))
  else
    none

/- `Utils::read` of an integer -/
def readInt
    (w : World)
    (path : String) : Except Fault (Option Int) :=
  match read w path with
  | none => .ok none
  | some line =>
      match CText.stoi line with
      | some v => .ok (some v)
      | none => .error .stoiThrows

/- `Utils::read` of a flag -/
def readBool
    (w : World)
    (path : String) : Except Fault (Option Bool) :=
  match readInt w path with
  | .error fault => .error fault
  | .ok value => .ok (value.map (fun v => decide (v ≠ 0)))

/- The backlight node of the panel. -/
def panelBrightness : String :=
  "/sys/devices/13900000.dsim/backlight/panel/brightness"

/- `Utils::screenIsOn`; an unreadable node counts as on. -/
def screenIsOn (w : World) : Except Fault Bool :=
  match readInt w panelBrightness with
  | .error fault => .error fault
  | .ok none => .ok true
  | .ok (some v) => .ok (decide (0 < v))

end Utils

end Universal7420

------------------------------------------------------------
-- CPU Governors
------------------------------------------------------------

namespace Universal7420

namespace Utils

/- `TARGET_NR_CPUS` of the board. -/
def nrCpus : Nat := 8

/- A node of one CPU. -/
def cpuPath
    (core : Nat)
    (file : String) : String :=
  "/sys/devices/system/cpu/cpu" ++ toString core ++
    "/" ++ file

/- `Utils::updateCpuGov` -/
def updateCpuGov
    (core : Nat)
    (sys : Sysfs) : Bool × Sysfs :=
  if core < nrCpus then
    match read sys.world
        (cpuPath core "cpufreq/scaling_governor") with
    | none => (false, sys)
    | some cpugov =>
        (true, { sys with
          kCpuGovernors :=
            Function.update sys.kCpuGovernors core cpugov })
  else
    (false, sys)

/- `Utils::writeCpuGov` -/
def writeCpuGov
    (core : Nat)
    (file : String)
    (d : Datum)
    (sys : Sysfs) : Bool × Sysfs :=
  if core < nrCpus then
    let path := cpuPath core
      ("cpufreq/" ++ sys.kCpuGovernors core ++ "/" ++ file)
    if sys.world.regular path then
      write path d sys
    else
      (false, sys)
  else
    (false, sys)

end Utils

end Universal7420

------------------------------------------------------------
-- Node Scripts
------------------------------------------------------------

namespace Universal7420

namespace Utils

/-
  The straight-line statements of the power service.  A failed
  `updateCpuGov` returns from the whole function, and an
  unterminated governor list is read past its end.
-/
inductive SysfsOp where
| write (path : String) (d : Datum)
| updateCpuGov (core : Nat)
| writeCpuGov (core : Nat) (file : String) (d : Datum)
| governorOverrun
deriving DecidableEq, Repr

/- Execute a script on the nodes. -/
def runOps :
    List SysfsOp → Sysfs → Except Fault Sysfs
| [], sys => .ok sys
| .write path d :: ops, sys =>
    runOps ops (write path d sys).2
| .updateCpuGov core :: ops, sys =>
    match updateCpuGov core sys with
    | (true, sys) => runOps ops sys
    | (false, sys) => .ok sys
| .writeCpuGov core file d :: ops, sys =>
    runOps ops (writeCpuGov core file d sys).2
| .governorOverrun :: _, _ =>
    .error .governorOverrun

/- A script never dereferences a profile pointer. -/
theorem runOps_ne_nullProfile
    (ops : List SysfsOp)
    (sys : Sysfs) :
    runOps ops sys ≠ .error .nullProfile := by
  induction ops generalizing sys with
  | nil =>
      simp [runOps]
  | cons op ops ih =>
      cases op with
      | write path d =>
          exact ih _
      | updateCpuGov core =>
          rw [runOps]
          split
          · exact ih _
          · simp
      | writeCpuGov core file d =>
          exact ih _
      | governorOverrun =>
          simp [runOps]

end Utils

end Universal7420
