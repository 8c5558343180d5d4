import Mathlib.Logic.Function.Basic

/-
  The per-core record of `irqbalance.c`.

  Main declarations:
    * `Universal7420.Irqbalance.CpuData`
    * `Universal7420.Irqbalance.CpuData.assign`
    * `Universal7420.Irqbalance.cpuUtil`
-/

------------------------------------------------------------
-- Counters
------------------------------------------------------------

namespace Universal7420

namespace Irqbalance

/- The `cputime_` members, in the order of the struct. -/
inductive Cputime where
| user
| nice
| system
| idle
| iowait
| irq
| softirq
| steal
| guest
| guestNice
deriving DecidableEq, Repr

/- The order in which a line of `/proc/stat` has them. -/
def Cputime.columns : List Cputime :=
  [.user, .nice, .system, .idle, .iowait, .irq, .softirq,
    .steal, .guest, .guestNice]

/- `cpudata_t` -/
structure CpuData where
  core : UInt8
  online : Bool
  cputime : Cputime → UInt64
  cpuUtil : UInt64

namespace CpuData

/- A record in zeroed memory. -/
def zero : CpuData where
  core := 0
  online := false
  cputime := fun _ => 0
  cpuUtil := 0

/- Store values through the pointers of the first columns. -/
def assign
    (data : CpuData)
    (values : List UInt64) : CpuData :=
  { data with
    cputime :=
      (Cputime.columns.zip values).foldl
        (fun cputime entry =>
          Function.update cputime entry.1 entry.2)
        data.cputime }

/- `TOTAL_CPUTIME`: every counter except the idle time. -/
def totalCputime (data : CpuData) : UInt64 :=
  data.cputime .user + data.cputime .nice +
    data.cputime .system + data.cputime .iowait +
    data.cputime .irq + data.cputime .softirq +
    data.cputime .steal + data.cputime .guest +
    data.cputime .guestNice

end CpuData

/- The busy time between two readings. -/
def cputimeDelta
    (old cur : CpuData) : UInt64 :=
  cur.totalCputime - old.totalCputime

/- The whole time between two readings. -/
def cputimeTotalDelta
    (old cur : CpuData) : UInt64 :=
  (cur.totalCputime + cur.cputime .idle) -
    (old.totalCputime + old.cputime .idle)

/-
  The utilization between two readings.  C leaves a division
  by zero undefined; here it gives zero.
-/
def cpuUtil
    (old cur : CpuData) : UInt64 :=
  (cputimeDelta old cur * 100) / cputimeTotalDelta old cur

end Irqbalance

end Universal7420
