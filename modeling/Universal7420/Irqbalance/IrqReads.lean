import Universal7420.Irqbalance.ScanForIrqs
import Mathlib.Logic.Function.Basic

/-
  The reads and stores of the second pass of `scan_for_irqs`.

  The memory behind `irqs` is a function here, so that a store
  outside the array would not stop the loop.  Every turn is
  recorded with the index of its store and the result of its
  read.  A blocked row does not advance the index, but there
  are at most as many blocked rows as the blacklist has
  entries.

  Main declarations:
    * `Universal7420.Irqbalance.scanReads`
    * `Universal7420.Irqbalance.readIrqs_eq_fillIrqs`
    * `Universal7420.Irqbalance.fillIrqs_rows`
    * `Universal7420.Irqbalance.scanReads_inside`
-/

------------------------------------------------------------
-- The Second Loop With Its Reads
------------------------------------------------------------

namespace Universal7420

namespace Irqbalance

open CText Scanf

/- A turn: the entry, the result of `fscanf`, the number. -/
structure IrqRead where
  index : Nat
  ret : Int
  irq : Int
deriving DecidableEq, Repr

/- The second loop, with a bound on its turns. -/
def fillIrqs
    (blacklist : List Int)
    (irqsNum : Int) :
    Nat → Nat → (Nat → Int) → Stream →
      Option (List IrqRead × (Nat → Int))
| 0, _, _, _ => none
| turns + 1, i, irqs, fp =>
    if (i : Int) < irqsNum then
      let scanned := fscanf irqFormat fp
      let irq := storedInt (irqs i) scanned.values
      let later :=
        fillIrqs blacklist irqsNum turns
          (if irq ∈ blacklist then i else i + 1)
          (Function.update irqs i irq)
          (fscanf lineFormat scanned.stream).stream
      later.map (fun result =>
        (⟨i, scanned.ret, irq⟩ :: result.1, result.2))
    else
      some ([], irqs)

/- The reads of the second pass over a file. -/
def scanReads
    (memory : Nat → Int)
    (blacklist : List Int)
    (turns : Nat)
    (text : List Char) : Option (List IrqRead) := do
  let fp := (fscanf lineFormat (fopen text)).stream
  let count ← countIrqs turns fp
  let irqsNum : Int := count - blacklist.length
  let result ←
    fillIrqs blacklist irqsNum turns 0 memory
      (fscanf lineFormat (fopen text)).stream
  return result.1

end Irqbalance

end Universal7420

------------------------------------------------------------
-- The Same Loop On An Array
------------------------------------------------------------

namespace Universal7420

namespace Irqbalance

open CText Scanf

variable {blacklist : List Int}
variable {irqsNum : Int}

/- An array is a part of the memory. -/
theorem set_map_range
    (memory : Nat → Int)
    (size i : Nat)
    (irq : Int) :
    ((List.range size).map memory).set i irq =
      (List.range size).map (Function.update memory i irq) := by
  apply List.ext_getElem
  · simp
  · intro k hk _
    by_cases hSame : k = i
    · simp [hSame]
    · have hOther : i ≠ k := Ne.symm hSame
      simp [hSame, hOther]

/- In an array of `irqs_num` entries both loops do the same. -/
theorem readIrqs_eq_fillIrqs
    {turns i size : Nat}
    {memory : Nat → Int}
    {fp : Stream}
    (hSize : irqsNum.toNat ≤ size) :
    readIrqs blacklist irqsNum turns i
        ((List.range size).map memory) fp =
      (fillIrqs blacklist irqsNum turns i memory fp).map
        (fun result =>
          .ret 0 irqsNum
            ((List.range size).map result.2)) := by
  induction turns generalizing i memory fp with
  | zero =>
      rfl
  | succ turns ih =>
      rw [readIrqs, fillIrqs]
      by_cases hMore : (i : Int) < irqsNum
      · have hEntry :
            ((List.range size).map memory)[i]? =
              some (memory i) := by
          have hInside : i < size := by
            omega
          simp [hInside]
        rw [if_pos hMore, if_pos hMore, hEntry]
        simp only [set_map_range, ih, Option.map_map]
        rfl
      · rw [if_neg hMore, if_neg hMore]
        rfl

end Irqbalance

end Universal7420

------------------------------------------------------------
-- Reads Of A Table
------------------------------------------------------------

namespace Universal7420

namespace Irqbalance

open CText Scanf

variable {blacklist : List Int}
variable {irqsNum : Int}

/- A read that found a number, stored below `irqs_num`. -/
structure IrqRead.Inside
    (irqsNum : Int)
    (read : IrqRead) : Prop where
  numeric : read.ret = 1
  below : (read.index : Int) < irqsNum

/-
  The loop on the rows of a table: while the index is below
  `irqs_num`, there is an allowed row left, so the next read
  finds a row.
-/
theorem fillIrqs_rows
    {rows : List IrqRow}
    {others : List OtherRow}
    {i : Nat}
    {memory : Nat → Int}
    {fp : Stream}
    (hBefore :
      Before fp (rows.map IrqRow.text ++
        others.map OtherRow.text))
    (hEnough :
      irqsNum.toNat ≤ i +
        ((rows.map (fun row => (row.irq : Int))).filter
          (fun irq => irq ∉ blacklist)).length) :
    ∃ reads memory',
      (∀ turns, rows.length < turns →
        fillIrqs blacklist irqsNum turns i memory fp =
          some (reads, memory')) ∧
      reads.map IrqRead.irq <+:
        rows.map (fun row => (row.irq : Int)) ∧
      ∀ read ∈ reads, read.Inside irqsNum := by
  induction rows generalizing i memory fp with
  | nil =>
      refine ⟨[], memory, ?_, List.nil_prefix, by simp⟩
      intro turns hTurns
      rcases turns with _ | turns
      · omega
      · rw [fillIrqs, if_neg]
        simp only [List.map_nil, List.filter_nil,
          List.length_nil] at hEnough
        omega
  | cons row rows ih =>
      by_cases hMore : (i : Int) < irqsNum
      · rcases fscanf_irqRow hBefore with
          ⟨hRet, hValues, hNext⟩
        rcases @ih _ (Function.update memory i row.irq) _
            hNext (enough_after_row hEnough) with
          ⟨reads, memory', hRun, hRows, hInside⟩
        refine ⟨⟨i, 1, row.irq⟩ :: reads, memory', ?_, ?_,
          ?_⟩
        · intro turns hTurns
          rcases turns with _ | turns
          · omega
          · have hLater := hRun turns (by simpa using hTurns)
            rw [fillIrqs, if_pos hMore]
            simp only [hRet, hValues, storedInt, hLater]
            rfl
        · rw [List.map_cons, List.map_cons]
          exact List.cons_prefix_cons.mpr ⟨rfl, hRows⟩
        · intro read hRead
          rcases List.mem_cons.mp hRead with hFirst | hLater
          · rw [hFirst]
            exact ⟨rfl, hMore⟩
          · exact hInside read hLater
      · refine ⟨[], memory, ?_, List.nil_prefix, by simp⟩
        intro turns hTurns
        rcases turns with _ | turns
        · omega
        · rw [fillIrqs, if_neg hMore]

/-
  The second pass over a table ends.  Its reads find the first
  numeric rows, one after the other, and what they store stays
  below `irqs_num`.
-/
theorem scanReads_inside
    (table : ProcInterrupts)
    (blacklist : List Int)
    (memory : Nat → Int) :
    ∃ reads,
      (∀ turns, table.rows.length < turns →
        scanReads memory blacklist turns table.text =
          some reads) ∧
      reads.map IrqRead.irq <+: table.irqs ∧
      ∀ read ∈ reads,
        read.Inside (table.irqsNum blacklist) := by
  have hEnough :
      (table.irqsNum blacklist).toNat ≤
        0 + (table.allowed blacklist).length := by
    rw [Nat.zero_add]
    exact table.irqsNum_le_allowed blacklist
  rcases @fillIrqs_rows blacklist (table.irqsNum blacklist)
      table.rows table.others 0 memory _ table.before_rows
      hEnough with
    ⟨reads, memory', hRun, hRows, hInside⟩
  refine ⟨reads, ?_, hRows, hInside⟩
  intro turns hTurns
  have hCount := countIrqs_rows hTurns table.before_rows
  have hNum :
      ((table.rows.length : Nat) : Int) - blacklist.length =
        table.irqsNum blacklist := by
    simp [ProcInterrupts.irqsNum, ProcInterrupts.irqs]
  simp only [scanReads, hCount, bind, Option.bind, hNum,
    hRun turns hTurns]
  rfl

end Irqbalance

end Universal7420
