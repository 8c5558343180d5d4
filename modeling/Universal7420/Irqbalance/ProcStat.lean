import Universal7420.Irqbalance.CpuData
import Universal7420.Lib.Scanf

/-
  The readers of `/proc/stat` in `irqbalance.c`, and the text
  that the kernel gives them.

  `readCpudata` counts lines to find a core and ignores the
  number on the line it reads.

  Main declarations:
    * `Universal7420.Irqbalance.readCpudata`
    * `Universal7420.Irqbalance.irqbalanceLoadWatchdog`
    * `Universal7420.Irqbalance.initCpudata`
    * `Universal7420.Irqbalance.ProcStat`
    * `Universal7420.Irqbalance.readCpudata_of_line`
    * `Universal7420.Irqbalance.readCpudata_of_no_line`
-/

------------------------------------------------------------
-- Readers
------------------------------------------------------------

namespace Universal7420

namespace Irqbalance

open CText Scanf

/- The format `"%*[^\n]\n"`. -/
def lineFormat : List Directive :=
  [.skipLine, .space]

/- The format `" %llu"`, repeated. -/
def columnFormat : Nat → List Directive
| 0 => []
| n + 1 => .space :: .ull :: columnFormat n

/- The format `"cpu%d %llu ... %llu\n"` with ten columns. -/
def cpuFormat : List Directive :=
  [.lit 'c', .lit 'p', .lit 'u', .int] ++
    (columnFormat 10 ++ [.space])

/- The counters among the stored values. -/
def storedColumns : List Value → List UInt64
| [] => []
| .ull n :: values => n :: storedColumns values
| _ :: values => storedColumns values

/- Skip a number of lines. -/
def skipLines : Nat → Stream → Stream
| 0, s => s
| n + 1, s => skipLines n (fscanf lineFormat s).stream

/-
  The result of a reader, the record after it, and the number
  of streams that it leaves open.
-/
structure CpuRead where
  ret : Int
  data : CpuData
  leftOpen : Nat

/-
  `read_cpudata`; the file is absent when it cannot be opened.
  The error path does not close the stream.
-/
def readCpudata
    (stat : Option (List Char))
    (offsCpus : Int)
    (data : CpuData)
    (core : Nat) : CpuRead :=
  match stat with
  | none => ⟨-2, data, 0⟩
  | some text =>
      let fp :=
        skipLines (core + offsCpus + 1).toNat (fopen text)
      let scanned := fscanf cpuFormat fp
      let data := data.assign (storedColumns scanned.values)
      if scanned.ret ≠ 11 then
        ⟨-22, { data with online := false }, 1⟩
      else
        ⟨0, { data with online := true }, 0⟩

/- The loop of the watchdog, from core `i` on. -/
def watchdogFrom
    (stat : Option (List Char))
    (offsCpus : Int) :
    Nat → List CpuData → List CpuData × Nat
| _, [] => ([], 0)
| i, old :: rest =>
    let read := readCpudata stat offsCpus old i
    if read.ret ≠ 0 then
      (read.data :: rest, read.leftOpen)
    else
      let later := watchdogFrom stat offsCpus (i + 1) rest
      ({ read.data with cpuUtil := cpuUtil old read.data } ::
          later.1,
        read.leftOpen + later.2)

/-
  `irqbalance_load_watchdog`: the records after it, and the
  number of streams that it leaves open.
-/
def irqbalanceLoadWatchdog
    (stat : Option (List Char))
    (offsCpus : Int)
    (cpudata : List CpuData) : List CpuData × Nat :=
  watchdogFrom stat offsCpus 0 cpudata

/- The record that `main` initializes for core `i`. -/
def initCore
    (stat : Option (List Char))
    (offsCpus : Int)
    (i : Nat) : Option CpuData :=
  let read := readCpudata stat offsCpus
    { CpuData.zero with
      core := UInt8.ofNat ((i + offsCpus) % 256).toNat } i
  if read.ret ≠ 0 then none else some read.data

/- The records of `main`; absent when it gives up. -/
def initCpudata
    (stat : Option (List Char))
    (offsCpus : Int)
    (nrCpus : Nat) : Option (List CpuData) :=
  (List.range nrCpus).mapM (initCore stat offsCpus)

end Irqbalance

end Universal7420

------------------------------------------------------------
-- The Text Of The Kernel
------------------------------------------------------------

namespace Universal7420

namespace Irqbalance

open CText Scanf

/- The columns of a line. -/
def columnsText (values : List UInt64) : List Char :=
  values.flatMap
    (fun n => ' ' :: (Numeral.ofNat n.toNat).text)

/- The line of an online CPU. -/
structure CpuLine where
  number : Nat
  cputime : Cputime → UInt64

namespace CpuLine

/- The counters in the order of the columns. -/
def columns (line : CpuLine) : List UInt64 :=
  Cputime.columns.map line.cputime

def text (line : CpuLine) : List Char :=
  ['c', 'p', 'u'] ++ (Numeral.ofNat line.number).text ++
    columnsText line.columns

end CpuLine

/- A line that does not belong to a CPU. -/
structure OtherLine where
  text : List Char
  oneLine : '\n' ∉ text
  letterFirst : ∃ c ∈ text.head?, c.isAlpha = true
  notCpu : text.take 3 ≠ ['c', 'p', 'u']

/-
  A content of `/proc/stat`: the sums of all CPUs, one line for
  each online CPU in increasing order, and other lines.
-/
structure ProcStat where
  sums : Cputime → UInt64
  cpus : List CpuLine
  increasing :
    (cpus.map CpuLine.number).Pairwise (· < ·)
  others : List OtherLine

namespace ProcStat

def sumsText (stat : ProcStat) : List Char :=
  ['c', 'p', 'u', ' '] ++
    columnsText (Cputime.columns.map stat.sums)

def lines (stat : ProcStat) : List (List Char) :=
  stat.sumsText ::
    (stat.cpus.map CpuLine.text ++
      stat.others.map OtherLine.text)

/- Every line ends with a newline. -/
def unlines (lines : List (List Char)) : List Char :=
  lines.flatMap (fun line => line ++ ['\n'])

def text (stat : ProcStat) : List Char :=
  unlines stat.lines

/- The line with the number of a CPU. -/
def own
    (stat : ProcStat)
    (cpu : Int) : Option CpuLine :=
  stat.cpus.find? (fun line => (line.number : Int) = cpu)

/- The line that is reached by counting to a CPU. -/
def counted
    (stat : ProcStat)
    (cpu : Int) : Option CpuLine :=
  if 0 ≤ cpu then stat.cpus[cpu.toNat]? else none

end ProcStat

end Irqbalance

end Universal7420

------------------------------------------------------------
-- Counting Lines
------------------------------------------------------------

namespace Universal7420

namespace Irqbalance

open CText Scanf

theorem isAlpha_bound
    {c : Char}
    (hLetter : c.isAlpha = true) :
    65 ≤ c.val.toNat := by
  have hCases :
      (decide (65 ≤ c.val ∧ c.val ≤ 90) ||
        (97 ≤ c.val && c.val ≤ 122)) = true :=
    hLetter
  simp only [Bool.or_eq_true, Bool.and_eq_true,
    decide_eq_true_eq] at hCases
  rcases hCases with ⟨hLower, _⟩ | ⟨hLower, _⟩
  · exact UInt32.le_iff_toNat_le.mp hLower
  · have hBound : 97 ≤ c.val.toNat :=
      UInt32.le_iff_toNat_le.mp hLower
    omega

/- A character below the letters is not a letter. -/
theorem ne_of_isAlpha
    {c d : Char}
    (hLetter : c.isAlpha = true)
    (hBelow : d.val.toNat < 65) :
    c ≠ d := by
  intro hEq
  have hBound := isAlpha_bound hLetter
  rw [hEq] at hBound
  omega

theorem not_isSpace_of_isAlpha
    {c : Char}
    (hLetter : c.isAlpha = true) :
    isSpace c = false := by
  have hBound := isAlpha_bound hLetter
  by_contra hSpace
  simp only [isSpace, Bool.not_eq_false, Bool.or_eq_true,
    beq_iff_eq, Bool.and_eq_true, decide_eq_true_eq]
    at hSpace
  rcases hSpace with hBlank | ⟨_, hUpper⟩
  · exact ne_of_isAlpha hLetter (by decide) hBlank
  · have hLow : c.val.toNat ≤ 13 :=
      UInt32.le_iff_toNat_le.mp hUpper
    omega

theorem not_isDigit_of_isAlpha
    {c : Char}
    (hLetter : c.isAlpha = true) :
    c.isDigit = false := by
  have hBound := isAlpha_bound hLetter
  by_contra hDigit
  simp only [Char.isDigit, Bool.not_eq_false,
    Bool.and_eq_true, decide_eq_true_eq] at hDigit
  have hUpper : c.val.toNat ≤ 57 :=
    UInt32.le_iff_toNat_le.mp hDigit.2
  omega

/- A line that starts with a letter. -/
structure PlainLine (line : List Char) : Prop where
  oneLine : '\n' ∉ line
  letterFirst : ∃ c ∈ line.head?, c.isAlpha = true

theorem PlainLine.ne_nil
    {line : List Char}
    (hPlain : PlainLine line) :
    line ≠ [] := by
  rcases hPlain.letterFirst with ⟨c, hFirst, _⟩
  intro hEmpty
  simp [hEmpty] at hFirst

@[simp] theorem unlines_nil :
    ProcStat.unlines [] = [] :=
  rfl

theorem unlines_cons
    (line : List Char)
    (lines : List (List Char)) :
    ProcStat.unlines (line :: lines) =
      line ++ '\n' :: ProcStat.unlines lines := by
  simp [ProcStat.unlines]

/- White space ends before the next plain line. -/
theorem dropWhile_isSpace_unlines
    {lines : List (List Char)}
    (hPlain : ∀ line ∈ lines, PlainLine line) :
    (ProcStat.unlines lines).dropWhile isSpace =
      ProcStat.unlines lines := by
  cases lines with
  | nil =>
      rfl
  | cons line lines =>
      rcases (hPlain line (by simp)).letterFirst with
        ⟨c, hFirst, hLetter⟩
      rcases line with _ | ⟨c', cs⟩
      · simp at hFirst
      · have hEq : c' = c := by
          simpa using hFirst
        rw [unlines_cons, List.cons_append,
          List.dropWhile_cons_of_neg]
        simp [hEq, not_isSpace_of_isAlpha hLetter]

/- One call of the skipping format skips one plain line. -/
theorem fscanf_lineFormat
    {line : List Char}
    {lines : List (List Char)}
    (hPlain : ∀ l ∈ line :: lines, PlainLine l) :
    (fscanf lineFormat
        ⟨ProcStat.unlines (line :: lines), false⟩).stream =
      ⟨ProcStat.unlines lines,
        (ProcStat.unlines lines).isEmpty⟩ := by
  have hLine := hPlain line (by simp)
  have hRest :
      (ProcStat.unlines lines).dropWhile isSpace =
        ProcStat.unlines lines := by
    apply dropWhile_isSpace_unlines
    intro l hl
    exact hPlain l (by simp [hl])
  have hSkip :
      Directive.skipLine.scan
          ⟨line ++ '\n' :: ProcStat.unlines lines, false⟩ =
        .matched []
          ⟨'\n' :: ProcStat.unlines lines, false⟩ :=
    scan_skipLine hLine.ne_nil hLine.oneLine (by simp) false
  rw [unlines_cons, fscanf, lineFormat, scanFrom, hSkip]
  simp [scanFrom, Directive.scan, Stream.skipSpace,
    Stream.advance, hRest,
    show isSpace '\n' = true by decide]

theorem skipLines_of_eof
    (n : Nat) :
    skipLines n ⟨[], true⟩ = ⟨[], true⟩ := by
  induction n with
  | zero =>
      rfl
  | succ n ih =>
      exact ih

/- Counting plain lines drops them. -/
theorem skipLines_unlines
    {lines : List (List Char)}
    (hPlain : ∀ line ∈ lines, PlainLine line)
    {n : Nat}
    (hCount : n < lines.length) :
    skipLines n ⟨ProcStat.unlines lines, false⟩ =
      ⟨ProcStat.unlines (lines.drop n), false⟩ := by
  induction n generalizing lines with
  | zero =>
      rfl
  | succ n ih =>
      rcases lines with _ | ⟨line, lines⟩
      · simp at hCount
      · have hMore : n < lines.length := by
          simpa using hCount
        have hOpen :
            (ProcStat.unlines lines).isEmpty = false := by
          rcases lines with _ | ⟨next, lines⟩
          · simp at hMore
          · simp [unlines_cons]
        rw [skipLines, fscanf_lineFormat hPlain, hOpen,
          List.drop_succ_cons]
        apply ih
        · intro l hl
          exact hPlain l (by simp [hl])
        · exact hMore

/- Counting past the last line ends at the end of the file. -/
theorem skipLines_unlines_of_le
    {lines : List (List Char)}
    (hPlain : ∀ line ∈ lines, PlainLine line)
    {n : Nat}
    (hSome : lines ≠ [])
    (hCount : lines.length ≤ n) :
    skipLines n ⟨ProcStat.unlines lines, false⟩ =
      ⟨[], true⟩ := by
  induction n generalizing lines with
  | zero =>
      exact absurd (List.length_eq_zero_iff.mp
        (Nat.le_zero.mp hCount)) hSome
  | succ n ih =>
      rcases lines with _ | ⟨line, lines⟩
      · exact absurd rfl hSome
      · rw [skipLines, fscanf_lineFormat hPlain]
        by_cases hLast : lines = []
        · rw [hLast]
          exact skipLines_of_eof n
        · have hOpen :
              (ProcStat.unlines lines).isEmpty = false := by
            rcases lines with _ | ⟨next, lines⟩
            · exact absurd rfl hLast
            · simp [unlines_cons]
          rw [hOpen]
          apply ih
          · intro l hl
            exact hPlain l (by simp [hl])
          · exact hLast
          · simpa using hCount

end Irqbalance

end Universal7420

------------------------------------------------------------
-- Reading Columns
------------------------------------------------------------

namespace Universal7420

namespace Irqbalance

open CText Scanf

theorem noDigitFirst_columnsText
    (values : List UInt64)
    {rest : List Char}
    (hRest : NoDigitFirst rest) :
    NoDigitFirst (columnsText values ++ rest) := by
  cases values with
  | nil =>
      exact hRest
  | cons n values =>
      intro c hc
      have hEq : c = ' ' := by
        simpa [columnsText] using hc.symm
      rw [hEq]
      decide

/- Each column is read back. -/
theorem scanFrom_columnFormat
    (values : List UInt64)
    (ds : List Directive)
    {rest : List Char}
    (hNonempty : rest ≠ [])
    (hRest : NoDigitFirst rest)
    (stored : List Value) :
    scanFrom (columnFormat values.length ++ ds)
        ⟨columnsText values ++ rest, false⟩ stored true =
      scanFrom ds ⟨rest, false⟩
        (stored ++ values.map Value.ull) true := by
  induction values generalizing stored with
  | nil =>
      simp [columnFormat, columnsText]
  | cons n values ih =>
      let numeral := Numeral.ofNat n.toNat
      have hText :
          columnsText (n :: values) ++ rest =
            ' ' :: (numeral.text ++
              (columnsText values ++ rest)) := by
        simp [columnsText, numeral]
      have hOpen :
          (columnsText values ++ rest).isEmpty = false := by
        simp [hNonempty]
      have hInk :
          (numeral.text ++
            (columnsText values ++ rest)).isEmpty =
              false := by
        simp [Numeral.text, numeral.nonempty]
      have hSpace :
          Directive.space.scan
              ⟨' ' :: (numeral.text ++
                (columnsText values ++ rest)), false⟩ =
            .matched []
              ⟨numeral.text ++
                (columnsText values ++ rest), false⟩ := by
        simp only [Directive.scan, Stream.skipSpace,
          Stream.advance,
          List.dropWhile_cons_of_pos
            (show isSpace ' ' = true by decide),
          numeral.dropWhile_isSpace, hInk, Bool.or_false]
      have hColumn :
          Directive.ull.scan
              ⟨numeral.text ++
                (columnsText values ++ rest), false⟩ =
            .matched [.ull n]
              ⟨columnsText values ++ rest, false⟩ := by
        rw [scan_ull_numeral (k := n)
          (Numeral.value_ofNat n.toNat)
          (numeral.dropWhile_isSpace _)
          (noDigitFirst_columnsText values hRest)]
        simp only [Stream.advance, hOpen, Bool.or_false]
      rw [hText, List.length_cons, columnFormat,
        List.cons_append, List.cons_append, scanFrom, hSpace]
      simp only [List.append_nil, Bool.true_or]
      rw [scanFrom, hColumn]
      simp only [Bool.true_or]
      rw [ih]
      simp

/- The letters before the number are consumed. -/
theorem fscanf_cpuFormat
    (rest : List Char) :
    fscanf cpuFormat ⟨['c', 'p', 'u'] ++ rest, false⟩ =
      scanFrom (.int :: (columnFormat 10 ++ [.space]))
        ⟨rest, false⟩ [] false := by
  simp [fscanf, cpuFormat, scanFrom, Directive.scan,
    Directive.isConversion]

/- The number is read and kept beside the columns. -/
theorem scanFrom_int
    (ds : List Directive)
    {spaces : List Char}
    (hSpaces : ∀ c ∈ spaces, isSpace c = true)
    (n : Numeral)
    {tail : List Char}
    (hNonempty : tail ≠ [])
    (hTail : NoDigitFirst tail) :
    scanFrom (.int :: ds)
        ⟨spaces ++ (n.text ++ tail), false⟩ [] false =
      scanFrom ds ⟨tail, false⟩ [.int (toInt n.value)]
        true := by
  have hDrop :
      (spaces ++ (n.text ++ tail)).dropWhile isSpace =
        n.text ++ tail := by
    rw [List.dropWhile_append_of_pos hSpaces]
    exact n.dropWhile_isSpace tail
  have hOpen : tail.isEmpty = false := by
    simp [hNonempty]
  have hScan :
      Directive.int.scan
          ⟨spaces ++ (n.text ++ tail), false⟩ =
        .matched [.int (toInt n.value)] ⟨tail, false⟩ := by
    rw [Directive.scan, scanNumber_numeral _ hDrop hTail]
    simp only [Stream.advance, hOpen, Bool.or_false]
  rw [scanFrom, hScan]
  rfl

theorem noDigitFirst_newline
    (rest : List Char) :
    NoDigitFirst ('\n' :: rest) := by
  intro c hc
  have hEq : c = '\n' := by
    simpa using hc.symm
  rw [hEq]
  decide

/- The line of a CPU gives its number and its counters. -/
theorem fscanf_cpuLine
    (line : CpuLine)
    (rest : List Char) :
    (fscanf cpuFormat
        ⟨line.text ++ '\n' :: rest, false⟩).ret = 11 ∧
      (fscanf cpuFormat
        ⟨line.text ++ '\n' :: rest, false⟩).values =
          .int (toInt line.number) ::
            line.columns.map Value.ull := by
  have hScan :
      fscanf cpuFormat ⟨line.text ++ '\n' :: rest, false⟩ =
        scanFrom [.space] ⟨'\n' :: rest, false⟩
          (.int (toInt line.number) ::
            line.columns.map Value.ull) true := by
    have hText :
        line.text ++ '\n' :: rest =
          ['c', 'p', 'u'] ++ ([] ++
            ((Numeral.ofNat line.number).text ++
              (columnsText line.columns ++
                '\n' :: rest))) := by
      simp [CpuLine.text]
    have hLength : line.columns.length = 10 := by
      simp [CpuLine.columns, Cputime.columns]
    rw [hText, fscanf_cpuFormat,
      scanFrom_int _ (by simp) _ (by simp)
        (noDigitFirst_columnsText _
          (noDigitFirst_newline rest)),
      ← hLength,
      scanFrom_columnFormat _ _ (by simp)
        (noDigitFirst_newline rest), Numeral.value_ofNat]
    rfl
  rw [hScan]
  simp [scanFrom, Directive.scan, CpuLine.columns,
    Cputime.columns]

/- A letter is no counter. -/
theorem scan_ull_of_letter
    {c : Char}
    (hLetter : c.isAlpha = true)
    (rest : List Char)
    (eof : Bool) :
    Directive.ull.scan ⟨c :: rest, eof⟩ =
      .matchingFailure ⟨c :: rest, eof⟩ := by
  have hMinus : c ≠ '-' :=
    ne_of_isAlpha hLetter (by decide)
  have hPlus : c ≠ '+' :=
    ne_of_isAlpha hLetter (by decide)
  have hSplit :
      splitSign (c :: rest) = (false, c :: rest) := by
    simp [splitSign, hMinus, hPlus]
  simp [Directive.scan, scanNumber, Stream.skipSpace,
    Stream.advance, not_isSpace_of_isAlpha hLetter,
    scanDecimal, hSplit, not_isDigit_of_isAlpha hLetter]

/- The sums have one column too few for the format. -/
theorem fscanf_sums
    (stat : ProcStat)
    {lines : List (List Char)}
    (hPlain : ∀ line ∈ lines, PlainLine line) :
    (fscanf cpuFormat
        ⟨stat.sumsText ++ '\n' :: ProcStat.unlines lines,
          false⟩).ret = 10 := by
  let first := stat.sums .user
  let others := Cputime.columns.tail.map stat.sums
  have hText :
      stat.sumsText ++ '\n' :: ProcStat.unlines lines =
        ['c', 'p', 'u'] ++ ([' ', ' '] ++
          ((Numeral.ofNat first.toNat).text ++
            (columnsText others ++
              '\n' :: ProcStat.unlines lines))) := by
    simp [ProcStat.sumsText, columnsText, Cputime.columns,
      first, others]
  have hFormat :
      columnFormat 10 ++ [Directive.space] =
        columnFormat others.length ++
          [.space, .ull, .space] := by
    rfl
  rw [hText, fscanf_cpuFormat,
    scanFrom_int _ (by simp [isSpace]) _ (by simp)
      (noDigitFirst_columnsText _
        (noDigitFirst_newline _)),
    hFormat,
    scanFrom_columnFormat _ _ (by simp)
      (noDigitFirst_newline _)]
  have hSpace :
      Directive.space.scan
          ⟨'\n' :: ProcStat.unlines lines, false⟩ =
        .matched []
          ⟨ProcStat.unlines lines,
            (ProcStat.unlines lines).isEmpty⟩ := by
    simp only [Directive.scan, Stream.skipSpace,
      Stream.advance,
      List.dropWhile_cons_of_pos
        (show isSpace '\n' = true by decide),
      dropWhile_isSpace_unlines hPlain, Bool.false_or]
  rw [scanFrom, hSpace]
  cases lines with
  | nil =>
      rfl
  | cons line lines =>
      rcases (hPlain line (by simp)).letterFirst with
        ⟨c, hFirst, hLetter⟩
      rcases line with _ | ⟨c', cs⟩
      · simp at hFirst
      · have hEq : c' = c := by
          simpa using hFirst
        rw [hEq, unlines_cons, List.cons_append]
        simp only [scanFrom, scan_ull_of_letter hLetter]
        rfl

/- Another line does not match the letters. -/
theorem fscanf_otherLine
    (line : OtherLine)
    (rest : List Char) :
    (fscanf cpuFormat
        ⟨line.text ++ '\n' :: rest, false⟩).ret = 0 := by
  rcases hText : line.text with _ | ⟨a, _ | ⟨b, _ | ⟨c, cs⟩⟩⟩
  · rcases line.letterFirst with ⟨_, hFirst, _⟩
    simp [hText] at hFirst
  · by_cases hA : a = 'c'
    · simp [fscanf, cpuFormat, scanFrom, Directive.scan, hA]
    · simp [fscanf, cpuFormat, scanFrom, Directive.scan, hA]
  · by_cases hA : a = 'c'
    · by_cases hB : b = 'p'
      · simp [fscanf, cpuFormat, scanFrom, Directive.scan,
          hA, hB]
      · simp [fscanf, cpuFormat, scanFrom, Directive.scan,
          hA, hB]
    · simp [fscanf, cpuFormat, scanFrom, Directive.scan, hA]
  · by_cases hA : a = 'c'
    · by_cases hB : b = 'p'
      · have hC : c ≠ 'u' := by
          intro hEq
          apply line.notCpu
          simp [hText, hA, hB, hEq]
        simp [fscanf, cpuFormat, scanFrom, Directive.scan,
          hA, hB, hC]
      · simp [fscanf, cpuFormat, scanFrom, Directive.scan,
          hA, hB]
    · simp [fscanf, cpuFormat, scanFrom, Directive.scan, hA]

end Irqbalance

end Universal7420

------------------------------------------------------------
-- Reading A Core
------------------------------------------------------------

namespace Universal7420

namespace Irqbalance

open CText Scanf

theorem newline_not_mem_ofNat
    (n : Nat) :
    '\n' ∉ (Numeral.ofNat n).text := by
  intro hMem
  have hDigit :=
    (Numeral.ofNat n).allDigits '\n'
      (by simpa [Numeral.text, Numeral.ofNat,
        Numeral.signText] using hMem)
  exact absurd hDigit (by decide)

theorem newline_not_mem_columnsText
    (values : List UInt64) :
    '\n' ∉ columnsText values := by
  intro hMem
  rcases List.mem_flatMap.mp hMem with ⟨n, _, hColumn⟩
  rcases List.mem_cons.mp hColumn with hSpace | hDigits
  · exact absurd hSpace (by decide)
  · exact newline_not_mem_ofNat n.toNat hDigits

theorem plainLine_cpuLine
    (line : CpuLine) :
    PlainLine line.text := by
  refine ⟨?_, 'c', by simp [CpuLine.text], by decide⟩
  simp [CpuLine.text, newline_not_mem_ofNat,
    newline_not_mem_columnsText]

/- Every line of the file starts with a letter. -/
theorem ProcStat.plainLines
    (stat : ProcStat) :
    ∀ line ∈ stat.lines, PlainLine line := by
  intro line hLine
  simp only [lines, List.mem_cons, List.mem_append,
    List.mem_map] at hLine
  rcases hLine with
    hSums | ⟨cpu, _, hCpu⟩ | ⟨other, _, hOther⟩
  · rw [hSums]
    refine ⟨?_, 'c', by simp [sumsText], by decide⟩
    simp [sumsText, newline_not_mem_columnsText]
  · rw [← hCpu]
    exact plainLine_cpuLine cpu
  · rw [← hOther]
    exact ⟨other.oneLine, other.letterFirst⟩

theorem ProcStat.counted_eq_some_iff
    {stat : ProcStat}
    {cpu : Int}
    {line : CpuLine} :
    stat.counted cpu = some line ↔
      0 ≤ cpu ∧ stat.cpus[cpu.toNat]? = some line := by
  unfold counted
  by_cases hNonneg : 0 ≤ cpu
  · simp [hNonneg]
  · simp [hNonneg]

/- The line that counting reaches. -/
theorem ProcStat.drop_lines_of_counted
    {stat : ProcStat}
    {cpu : Int}
    {line : CpuLine}
    (hCounted : stat.counted cpu = some line) :
    (cpu + 1).toNat < stat.lines.length ∧
      ∃ rest,
        stat.lines.drop (cpu + 1).toNat =
          line.text :: rest := by
  rcases counted_eq_some_iff.mp hCounted with
    ⟨hNonneg, hLine⟩
  rcases List.getElem?_eq_some_iff.mp hLine with
    ⟨hIndex, hGet⟩
  have hSucc : (cpu + 1).toNat = cpu.toNat + 1 := by
    omega
  have hInner :
      cpu.toNat <
        (stat.cpus.map CpuLine.text ++
          stat.others.map OtherLine.text).length := by
    simp only [List.length_append, List.length_map]
    omega
  have hText :
      (stat.cpus.map CpuLine.text ++
          stat.others.map OtherLine.text)[cpu.toNat] =
        line.text := by
    simp [List.getElem_append_left, hIndex, hGet]
  constructor
  · rw [hSucc, lines, List.length_cons]
    omega
  · refine ⟨(stat.cpus.map CpuLine.text ++
      stat.others.map OtherLine.text).drop
        (cpu.toNat + 1), ?_⟩
    rw [hSucc, lines, List.drop_succ_cons,
      List.drop_eq_getElem_cons hInner, hText]

/- The counters of a whole line replace the old ones. -/
theorem CpuData.assign_columns
    (data : CpuData)
    (line : CpuLine) :
    data.assign line.columns =
      { data with cputime := line.cputime } := by
  unfold assign
  congr 1
  funext column
  cases column <;> rfl

theorem storedColumns_map
    (values : List UInt64) :
    storedColumns (values.map Value.ull) = values := by
  induction values with
  | nil =>
      rfl
  | cons n values ih =>
      simp [storedColumns, ih]

/- A core whose count reaches a line takes that line. -/
theorem readCpudata_of_line
    {stat : ProcStat}
    {offsCpus : Int}
    {core : Nat}
    {line : CpuLine}
    (hCounted :
      stat.counted (core + offsCpus) = some line)
    (data : CpuData) :
    readCpudata (some stat.text) offsCpus data core =
      ⟨0, { data with
        online := true
        cputime := line.cputime }, 0⟩ := by
  rcases ProcStat.drop_lines_of_counted hCounted with
    ⟨hInside, rest, hDrop⟩
  have hStream :
      skipLines (core + offsCpus + 1).toNat
          (fopen stat.text) =
        ⟨line.text ++ '\n' :: ProcStat.unlines rest,
          false⟩ := by
    rw [fopen, ProcStat.text,
      skipLines_unlines stat.plainLines hInside, hDrop,
      unlines_cons]
  rcases fscanf_cpuLine line (ProcStat.unlines rest) with
    ⟨hRet, hValues⟩
  simp only [readCpudata, hStream, hRet, hValues,
    storedColumns, storedColumns_map,
    CpuData.assign_columns]
  simp

/- Counting past the last CPU reads no line of a CPU. -/
theorem fscanf_past_cpus
    {stat : ProcStat}
    {index : Nat}
    (hPast : stat.cpus.length ≤ index) :
    (fscanf cpuFormat
      (skipLines (index + 1) (fopen stat.text))).ret ≠
        11 := by
  by_cases hInside : index + 1 < stat.lines.length
  · have hOther :
        index - stat.cpus.length < stat.others.length := by
      simp only [ProcStat.lines, List.length_cons,
        List.length_append, List.length_map] at hInside
      omega
    have hDrop :
        stat.lines.drop (index + 1) =
          stat.others[index - stat.cpus.length].text ::
            stat.lines.drop (index + 2) := by
      rw [List.drop_eq_getElem_cons hInside]
      simp [ProcStat.lines, List.getElem_append_right, hPast]
    rw [fopen, ProcStat.text,
      skipLines_unlines stat.plainLines hInside, hDrop,
      unlines_cons, fscanf_otherLine]
    decide
  · rw [fopen, ProcStat.text,
      skipLines_unlines_of_le stat.plainLines
        (by simp [ProcStat.lines]) (Nat.le_of_not_lt hInside)]
    decide

/- A core whose count reaches no line is marked offline. -/
theorem readCpudata_of_no_line
    {stat : ProcStat}
    {offsCpus : Int}
    {core : Nat}
    (hCounted : stat.counted (core + offsCpus) = none)
    (data : CpuData) :
    (readCpudata (some stat.text) offsCpus data core).ret =
        -22 ∧
      (readCpudata (some stat.text) offsCpus data
        core).data.online = false := by
  have hRet :
      (fscanf cpuFormat
        (skipLines (core + offsCpus + 1).toNat
          (fopen stat.text))).ret ≠ 11 := by
    by_cases hNonneg : 0 ≤ (core : Int) + offsCpus
    · have hPast :
          stat.cpus.length ≤
            ((core : Int) + offsCpus).toNat := by
        simpa [ProcStat.counted, hNonneg] using hCounted
      have hSucc :
          ((core : Int) + offsCpus + 1).toNat =
            ((core : Int) + offsCpus).toNat + 1 := by
        omega
      rw [hSucc]
      exact fscanf_past_cpus hPast
    · have hZero :
          ((core : Int) + offsCpus + 1).toNat = 0 := by
        omega
      rw [hZero, skipLines, fopen, ProcStat.text,
        ProcStat.lines, unlines_cons,
        fscanf_sums stat (fun line hLine =>
          stat.plainLines line
            (by simp only [ProcStat.lines]; simp [hLine]))]
      decide
  simp only [readCpudata, if_pos hRet, and_self]

end Irqbalance

end Universal7420
