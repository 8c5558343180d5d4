import Universal7420.Irqbalance.Configuration
import Mathlib.Data.List.DropRight
import Mathlib.Data.List.Perm.Subperm
import Mathlib.Data.List.TakeDrop
import Mathlib.Data.List.Nodup

/-
  `scan_for_irqs` in `irqbalance.c`, and the text of
  `/proc/interrupts`.

  The table is read twice.  The first pass counts the numeric
  rows, the length of the blacklist is subtracted, and the
  second pass stores rows that are not in the blacklist until
  that number is reached.

  Main declarations:
    * `Universal7420.Irqbalance.scanForIrqs`
    * `Universal7420.Irqbalance.ProcInterrupts`
    * `Universal7420.Irqbalance.fscanf_irqRow`
    * `Universal7420.Irqbalance.scanForIrqs_returns`
    * `Universal7420.Irqbalance.irqs_right_iff`
-/

------------------------------------------------------------
-- The Scan
------------------------------------------------------------

namespace Universal7420

namespace Irqbalance

open CText Scanf

/- The format `"%d: "`. -/
def irqFormat : List Directive :=
  [.int, .lit ':', .space]

/- How the scan ends, with `irqs_num` and `irqs`. -/
inductive ScanOutcome where
| ret (code irqsNum : Int) (irqs : List Int)
| heapOverflow
deriving DecidableEq, Repr

/- The first loop, with a bound on its turns. -/
def countIrqs : Nat → Stream → Option Nat
| 0, _ => none
| fuel + 1, fp =>
    let scanned := fscanf irqFormat fp
    if scanned.ret = 1 then
      (countIrqs fuel
        (fscanf lineFormat scanned.stream).stream).map
          (· + 1)
    else
      some 0

/-
  The second loop, with a bound on its turns.  An entry keeps
  what the memory holds when no number is read.
-/
def readIrqs
    (blacklist : List Int)
    (irqsNum : Int) :
    Nat → Nat → List Int → Stream → Option ScanOutcome
| 0, _, _, _ => none
| fuel + 1, i, irqs, fp =>
    if (i : Int) < irqsNum then
      match irqs[i]? with
      | none => some .heapOverflow
      | some old =>
          let scanned := fscanf irqFormat fp
          let irq := storedInt old scanned.values
          readIrqs blacklist irqsNum fuel
            (if irq ∈ blacklist then i else i + 1)
            (irqs.set i irq)
            (fscanf lineFormat scanned.stream).stream
    else
      some (.ret 0 irqsNum irqs)

/- `sz`, converted to `int`. -/
def irqsSz (irqsNum : Int) : Int :=
  (irqsNum * 4).bmod (2 ^ 32)

/-
  `scan_for_irqs`; the file is absent when it cannot be opened.
  `malloc` says which sizes can be allocated, and `memory` is
  what new memory holds.
-/
def scanForIrqs
    (malloc : Nat → Bool)
    (memory : Nat → Int)
    (blacklist : List Int)
    (fuel : Nat)
    (interrupts : Option (List Char)) :
    Option ScanOutcome :=
  match interrupts with
  | none => some (.ret (-2) 0 [])
  | some text => do
      let fp := (fscanf lineFormat (fopen text)).stream
      let count ← countIrqs fuel fp
      let irqsNum : Int := count - blacklist.length
      let sz := irqsSz irqsNum
      if malloc (sz % 2 ^ 64).toNat then
        readIrqs blacklist irqsNum fuel 0
          ((List.range (sz / 4).toNat).map memory)
          (fscanf lineFormat (fopen text)).stream
      else
        return .ret (-12) irqsNum []

end Irqbalance

end Universal7420

------------------------------------------------------------
-- The Text Of The Kernel
------------------------------------------------------------

namespace Universal7420

namespace Irqbalance

open CText Scanf

/- The row of a numeric interrupt. -/
structure IrqRow where
  indent : List Char
  irq : Nat
  detail : List Char
  blank : ∀ c ∈ indent, isSpace c = true
  isInt : irq < 2 ^ 31
  indentLine : '\n' ∉ indent
  detailLine : '\n' ∉ detail
  ink : ∃ c ∈ detail, isSpace c = false

def IrqRow.text (row : IrqRow) : List Char :=
  row.indent ++ ((Numeral.ofNat row.irq).text ++
    ':' :: row.detail)

/- A row that does not start with a number. -/
structure OtherRow where
  indent : List Char
  first : Char
  detail : List Char
  blank : ∀ c ∈ indent, isSpace c = true
  notBlank : isSpace first = false
  notDigit : first.isDigit = false
  notSign : first ≠ '-' ∧ first ≠ '+'

def OtherRow.text (row : OtherRow) : List Char :=
  row.indent ++ row.first :: row.detail

/-
  A content of `/proc/interrupts`: a header, numeric rows, each
  with an interrupt of its own, and other rows.
-/
structure ProcInterrupts where
  header : List Char
  headerLine : '\n' ∉ header
  rows : List IrqRow
  distinct : (rows.map IrqRow.irq).Nodup
  others : List OtherRow

namespace ProcInterrupts

def text (table : ProcInterrupts) : List Char :=
  ProcStat.unlines (table.header ::
    (table.rows.map IrqRow.text ++
      table.others.map OtherRow.text))

/- The numeric interrupts in table order. -/
def irqs (table : ProcInterrupts) : List Int :=
  table.rows.map (fun row => (row.irq : Int))

/- The interrupts that are not in a blacklist. -/
def allowed
    (table : ProcInterrupts)
    (blacklist : List Int) : List Int :=
  table.irqs.filter (fun irq => irq ∉ blacklist)

end ProcInterrupts

end Irqbalance

end Universal7420

------------------------------------------------------------
-- Reading Rows
------------------------------------------------------------

namespace Universal7420

namespace Irqbalance

open CText Scanf

/- The stream is before some lines, up to white space. -/
def Before
    (fp : Stream)
    (lines : List (List Char)) : Prop :=
  fp.rest.dropWhile isSpace =
    (ProcStat.unlines lines).dropWhile isSpace

/- The rest of a line is skipped. -/
theorem before_of_skipLine
    {fp : Stream}
    {line : List Char}
    {lines : List (List Char)}
    (hLine : '\n' ∉ line)
    (hRest :
      fp.rest = line ++ '\n' :: ProcStat.unlines lines) :
    Before (fscanf lineFormat fp).stream lines := by
  have hSpace : isSpace '\n' = true := by
    decide
  have hStream :
      fp =
        ⟨line ++ '\n' :: ProcStat.unlines lines, fp.eof⟩ := by
    rw [← hRest]
  rw [hStream]
  by_cases hEmpty : line = []
  · -- nothing to skip, and the newline is white space
    simp [Before, hEmpty, fscanf, lineFormat, scanFrom,
      Directive.scan, hSpace]
  · have hTail :
        ∀ c ∈ ('\n' :: ProcStat.unlines lines).head?,
          c = '\n' := by
      simp
    rw [fscanf, lineFormat, scanFrom,
      scan_skipLine hEmpty hLine hTail]
    simp [Before, scanFrom, Directive.scan,
      Stream.skipSpace, Stream.advance, hSpace,
      List.dropWhile_idempotent]

/- A numeric row gives its number, and then it is skipped. -/
theorem fscanf_irqRow
    {fp : Stream}
    {row : IrqRow}
    {lines : List (List Char)}
    (hBefore : Before fp (row.text :: lines)) :
    (fscanf irqFormat fp).ret = 1 ∧
      (fscanf irqFormat fp).values = [.int row.irq] ∧
      Before (fscanf lineFormat
        (fscanf irqFormat fp).stream).stream lines := by
  have hIsInt : IsInt32 (Numeral.ofNat row.irq).value := by
    rw [Numeral.value_ofNat]
    have hBound := row.isInt
    constructor <;> omega
  have hRest :
      fp.rest.dropWhile isSpace =
        (Numeral.ofNat row.irq).text ++
          (':' :: (row.detail ++
            '\n' :: ProcStat.unlines lines)) := by
    rw [hBefore, unlines_cons, IrqRow.text,
      List.append_assoc, List.append_assoc,
      List.dropWhile_append_of_pos row.blank,
      Numeral.dropWhile_isSpace]
    rfl
  have hColon :
      NoDigitFirst (':' :: (row.detail ++
        '\n' :: ProcStat.unlines lines)) := by
    intro c hc
    have hEq : c = ':' := by
      simpa using hc.symm
    rw [hEq]
    decide
  have hNumber := scan_int_numeral hIsInt hRest hColon
  have hScan :
      fscanf irqFormat fp =
        ⟨1, [.int row.irq],
          (Stream.skipSpace
            ⟨row.detail ++ '\n' :: ProcStat.unlines lines,
              fp.eof⟩)⟩ := by
    rw [fscanf, irqFormat, scanFrom, hNumber]
    simp [scanFrom, Directive.scan, Stream.advance]
  rw [hScan]
  refine ⟨rfl, rfl, ?_⟩
  -- the blanks after the colon end inside the row
  have hInk : row.detail.dropWhile isSpace ≠ [] := by
    rcases row.ink with ⟨c, hMem, hSpace⟩
    intro hEmpty
    have hAll := List.dropWhile_eq_nil_iff.mp hEmpty c hMem
    rw [hSpace] at hAll
    cases hAll
  have hDetail :
      (row.detail ++ '\n' ::
          ProcStat.unlines lines).dropWhile isSpace =
        row.detail.dropWhile isSpace ++
          '\n' :: ProcStat.unlines lines := by
    rw [List.dropWhile_append]
    simp [hInk]
  have hLine : '\n' ∉ row.detail.dropWhile isSpace := by
    intro hMem
    exact row.detailLine
      ((List.dropWhile_sublist _).subset hMem)
  exact before_of_skipLine hLine hDetail

/- Before any other row, and at the end, no number is read. -/
theorem fscanf_no_irqRow
    {fp : Stream}
    {others : List OtherRow}
    (hBefore : Before fp (others.map OtherRow.text)) :
    (fscanf irqFormat fp).ret ≠ 1 := by
  cases others with
  | nil =>
      have hRest : fp.rest.dropWhile isSpace = [] := hBefore
      simp [fscanf, irqFormat, scanFrom, Directive.scan,
        scanNumber, Stream.skipSpace, Stream.advance, hRest]
  | cons row others =>
      have hRest :
          fp.rest.dropWhile isSpace =
            row.first :: (row.detail ++ '\n' ::
              ProcStat.unlines
                (others.map OtherRow.text)) := by
        rw [hBefore, List.map_cons, unlines_cons,
          OtherRow.text, List.append_assoc,
          List.dropWhile_append_of_pos row.blank,
          List.cons_append, List.dropWhile_cons_of_neg]
        simp [row.notBlank]
      have hNumber :
          ∃ rest,
            scanDecimal (row.first :: (row.detail ++ '\n' ::
              ProcStat.unlines
                (others.map OtherRow.text))) =
              (none, rest) := by
        simp [scanDecimal, splitSign, row.notSign.1,
          row.notSign.2, row.notDigit]
      rcases hNumber with ⟨rest, hNumber⟩
      simp [fscanf, irqFormat, scanFrom, Directive.scan,
        scanNumber, Stream.skipSpace, Stream.advance, hRest,
        hNumber]

end Irqbalance

end Universal7420

------------------------------------------------------------
-- The Two Passes
------------------------------------------------------------

namespace Universal7420

namespace Irqbalance

open CText Scanf

variable {rows : List IrqRow}
variable {others : List OtherRow}
variable {blacklist : List Int}

/- The first pass counts the numeric rows. -/
theorem countIrqs_rows
    {fuel : Nat}
    {fp : Stream}
    (hFuel : rows.length < fuel)
    (hBefore :
      Before fp (rows.map IrqRow.text ++
        others.map OtherRow.text)) :
    countIrqs fuel fp = some rows.length := by
  induction rows generalizing fuel fp with
  | nil =>
      rcases fuel with _ | fuel
      · omega
      · simp [countIrqs, fscanf_no_irqRow hBefore]
  | cons row rows ih =>
      rcases fuel with _ | fuel
      · omega
      · rcases fscanf_irqRow hBefore with
          ⟨hRet, _, hNext⟩
        have hLater := ih (by simpa using hFuel) hNext
        simp [countIrqs, hRet, hLater]

/-
  A row that is allowed takes one entry, so the rows behind it
  are enough for the entries that are left.
-/
theorem enough_after_row
    {row : IrqRow}
    {num i : Nat}
    (hEnough :
      num ≤ i +
        (((row :: rows).map
          (fun row => (row.irq : Int))).filter
            (fun irq => irq ∉ blacklist)).length) :
    num ≤
      (if (row.irq : Int) ∈ blacklist then i else i + 1) +
        ((rows.map (fun row => (row.irq : Int))).filter
          (fun irq => irq ∉ blacklist)).length := by
  by_cases hListed : (row.irq : Int) ∈ blacklist
  · simpa [hListed] using hEnough
  · simp [hListed] at hEnough ⊢
    omega

/- The second pass stores allowed rows up to its number. -/
theorem readIrqs_rows
    {irqsNum : Int}
    {fuel i : Nat}
    {irqs : List Int}
    {fp : Stream}
    (hFuel : rows.length < fuel)
    (hBefore :
      Before fp (rows.map IrqRow.text ++
        others.map OtherRow.text))
    (hIndex : i ≤ irqsNum.toNat)
    (hSize : irqsNum.toNat ≤ irqs.length)
    (hEnough :
      irqsNum.toNat ≤ i +
        ((rows.map (fun row => (row.irq : Int))).filter
          (fun irq => irq ∉ blacklist)).length) :
    ∃ out,
      readIrqs blacklist irqsNum fuel i irqs fp =
          some (.ret 0 irqsNum out) ∧
        out.take irqsNum.toNat =
          irqs.take i ++
            ((rows.map (fun row => (row.irq : Int))).filter
              (fun irq => irq ∉ blacklist)).take
                (irqsNum.toNat - i) := by
  induction rows generalizing fuel i irqs fp with
  | nil =>
      rcases fuel with _ | fuel
      · omega
      · have hDone : i = irqsNum.toNat := by
          simp only [List.map_nil, List.filter_nil,
            List.length_nil] at hEnough
          omega
        refine ⟨irqs, ?_, by simp [hDone]⟩
        rw [readIrqs, if_neg (by omega)]
  | cons row rows ih =>
      rcases fuel with _ | fuel
      · omega
      · by_cases hMore : (i : Int) < irqsNum
        · have hInside : i < irqs.length := by
            omega
          rcases fscanf_irqRow hBefore with
            ⟨_, hValues, hNext⟩
          have hLater : rows.length < fuel := by
            simpa using hFuel
          have hLeft := enough_after_row hEnough
          rw [readIrqs, if_pos hMore,
            List.getElem?_eq_getElem hInside]
          simp only [hValues, storedInt]
          by_cases hListed : (row.irq : Int) ∈ blacklist
          · -- the entry is overwritten by a later row
            rw [if_pos hListed] at hLeft ⊢
            have hEnd :=
              @ih fuel i (irqs.set i row.irq) _ hLater hNext
                hIndex (by simpa using hSize) hLeft
            rcases hEnd with ⟨out, hRun, hOut⟩
            refine ⟨out, hRun, ?_⟩
            rw [hOut, List.take_set_of_le (Nat.le_refl i)]
            simp [hListed]
          · rw [if_neg hListed] at hLeft ⊢
            have hEnd :=
              @ih fuel (i + 1) (irqs.set i row.irq) _ hLater
                hNext (by omega) (by simpa using hSize)
                hLeft
            rcases hEnd with ⟨out, hRun, hOut⟩
            refine ⟨out, hRun, ?_⟩
            have hCount :
                irqsNum.toNat - i =
                  irqsNum.toNat - (i + 1) + 1 := by
              omega
            rw [hOut, hCount, List.take_succ_eq_append_getElem
              (by simpa using hInside),
              List.take_set_of_le (Nat.le_refl i)]
            simp [hListed]
        · have hDone : i = irqsNum.toNat := by
            omega
          refine ⟨irqs, ?_, by simp [hDone]⟩
          rw [readIrqs, if_neg hMore]

/- A second pass that ends has stayed inside the array. -/
theorem readIrqs_ret
    {irqsNum code num : Int}
    {fuel i : Nat}
    {irqs out : List Int}
    {fp : Stream}
    (hIndex : i ≤ irqs.length)
    (hRet :
      readIrqs blacklist irqsNum fuel i irqs fp =
        some (.ret code num out)) :
    code = 0 ∧ num = irqsNum ∧
      irqsNum.toNat ≤ irqs.length := by
  induction fuel generalizing i irqs fp with
  | zero =>
      cases hRet
  | succ fuel ih =>
      rw [readIrqs] at hRet
      by_cases hMore : (i : Int) < irqsNum
      · rw [if_pos hMore] at hRet
        by_cases hInside : i < irqs.length
        · rw [List.getElem?_eq_getElem hInside] at hRet
          have hNext := ih (by
            rw [List.length_set]
            split <;> omega) hRet
          rw [List.length_set] at hNext
          exact hNext
        · rw [List.getElem?_eq_none (by omega)] at hRet
          cases hRet
      · rw [if_neg hMore] at hRet
        cases hRet
        exact ⟨rfl, rfl, by omega⟩

end Irqbalance

end Universal7420

------------------------------------------------------------
-- Blacklists
------------------------------------------------------------

namespace Universal7420

namespace Irqbalance

variable {irqs blacklist : List Int}

/- A blacklist has an entry for every row that it blocks. -/
theorem blocked_length_le
    (hNodup : irqs.Nodup) :
    (irqs.filter (fun irq => irq ∈ blacklist)).length ≤
      blacklist.length := by
  have hSubset :
      irqs.filter (fun irq => irq ∈ blacklist) ⊆
        blacklist := by
    intro irq hMem
    simpa using (List.mem_filter.mp hMem).2
  exact (List.subperm_of_subset (hNodup.filter _)
    hSubset).length_le

/-
  It has no other entries if and only if they are different
  rows of the table.
-/
theorem blocked_length_eq_iff
    (hNodup : irqs.Nodup) :
    (irqs.filter (fun irq => irq ∈ blacklist)).length =
        blacklist.length ↔
      blacklist.Nodup ∧ blacklist ⊆ irqs := by
  have hSubset :
      irqs.filter (fun irq => irq ∈ blacklist) ⊆
        blacklist := by
    intro irq hMem
    simpa using (List.mem_filter.mp hMem).2
  have hPart :=
    List.subperm_of_subset (hNodup.filter _) hSubset
  constructor
  · intro hLength
    have hPerm := hPart.perm_of_length_le hLength.ge
    refine ⟨hPerm.nodup_iff.mp (hNodup.filter _), ?_⟩
    intro irq hMem
    exact (List.mem_filter.mp (hPerm.mem_iff.mpr hMem)).1
  · rintro ⟨hDistinct, hRows⟩
    apply Nat.le_antisymm hPart.length_le
    apply List.Subperm.length_le
    apply List.subperm_of_subset hDistinct
    intro irq hMem
    exact List.mem_filter.mpr
      ⟨hRows hMem, by simpa using hMem⟩

/- Every row is blocked or allowed. -/
theorem length_blocked_add_allowed
    (irqs blacklist : List Int) :
    (irqs.filter (fun irq => irq ∈ blacklist)).length +
        (irqs.filter (fun irq => irq ∉ blacklist)).length =
      irqs.length := by
  have hSplit :=
    irqs.length_eq_length_filter_add
      (fun irq => decide (irq ∈ blacklist))
  simpa using hSplit.symm

end Irqbalance

end Universal7420

------------------------------------------------------------
-- The Whole Scan
------------------------------------------------------------

namespace Universal7420

namespace Irqbalance

open CText Scanf

variable {malloc : Nat → Bool}
variable {memory : Nat → Int}
variable {blacklist : List Int}
variable {fuel : Nat}

namespace ProcInterrupts

variable (table : ProcInterrupts)

theorem irqs_nodup : table.irqs.Nodup := by
  have hMap :
      table.irqs =
        (table.rows.map IrqRow.irq).map Int.ofNat := by
    simp [irqs]
  rw [hMap]
  apply List.Nodup.map _ table.distinct
  intro irq irq' hEq
  exact Int.ofNat.inj hEq

/- The stream after the header. -/
theorem before_rows :
    Before (fscanf lineFormat (fopen table.text)).stream
      (table.rows.map IrqRow.text ++
        table.others.map OtherRow.text) := by
  apply before_of_skipLine table.headerLine
  exact unlines_cons _ _

/- The number that the scan computes from the first pass. -/
def irqsNum (blacklist : List Int) : Int :=
  table.irqs.length - blacklist.length

/- There are never fewer allowed rows than this number. -/
theorem irqsNum_le_allowed
    (blacklist : List Int) :
    (table.irqsNum blacklist).toNat ≤
      (table.allowed blacklist).length := by
  have hBlocked :
      (table.irqs.filter
          (fun irq => irq ∈ blacklist)).length ≤
        blacklist.length :=
    blocked_length_le table.irqs_nodup
  have hSplit :=
    length_blocked_add_allowed table.irqs blacklist
  unfold irqsNum allowed
  omega

theorem scanForIrqs_eq
    (hFuel : table.rows.length < fuel) :
    scanForIrqs malloc memory blacklist fuel
        (some table.text) =
      if malloc (irqsSz (table.irqsNum blacklist) %
          2 ^ 64).toNat then
        readIrqs blacklist (table.irqsNum blacklist) fuel 0
          ((List.range
            (irqsSz (table.irqsNum blacklist) / 4).toNat).map
              memory)
          (fscanf lineFormat (fopen table.text)).stream
      else
        some (.ret (-12) (table.irqsNum blacklist) []) := by
  have hCount := countIrqs_rows hFuel table.before_rows
  have hNum :
      ((table.rows.length : Nat) : Int) - blacklist.length =
        table.irqsNum blacklist := by
    simp [irqsNum, irqs]
  simp only [scanForIrqs, hCount, bind, Option.bind, hNum]
  rfl

/- The second pass over the table fills the array. -/
theorem readIrqs_eq
    {irqs : List Int}
    (hFuel : table.rows.length < fuel)
    (hSize :
      (table.irqsNum blacklist).toNat ≤ irqs.length) :
    ∃ out,
      readIrqs blacklist (table.irqsNum blacklist) fuel 0
          irqs
          (fscanf lineFormat (fopen table.text)).stream =
        some (.ret 0 (table.irqsNum blacklist) out) ∧
      out.take (table.irqsNum blacklist).toNat =
        (table.allowed blacklist).take
          (table.irqsNum blacklist).toNat := by
  have hEnough :
      (table.irqsNum blacklist).toNat ≤
        0 + (table.allowed blacklist).length := by
    rw [Nat.zero_add]
    exact table.irqsNum_le_allowed blacklist
  rcases readIrqs_rows hFuel table.before_rows
    (Nat.zero_le _) hSize hEnough with ⟨out, hRun, hOut⟩
  exact ⟨out, hRun, hOut⟩

end ProcInterrupts

/-
  With enough turns, memory and rows the scan returns, and the
  array holds the first allowed rows.
-/
theorem scanForIrqs_returns
    {table : ProcInterrupts}
    (hFuel : table.rows.length < fuel)
    (hRows : blacklist.length ≤ table.irqs.length)
    (hInt : 4 * table.irqs.length < 2 ^ 31)
    (hMalloc :
      malloc (4 * (table.irqs.length - blacklist.length)) =
        true) :
    ∃ irqs,
      scanForIrqs malloc memory blacklist fuel
          (some table.text) =
        some (.ret 0 (table.irqsNum blacklist) irqs) ∧
      irqs.take (table.irqsNum blacklist).toNat =
        (table.allowed blacklist).take
          (table.irqsNum blacklist).toNat := by
  have hSz :
      irqsSz (table.irqsNum blacklist) =
        4 * (table.irqs.length - blacklist.length : Nat) := by
    have hEq :
        table.irqsNum blacklist * 4 =
          4 * (table.irqs.length -
            blacklist.length : Nat) := by
      unfold ProcInterrupts.irqsNum
      omega
    rw [irqsSz, hEq]
    apply Int.bmod_eq_of_le
    · omega
    · omega
  have hBytes :
      (irqsSz (table.irqsNum blacklist) % 2 ^ 64).toNat =
        4 * (table.irqs.length - blacklist.length) := by
    rw [hSz]
    omega
  have hSize :
      (table.irqsNum blacklist).toNat ≤
        ((List.range
          (irqsSz (table.irqsNum blacklist) / 4).toNat).map
            memory).length := by
    rw [hSz, List.length_map, List.length_range]
    unfold ProcInterrupts.irqsNum
    omega
  rw [table.scanForIrqs_eq hFuel, hBytes, if_pos hMalloc]
  exact table.readIrqs_eq hFuel hSize

/- A scan that returns zero has stored the first allowed rows. -/
theorem scanForIrqs_ret
    {table : ProcInterrupts}
    {num : Int}
    {irqs : List Int}
    (hFuel : table.rows.length < fuel)
    (hRet :
      scanForIrqs malloc memory blacklist fuel
          (some table.text) =
        some (.ret 0 num irqs)) :
    num = table.irqsNum blacklist ∧
      irqs.take num.toNat =
        (table.allowed blacklist).take num.toNat := by
  rw [table.scanForIrqs_eq hFuel] at hRet
  split at hRet
  · rcases readIrqs_ret (Nat.zero_le _) hRet with
      ⟨_, hNum, hSize⟩
    rcases table.readIrqs_eq hFuel hSize with
      ⟨out, hRun, hOut⟩
    rw [hRun] at hRet
    cases hRet
    exact ⟨rfl, hOut⟩
  · cases hRet

/-
  When the scan returns zero, the array holds exactly the rows
  that are not in the blacklist if and only if the entries of
  the blacklist are different rows of the table.  A blacklist
  that is longer than the table would need memory of a
  negative size, and could only be right by blocking all rows.
-/
theorem irqs_right_iff
    {table : ProcInterrupts}
    {num : Int}
    {irqs : List Int}
    (hFuel : table.rows.length < fuel)
    (hRet :
      scanForIrqs malloc memory blacklist fuel
          (some table.text) =
        some (.ret 0 num irqs)) :
    irqs.take num.toNat = table.allowed blacklist ↔
      (blacklist.Nodup ∧ blacklist ⊆ table.irqs) ∨
        (table.irqs.length < blacklist.length ∧
          table.irqs ⊆ blacklist) := by
  rcases scanForIrqs_ret hFuel hRet with ⟨hNum, hArray⟩
  have hSplit :=
    length_blocked_add_allowed table.irqs blacklist
  have hBlocked :=
    @blocked_length_eq_iff table.irqs blacklist
      table.irqs_nodup
  have hTake :
      irqs.take num.toNat = table.allowed blacklist ↔
        (table.allowed blacklist).length ≤ num.toNat := by
    rw [hArray, List.take_eq_self_iff]
  have hNone :
      (table.allowed blacklist).length = 0 ↔
        table.irqs ⊆ blacklist := by
    rw [List.length_eq_zero_iff, ProcInterrupts.allowed,
      List.filter_eq_nil_iff]
    simp [List.subset_def]
  have hBound := table.irqsNum_le_allowed blacklist
  rw [hTake, ← hBlocked, ← hNone]
  rw [hNum] at hArray ⊢
  unfold ProcInterrupts.irqsNum ProcInterrupts.allowed at *
  omega

/- A row with some counts. -/
def countRow
    (irq : Nat)
    (hInt : irq < 2 ^ 31) : IrqRow where
  indent := [' ']
  irq := irq
  detail := " 7 0 GIC".toList
  blank := List.forall_mem_singleton.mpr rfl
  isInt := hInt
  indentLine := by decide
  detailLine := by decide
  ink := ⟨'7', by decide, by decide⟩

/- A row that is not indented. -/
theorem unindented_blank :
    ∀ c ∈ ([] : List Char), isSpace c = true := by
  simp

/- Three interrupts and the row of the errors. -/
def threeRows : ProcInterrupts where
  header := "  CPU0 CPU1".toList
  headerLine := by decide
  rows :=
    [countRow 16 (by decide), countRow 27 (by decide),
      countRow 45 (by decide)]
  distinct := by decide
  others :=
    [{ indent := []
       first := 'E'
       detail := "rr: 0".toList
       blank := unindented_blank
       notBlank := by decide
       notDigit := by decide
       notSign := by decide }]

/- One of the interrupts is in the blacklist. -/
theorem irqs_right_threeRows :
    ∃ irqs,
      scanForIrqs (fun _ => true) (fun _ => 0) [27] 4
          (some threeRows.text) =
        some (.ret 0 2 irqs) ∧
      irqs.take 2 = [16, 45] := by
  have hReturns :=
    @scanForIrqs_returns (fun _ => true) (fun _ => 0) [27] 4
      threeRows (by decide) (by decide) (by decide) rfl
  rcases hReturns with ⟨irqs, hRet, _⟩
  have hFuel : threeRows.rows.length < 4 := by
    decide
  have hListed :
      ([27] : List Int).Nodup ∧ [27] ⊆ threeRows.irqs := by
    decide
  exact ⟨irqs, hRet,
    (irqs_right_iff hFuel hRet).mpr (Or.inl hListed)⟩

/-
  The entry of the blacklist is not in the table: the last
  interrupt is lost.
-/
theorem irqs_absent_entry :
    ∃ irqs,
      scanForIrqs (fun _ => true) (fun _ => 0) [99] 4
          (some threeRows.text) =
        some (.ret 0 2 irqs) ∧
      irqs.take 2 = [16, 27] ∧
      threeRows.allowed [99] = [16, 27, 45] := by
  have hReturns :=
    @scanForIrqs_returns (fun _ => true) (fun _ => 0) [99] 4
      threeRows (by decide) (by decide) (by decide) rfl
  rcases hReturns with ⟨irqs, hRet, hArray⟩
  exact ⟨irqs, hRet, hArray, by decide⟩

end Irqbalance

end Universal7420
