import Universal7420.Lib.Decimal

/-
  Formatted input from a stream, after ISO C.

  A stream is the text that has not been read and the
  end-of-file indicator, which is set by every attempt to read
  past the end.  A directive consumes the longest text it
  accepts.  It fails on input when there is none left, and on
  matching otherwise; a failure ends the call.

  Main declarations:
    * `Scanf.Stream`
    * `Scanf.Directive`
    * `Scanf.fscanf`
    * `Scanf.scan_int_numeral`
    * `Scanf.scan_ull_numeral`
-/

------------------------------------------------------------
-- Streams
------------------------------------------------------------

namespace Scanf

open CText

structure Stream where
  rest : List Char
  eof : Bool
deriving DecidableEq, Repr

/- A stream on a text that has just been opened. -/
def fopen (text : List Char) : Stream :=
  ⟨text, false⟩

/- `fgetc`; absent at the end of the file. -/
def fgetc : Stream → Option Char × Stream
| ⟨[], _⟩ => (none, ⟨[], true⟩)
| ⟨c :: rest, eof⟩ => (some c, ⟨rest, eof⟩)

/-
  Read up to a remaining text.  The reader looks at the next
  character, so that it notices the end of the file.
-/
def Stream.advance
    (s : Stream)
    (rest : List Char) : Stream :=
  ⟨rest, s.eof || rest.isEmpty⟩

/- Read white space. -/
def Stream.skipSpace (s : Stream) : Stream :=
  s.advance (s.rest.dropWhile isSpace)

end Scanf

------------------------------------------------------------
-- Directives
------------------------------------------------------------

namespace Scanf

open CText

/-
  White space, a literal character, `%d`, `%llu`, `%<width>s`
  and `%*[^\n]`.
-/
inductive Directive where
| space
| lit (c : Char)
| int
| ull
| word (width : Nat)
| skipLine
deriving DecidableEq, Repr

/- A value that is stored through a pointer. -/
inductive Value where
| int (v : Int)
| ull (n : UInt64)
| word (cs : List Char)
deriving DecidableEq, Repr

/- What a directive does. -/
inductive Outcome where
| matched (values : List Value) (s : Stream)
| inputFailure (s : Stream)
| matchingFailure (s : Stream)
deriving DecidableEq, Repr

/-
  `strtol` followed by the conversion to `int`.  A value
  outside `int` is undefined in ISO C.
-/
def toInt (v : Int) : Int :=
  (max (-2 ^ 63) (min v (2 ^ 63 - 1))).bmod (2 ^ 32)

/- `strtoull` -/
def toUll (v : Int) : UInt64 :=
  if v.natAbs < 2 ^ 64 then
    UInt64.ofNat (v % 2 ^ 64).toNat
  else
    UInt64.ofNat (2 ^ 64 - 1)

/- White space and an integer. -/
def scanNumber
    (store : Int → Value)
    (s : Stream) : Outcome :=
  if s.skipSpace.rest = [] then
    .inputFailure s.skipSpace
  else
    match scanDecimal s.skipSpace.rest with
    | (some v, rest) =>
        .matched [store v] (s.skipSpace.advance rest)
    | (none, rest) =>
        .matchingFailure (s.skipSpace.advance rest)

/- White space and at most `width` other characters. -/
def scanWord
    (width : Nat)
    (s : Stream) : Outcome :=
  if s.skipSpace.rest = [] then
    .inputFailure s.skipSpace
  else
    let item :=
      (s.skipSpace.rest.takeWhile
        (fun c => !isSpace c)).take width
    let rest := s.skipSpace.rest.drop item.length
    .matched [.word item]
      (if item.length < width then
        s.skipSpace.advance rest
      else
        { s.skipSpace with rest := rest })

def Directive.scan
    (d : Directive)
    (s : Stream) : Outcome :=
  match d with
  | .space => .matched [] s.skipSpace
  | .lit c =>
      match s.rest with
      | [] => .inputFailure { s with eof := true }
      | c' :: rest =>
          if c' = c then .matched [] { s with rest := rest }
          else .matchingFailure s
  | .int => scanNumber (fun v => .int (toInt v)) s
  | .ull => scanNumber (fun v => .ull (toUll v)) s
  | .word width => scanWord width s
  | .skipLine =>
      match s.rest with
      | [] => .inputFailure { s with eof := true }
      | c :: rest =>
          if c = '\n' then
            .matchingFailure s
          else
            .matched [] (s.advance
              ((c :: rest).dropWhile (· ≠ '\n')))

/- A directive that is introduced by `%`. -/
def Directive.isConversion : Directive → Bool
| .space | .lit _ => false
| .int | .ull | .word _ | .skipLine => true

/- The result, the stored values and the stream after a call. -/
structure Scanned where
  ret : Int
  values : List Value
  stream : Stream
deriving DecidableEq, Repr

/-
  The remaining directives of a call.  An input failure before
  the first completed conversion returns `EOF`.
-/
def scanFrom :
    List Directive → Stream → List Value → Bool → Scanned
| [], s, values, _ => ⟨values.length, values, s⟩
| d :: ds, s, values, converted =>
    match d.scan s with
    | .matched new s' =>
        scanFrom ds s' (values ++ new)
          (converted || d.isConversion)
    | .inputFailure s' =>
        ⟨if converted then values.length else -1,
          values, s'⟩
    | .matchingFailure s' => ⟨values.length, values, s'⟩

/- `fscanf` -/
def fscanf
    (format : List Directive)
    (s : Stream) : Scanned :=
  scanFrom format s [] false

end Scanf

------------------------------------------------------------
-- Reading Back
------------------------------------------------------------

namespace Scanf

open CText

theorem toInt_of_isInt32
    {v : Int}
    (hRange : IsInt32 v) :
    toInt v = v := by
  rcases hRange with ⟨hLower, hUpper⟩
  have hClamp :
      max (-2 ^ 63) (min v (2 ^ 63 - 1)) = v := by
    omega
  rw [toInt, hClamp]
  apply Int.bmod_eq_of_le
  · omega
  · omega

theorem toUll_natCast
    {n : Nat}
    (hRange : n < 2 ^ 64) :
    toUll n = UInt64.ofNat n := by
  have hMod : ((n : Int) % 2 ^ 64).toNat = n := by
    omega
  simp only [toUll, Int.natAbs_natCast, hRange, if_true,
    hMod]

theorem scan_space
    (s : Stream) :
    Directive.space.scan s = .matched [] s.skipSpace :=
  rfl

/- An integer directive reads a numeral after white space. -/
theorem scanNumber_numeral
    (store : Int → Value)
    {s : Stream}
    {n : Numeral}
    {tail : List Char}
    (hRest :
      s.rest.dropWhile isSpace = n.text ++ tail)
    (hTail : NoDigitFirst tail) :
    scanNumber store s =
      .matched [store n.value] (s.advance tail) := by
  have hNonempty : n.text ++ tail ≠ [] := by
    simp [Numeral.text, n.nonempty]
  have hSkip :
      s.skipSpace = ⟨n.text ++ tail, s.eof⟩ := by
    simp [Stream.skipSpace, Stream.advance, hRest,
      Numeral.text, n.nonempty]
  unfold scanNumber
  rw [hSkip, if_neg hNonempty, scanDecimal_numeral n hTail]
  rfl

theorem scan_int_numeral
    {s : Stream}
    {n : Numeral}
    {tail : List Char}
    (hRange : IsInt32 n.value)
    (hRest :
      s.rest.dropWhile isSpace = n.text ++ tail)
    (hTail : NoDigitFirst tail) :
    Directive.int.scan s =
      .matched [.int n.value] (s.advance tail) := by
  rw [Directive.scan, scanNumber_numeral _ hRest hTail,
    toInt_of_isInt32 hRange]

theorem scan_ull_numeral
    {s : Stream}
    {n : Numeral}
    {tail : List Char}
    {k : UInt64}
    (hValue : n.value = k.toNat)
    (hRest :
      s.rest.dropWhile isSpace = n.text ++ tail)
    (hTail : NoDigitFirst tail) :
    Directive.ull.scan s =
      .matched [.ull k] (s.advance tail) := by
  rw [Directive.scan, scanNumber_numeral _ hRest hTail,
    hValue, toUll_natCast k.toNat_lt, UInt64.ofNat_toNat]

/- The rest of a nonempty line is skipped. -/
theorem scan_skipLine
    {line tail : List Char}
    (hNonempty : line ≠ [])
    (hLine : '\n' ∉ line)
    (hTail : ∀ c ∈ tail.head?, c = '\n')
    (eof : Bool) :
    Directive.skipLine.scan ⟨line ++ tail, eof⟩ =
      .matched [] (Stream.advance ⟨line ++ tail, eof⟩
        tail) := by
  have hDropLine :
      (line ++ tail).dropWhile (· ≠ '\n') =
        tail.dropWhile (· ≠ '\n') := by
    apply List.dropWhile_append_of_pos
    intro c hc
    have hOther : c ≠ '\n' := by
      intro hEq
      rw [hEq] at hc
      exact hLine hc
    simpa using hOther
  have hDropTail :
      tail.dropWhile (· ≠ '\n') = tail := by
    cases tail with
    | nil =>
        rfl
    | cons c cs =>
        have hFirst : c = '\n' := hTail c (by simp)
        simp [hFirst]
  rcases line with _ | ⟨c, cs⟩
  · exact absurd rfl hNonempty
  · have hFirst : c ≠ '\n' := by
      intro hEq
      exact hLine (by simp [hEq])
    rw [hDropTail] at hDropLine
    simp only [List.cons_append] at hDropLine ⊢
    simp only [Directive.scan, if_neg hFirst, hDropLine]

end Scanf
