import Universal7420.Lib.EventSystem
import Universal7420.Resetprop.SystemProperties

/-
  Reading a property while it is updated.

  `Update` marks the serial of a property as dirty, copies the
  new value byte by byte, and then stores a serial with the new
  length and the next number.  `ReadCallback` waits for a clean
  serial, copies as many bytes as it says, and starts again if
  the serial is another one afterwards.  The value of a read
  only property it hands over as it stands, with no copy and no
  check: it is read while the callback runs.

  There is one writer and any number of readers.  Every load
  and every store is one event, in one order for all parties;
  the fences of the source are there for that.  The bytes of a
  copy come in any order.

  The number is kept in 24 bits and grows by two, so a read that
  copies is whole unless 2 ^ 23 updates end meanwhile.  A read
  of a read only property is torn by one update, and `Update`
  takes such a property like any other.

  Main declarations:
    * `Universal7420.Resetprop.Seqlock.State`
    * `Universal7420.Resetprop.Seqlock.step`
    * `Universal7420.Resetprop.Seqlock.system`
    * `Universal7420.Resetprop.Seqlock.Coherent`
    * `Universal7420.Resetprop.Seqlock.read_is_current`
    * `Universal7420.Resetprop.Seqlock.read_torn_after_wrap`
    * `Universal7420.Resetprop.Seqlock.read_only_torn`
-/

------------------------------------------------------------
-- The Protocol
------------------------------------------------------------

namespace Universal7420

namespace Resetprop

namespace Seqlock

/- The locals of `Update`, and the bytes it has copied. -/
structure Writer where
  value : List Char
  serial : Nat
  written : List Nat

/-
  The locals of `ReadCallback`, and what the callback has seen
  of a value that was handed to it.
-/
inductive Reader where
| idle
| copying (serial : Nat) (copied : Nat → Option Char)
| handed (seen : Nat → Option Char)
| returned (text : List Char)

/- The property in memory and the parties. -/
structure State where
  serial : Nat
  buf : Nat → Char
  writer : Option Writer
  readers : Nat → Reader

inductive Event where
| begin (value : List Char)
| store (i : Nat)
| publish
| load (r : Nat)
| copy (r i : Nat)
| check (r : Nat)
deriving DecidableEq, Repr

/- `SERIAL_DIRTY` -/
def serialDirty (serial : Nat) : Bool :=
  serial % 2 = 1

/- `SERIAL_VALUE_LEN` -/
def serialValueLen (serial : Nat) : Nat :=
  serial / 2 ^ 24

/- `serial | 1` -/
def dirtied (serial : Nat) : Nat :=
  serial / 2 * 2 + 1

/- `is_long`, of the serial that was loaded -/
def serialLong (serial : Nat) : Bool :=
  serial / 2 ^ 16 % 2 = 1

/- `(len << 24) | ((serial + 1) & 0xffffff)` -/
def published (len serial : Nat) : Nat :=
  len * 2 ^ 24 + (serial + 1) % 2 ^ 24

/- A text in memory, with the null character behind it. -/
def byteOf (text : List Char) (i : Nat) : Char :=
  text.getD i '\x00'

def setReader
    (s : State)
    (r : Nat)
    (reader : Reader) :
    State :=
  { s with
    readers := fun q => if q = r then reader else s.readers q }

def beginUpdate
    (s : State)
    (value : List Char) :
    Option State :=
  match s.writer with
  | some _ => none
  | none =>
      if propValueMax ≤ value.length then
        none
      else
        let serial := dirtied s.serial
        some
          { s with
            serial := serial
            writer := some ⟨value, serial, []⟩ }

/- One byte of `strlcpy`, which copies the null character. -/
def storeByte
    (s : State)
    (i : Nat) :
    Option State :=
  match s.writer with
  | none => none
  | some w =>
      if w.value.length < i then
        none
      else
        some
          { s with
            buf := fun a =>
              if a = i then byteOf w.value i else s.buf a
            writer :=
              some { w with written := i :: w.written } }

/- The whole value is copied before the serial is stored. -/
def publishUpdate (s : State) : Option State :=
  match s.writer with
  | none => none
  | some w =>
      if
        (List.range (w.value.length + 1)).all
          (w.written.contains ·)
      then
        some
          { s with
            serial := published w.value.length w.serial
            writer := none }
      else
        none

/-
  A serial that is dirty is waited for.  The text of a read
  only property that is marked as long is not in the buffer,
  and is not read here.
-/
def loadSerial
    (name : List Char)
    (s : State)
    (r : Nat) :
    Option State :=
  match s.readers r with
  | .copying _ _ => none
  | .handed _ => none
  | _ =>
      if serialDirty s.serial then
        some s
      else if isReadOnly name then
        if serialLong s.serial then
          none
        else
          some (setReader s r (.handed fun _ => none))
      else
        some
          (setReader s r (.copying s.serial fun _ => none))

/- One byte of `memcpy`, or one that the callback reads. -/
def copyByte
    (s : State)
    (r i : Nat) :
    Option State :=
  match s.readers r with
  | .copying serial copied =>
      if i < serialValueLen serial then
        some
          (setReader s r
            (.copying serial fun a =>
              if a = i then some (s.buf i) else copied a))
      else
        none
  | .handed seen =>
      if i < propValueMax then
        some
          (setReader s r
            (.handed fun a =>
              if a = i then some (s.buf i) else seen a))
      else
        none
  | _ => none

/- The text that was copied, when all of it was. -/
def copiedText
    (copied : Nat → Option Char)
    (len : Nat) :
    Option (List Char) :=
  if (List.range len).all fun i => (copied i).isSome then
    some
      ((List.range len).map fun i => (copied i).getD '\x00')
  else
    none

/- The text up to the null character, as it was seen. -/
def handedText
    (seen : Nat → Option Char) :
    Nat → Nat → Option (List Char)
| 0, _ => none
| left + 1, i =>
    match seen i with
    | none => none
    | some c =>
        if c = '\x00' then
          some []
        else
          (handedText seen left (i + 1)).map (c :: ·)

/- A value that was handed over has no serial to check. -/
def checkSerial
    (s : State)
    (r : Nat) :
    Option State :=
  match s.readers r with
  | .copying serial copied =>
      match copiedText copied (serialValueLen serial) with
      | none => none
      | some text =>
          if serial = s.serial then
            some (setReader s r (.returned text))
          else
            some (setReader s r .idle)
  | .handed seen =>
      match handedText seen propValueMax 0 with
      | none => none
      | some text => some (setReader s r (.returned text))
  | _ => none

def step
    (name : List Char)
    (s : State) :
    Event → Option State
| .begin value => beginUpdate s value
| .store i => storeByte s i
| .publish => publishUpdate s
| .load r => loadSerial name s r
| .copy r i => copyByte s r i
| .check r => checkSerial s r

/- A property just after it was made. -/
def initial (value : List Char) : State where
  serial := value.length * 2 ^ 24
  buf := byteOf value
  writer := none
  readers := fun _ => .idle

def system
    (name value : List Char) :
    EventSystem State Event where
  init := initial value
  step := step name

end Seqlock

end Resetprop

end Universal7420

------------------------------------------------------------
-- What Events Say
------------------------------------------------------------

namespace Universal7420

namespace Resetprop

namespace Seqlock

/- The value that is published, and the one being copied. -/
def trackValue :
    List Char × List Char → Event → List Char × List Char
| (current, _), .begin value => (current, value)
| (_, pending), .publish => (pending, pending)
| values, _ => values

/- The value of the last update that was published. -/
def current
    (value : List Char)
    (es : List Event) :
    List Char :=
  (es.foldl trackValue (value, value)).1

def pending
    (value : List Char)
    (es : List Event) :
    List Char :=
  (es.foldl trackValue (value, value)).2

/- The updates that were published. -/
def updates (es : List Event) : Nat :=
  es.countP (· = .publish)

def trackSince (r : Nat) : Nat → Event → Nat
| n, .publish => n + 1
| n, .load q => if q = r then 0 else n
| n, _ => n

/- The updates published since a reader loaded the serial. -/
def updatesSince
    (r : Nat)
    (es : List Event) :
    Nat :=
  es.foldl (trackSince r) 0

end Seqlock

end Resetprop

end Universal7420

------------------------------------------------------------
-- Histories
------------------------------------------------------------

namespace Universal7420

namespace Resetprop

namespace Seqlock

variable {value : List Char}

theorem current_snoc
    (es : List Event)
    (e : Event) :
    current value (es ++ [e]) =
      (trackValue (current value es, pending value es) e).1 := by
  simp [current, pending]

theorem pending_snoc
    (es : List Event)
    (e : Event) :
    pending value (es ++ [e]) =
      (trackValue (current value es, pending value es) e).2 := by
  simp [current, pending]

theorem updates_snoc
    (es : List Event)
    (e : Event) :
    updates (es ++ [e]) =
      updates es + if e = .publish then 1 else 0 := by
  by_cases hPublish : e = .publish
  · simp [updates, hPublish]
  · simp [updates, hPublish]

theorem updatesSince_snoc
    (r : Nat)
    (es : List Event)
    (e : Event) :
    updatesSince r (es ++ [e]) =
      trackSince r (updatesSince r es) e := by
  simp [updatesSince]

/- The serial of the value with this number. -/
def serialOf (len number : Nat) : Nat :=
  len * 2 ^ 24 + 2 * number % 2 ^ 24

/- What a reader has copied fits a value. -/
def Fits
    (copied : Nat → Option Char)
    (text : List Char) :
    Prop :=
  ∀ i c, copied i = some c → c = byteOf text i

/-
  What holds between the memory, the locals of the parties and
  the events so far.  A reader knows the number of the value
  that it began with, and what it copied is of this value as
  long as no update has begun since.
-/
structure Coherent
    (name value : List Char)
    (es : List Event)
    (s : State) :
    Prop where
  clean :
    s.writer = none →
    s.serial =
      serialOf (current value es).length (updates es) ∧
    ∀ i < (current value es).length,
      s.buf i = byteOf (current value es) i
  dirty :
    ∀ w,
      s.writer = some w →
      s.serial =
        serialOf (current value es).length (updates es) + 1 ∧
      w.serial = s.serial ∧
      w.value = pending value es ∧
      ∀ i ∈ w.written, s.buf i = byteOf w.value i
  reading :
    ∀ r serial copied,
      s.readers r = .copying serial copied →
      ∃ len number,
        serial = serialOf len number ∧
        number + updatesSince r es = updates es ∧
        (updatesSince r es = 0 →
          len = (current value es).length ∧
          (s.writer = none →
            Fits copied (current value es)))
  handing :
    ∀ r seen,
      s.readers r = .handed seen →
      isReadOnly name = true

theorem initial_coherent
    (name value : List Char) :
    Coherent name value [] (initial value) where
  clean := by
    intro _
    refine ⟨by simp [initial, serialOf, current, updates], ?_⟩
    intro i _
    rfl
  dirty := by
    intro w hNone
    cases hNone
  reading := by
    intro r serial copied hIdle
    cases hIdle
  handing := by
    intro r seen hIdle
    cases hIdle

theorem serialOf_even
    (len number : Nat) :
    serialOf len number % 2 = 0 := by
  unfold serialOf
  omega

theorem dirtied_serialOf
    (len number : Nat) :
    dirtied (serialOf len number) =
      serialOf len number + 1 := by
  have hEven := serialOf_even len number
  unfold dirtied
  omega

theorem published_serialOf
    (len len' number : Nat) :
    published len' (serialOf len number + 1) =
      serialOf len' (number + 1) := by
  unfold published serialOf
  omega

theorem serialValueLen_serialOf
    (len number : Nat) :
    serialValueLen (serialOf len number) = len := by
  unfold serialValueLen serialOf
  omega

/- Equal serials have the same length and the same number. -/
theorem serialOf_inj
    {len len' number number' : Nat}
    (hSame : serialOf len number = serialOf len' number') :
    len = len' ∧ number % 2 ^ 23 = number' % 2 ^ 23 := by
  unfold serialOf at hSame
  omega

end Seqlock

end Resetprop

end Universal7420

------------------------------------------------------------
-- Steps
------------------------------------------------------------

namespace Universal7420

namespace Resetprop

namespace Seqlock

variable {name value : List Char}
variable {es : List Event}
variable {s s' : State}

theorem setReader_self
    (s : State)
    (r : Nat)
    (reader : Reader) :
    (setReader s r reader).readers r = reader := by
  simp [setReader]

theorem setReader_other
    (s : State)
    {r q : Nat}
    (reader : Reader)
    (hOther : q ≠ r) :
    (setReader s r reader).readers q = s.readers q := by
  simp [setReader, hOther]

theorem Coherent.begin
    (hCoherent : Coherent name value es s)
    {text : List Char}
    (hStep : beginUpdate s text = some s') :
    Coherent name value (es ++ [.begin text]) s' := by
  unfold beginUpdate at hStep
  cases hWriter : s.writer with
  | some w => simp [hWriter] at hStep
  | none =>
      rw [hWriter] at hStep
      dsimp only at hStep
      split at hStep
      · cases hStep
      · cases hStep
        rcases hCoherent.clean hWriter with ⟨hSerial, _⟩
        refine
          { clean := by
              intro hNone
              cases hNone
            dirty := ?_
            reading := ?_
            handing := hCoherent.handing }
        · intro w hSome
          cases hSome
          rw [current_snoc, pending_snoc, updates_snoc]
          refine ⟨?_, rfl, rfl, ?_⟩
          · change dirtied s.serial = _
            rw [hSerial, dirtied_serialOf]
            rfl
          · intro i hNone
            cases hNone
        · intro r serial copied hCopying
          rcases
            hCoherent.reading r serial copied hCopying with
            ⟨len, number, hThere, hCount, hFresh⟩
          rw [current_snoc, updates_snoc, updatesSince_snoc]
          refine ⟨len, number, hThere, hCount, ?_⟩
          intro hZero
          refine ⟨(hFresh hZero).1, ?_⟩
          intro hNone
          cases hNone

theorem Coherent.store
    (hCoherent : Coherent name value es s)
    {i : Nat}
    (hStep : storeByte s i = some s') :
    Coherent name value (es ++ [.store i]) s' := by
  unfold storeByte at hStep
  cases hWriter : s.writer with
  | none => simp [hWriter] at hStep
  | some w =>
      rw [hWriter] at hStep
      dsimp only at hStep
      split at hStep
      · cases hStep
      · cases hStep
        rcases hCoherent.dirty w hWriter with
          ⟨hSerial, hOwn, hValue, hWritten⟩
        refine
          { clean := by
              intro hNone
              cases hNone
            dirty := ?_
            reading := ?_
            handing := hCoherent.handing }
        · intro w' hSome
          cases hSome
          rw [current_snoc, pending_snoc, updates_snoc]
          refine ⟨hSerial, hOwn, hValue, ?_⟩
          intro a hIn
          dsimp only
          split
          · rename_i hSame
            rw [hSame]
          · rename_i hOther
            rcases List.mem_cons.mp hIn with hSame | hOld
            · exact absurd hSame hOther
            · exact hWritten a hOld
        · intro r serial copied hCopying
          rcases
            hCoherent.reading r serial copied hCopying with
            ⟨len, number, hThere, hCount, hFresh⟩
          rw [current_snoc, updates_snoc, updatesSince_snoc]
          refine ⟨len, number, hThere, hCount, ?_⟩
          intro hZero
          refine ⟨(hFresh hZero).1, ?_⟩
          intro hNone
          cases hNone

theorem Coherent.publish
    (hCoherent : Coherent name value es s)
    (hStep : publishUpdate s = some s') :
    Coherent name value (es ++ [.publish]) s' := by
  unfold publishUpdate at hStep
  cases hWriter : s.writer with
  | none => simp [hWriter] at hStep
  | some w =>
      rw [hWriter] at hStep
      dsimp only at hStep
      split at hStep
      · rename_i hAll
        cases hStep
        rcases hCoherent.dirty w hWriter with
          ⟨hSerial, hOwn, hValue, hWritten⟩
        refine
          { clean := ?_
            dirty := by
              intro w' hSome
              cases hSome
            reading := ?_
            handing := hCoherent.handing }
        · intro _
          rw [current_snoc, updates_snoc]
          change
            published w.value.length w.serial =
                serialOf (pending value es).length
                  (updates es + 1) ∧
              ∀ i < (pending value es).length,
                s.buf i = byteOf (pending value es) i
          rw [hOwn, hSerial, published_serialOf, hValue]
          refine ⟨rfl, ?_⟩
          intro i hShort
          rw [← hValue] at hShort ⊢
          apply hWritten i
          rw [List.all_eq_true] at hAll
          have hIn :=
            hAll i (List.mem_range.mpr (by omega))
          simpa using hIn
        · intro r serial copied hCopying
          rcases
            hCoherent.reading r serial copied hCopying with
            ⟨len, number, hThere, hCount, hFresh⟩
          rw [updates_snoc, updatesSince_snoc]
          refine ⟨len, number, hThere, ?_, ?_⟩
          · change
              number + (updatesSince r es + 1) =
                updates es + 1
            omega
          · intro hZero
            cases hZero
      · cases hStep

/- A reader that moves leaves the memory and the writer. -/
theorem Coherent.setReader
    (hCoherent : Coherent name value es s)
    {e : Event}
    {r : Nat}
    {reader : Reader}
    (hValue :
      ∀ values, trackValue values e = values)
    (hUpdate : e ≠ .publish)
    (hSince :
      ∀ q n, q ≠ r → trackSince q n e = n)
    (hReader :
      ∀ serial copied,
        reader = .copying serial copied →
        ∃ len number,
          serial = serialOf len number ∧
          number + updatesSince r (es ++ [e]) = updates es ∧
          (updatesSince r (es ++ [e]) = 0 →
            len = (current value es).length ∧
            (s.writer = none →
              Fits copied (current value es))))
    (hHanded :
      ∀ seen, reader = .handed seen → isReadOnly name = true) :
    Coherent name value (es ++ [e]) (setReader s r reader) := by
  have hCurrent :
      current value (es ++ [e]) = current value es := by
    rw [current_snoc, hValue]
  have hPending :
      pending value (es ++ [e]) = pending value es := by
    rw [pending_snoc, hValue]
  have hUpdates : updates (es ++ [e]) = updates es := by
    rw [updates_snoc, if_neg hUpdate, Nat.add_zero]
  refine
    { clean := ?_
      dirty := ?_
      reading := ?_
      handing := ?_ }
  · rw [hCurrent, hUpdates]
    exact hCoherent.clean
  · rw [hCurrent, hUpdates, hPending]
    exact hCoherent.dirty
  · intro q serial copied hCopying
    rw [hCurrent, hUpdates]
    by_cases hSame : q = r
    · subst hSame
      rw [setReader_self] at hCopying
      exact hReader serial copied hCopying
    · rw [setReader_other s reader hSame] at hCopying
      rw [updatesSince_snoc, hSince q _ hSame]
      exact hCoherent.reading q serial copied hCopying
  · intro q seen hThere
    by_cases hSame : q = r
    · subst hSame
      rw [setReader_self] at hThere
      exact hHanded seen hThere
    · rw [setReader_other s reader hSame] at hThere
      exact hCoherent.handing q seen hThere

/- A reader that does not copy leaves nothing to check. -/
theorem Coherent.leave
    (hCoherent : Coherent name value es s)
    {e : Event}
    {r : Nat}
    {reader : Reader}
    (hValue :
      ∀ values, trackValue values e = values)
    (hUpdate : e ≠ .publish)
    (hSince :
      ∀ q n, q ≠ r → trackSince q n e = n)
    (hNot :
      ∀ serial copied, reader ≠ .copying serial copied)
    (hHanded :
      ∀ seen, reader = .handed seen → isReadOnly name = true) :
    Coherent name value (es ++ [e])
      (Seqlock.setReader s r reader) := by
  refine
    hCoherent.setReader hValue hUpdate hSince ?_ hHanded
  intro serial copied hCopying
  exact absurd hCopying (hNot serial copied)

theorem trackSince_load_other
    {q r : Nat}
    (hOther : q ≠ r)
    (n : Nat) :
    trackSince q n (.load r) = n := by
  simp [trackSince, Ne.symm hOther]

/- Waiting changes nothing. -/
theorem Coherent.wait
    (hCoherent : Coherent name value es s)
    {r : Nat}
    (hIdle :
      ∀ serial copied, s.readers r ≠ .copying serial copied) :
    Coherent name value (es ++ [.load r]) s := by
  have hSame :
      Seqlock.setReader s r (s.readers r) = s := by
    unfold Seqlock.setReader
    congr 1
    funext q
    split
    · rename_i hAt
      rw [hAt]
    · rfl
  rw [← hSame]
  exact
    hCoherent.leave (fun values => rfl) nofun
      (fun q n hOther => trackSince_load_other hOther n)
      hIdle (hCoherent.handing r)

/- A reader begins with a clean serial. -/
theorem Coherent.begin_read
    (hCoherent : Coherent name value es s)
    {r : Nat}
    (hClean : serialDirty s.serial = false) :
    Coherent name value (es ++ [.load r])
      (Seqlock.setReader s r
        (.copying s.serial fun _ => none)) := by
  have hSerial :
      s.serial =
        serialOf (current value es).length
          (updates es) := by
    cases hWriter : s.writer with
    | none => exact (hCoherent.clean hWriter).1
    | some w =>
        have hDirty := (hCoherent.dirty w hWriter).1
        have hEven :=
          serialOf_even (current value es).length
            (updates es)
        simp only [serialDirty, decide_eq_false_iff_not]
          at hClean
        omega
  refine
    hCoherent.setReader (fun values => rfl) nofun
      (fun q n hOther => trackSince_load_other hOther n) ?_
      nofun
  intro serial copied hCopying
  cases hCopying
  rw [updatesSince_snoc]
  refine ⟨_, _, hSerial, by simp [trackSince], ?_⟩
  intro _
  refine ⟨rfl, ?_⟩
  intro _ i c hNone
  cases hNone

theorem Coherent.load
    (hCoherent : Coherent name value es s)
    {r : Nat}
    (hStep : loadSerial name s r = some s') :
    Coherent name value (es ++ [.load r]) s' := by
  unfold loadSerial at hStep
  split at hStep
  · cases hStep
  · cases hStep
  · rename_i hIdle _
    split at hStep
    · cases hStep
      exact hCoherent.wait hIdle
    · rename_i hClean
      split at hStep
      · rename_i hReadOnly
        split at hStep
        · cases hStep
        · cases hStep
          exact
            hCoherent.leave (fun values => rfl) nofun
              (fun q n hOther =>
                trackSince_load_other hOther n)
              nofun (fun _ _ => hReadOnly)
      · cases hStep
        exact hCoherent.begin_read (by simpa using hClean)

theorem Coherent.copy
    (hCoherent : Coherent name value es s)
    {r i : Nat}
    (hStep : copyByte s r i = some s') :
    Coherent name value (es ++ [.copy r i]) s' := by
  unfold copyByte at hStep
  split at hStep
  · rename_i serial copied hReader
    split at hStep
    · rename_i hShort
      cases hStep
      rcases
        hCoherent.reading r serial copied hReader with
        ⟨len, number, hSerial, hCount, hFresh⟩
      refine
        hCoherent.setReader (fun values => rfl) nofun
          (fun q n _ => rfl) ?_ nofun
      intro serial' copied' hCopying
      cases hCopying
      rw [updatesSince_snoc]
      refine ⟨len, number, hSerial, hCount, ?_⟩
      intro hZero
      rcases hFresh hZero with ⟨hLen, hFits⟩
      refine ⟨hLen, ?_⟩
      intro hWriter a c hThere
      dsimp only at hThere
      split at hThere
      · rename_i hAt
        cases hThere
        rw [hAt]
        rw [hSerial, serialValueLen_serialOf] at hShort
        exact (hCoherent.clean hWriter).2 i (by omega)
      · exact hFits hWriter a c hThere
    · cases hStep
  · rename_i seen hReader
    split at hStep
    · cases hStep
      exact
        hCoherent.leave (fun values => rfl) nofun
          (fun q n _ => rfl) nofun
          (fun _ _ => hCoherent.handing r seen hReader)
    · cases hStep
  · cases hStep

theorem Coherent.check
    (hCoherent : Coherent name value es s)
    {r : Nat}
    (hStep : checkSerial s r = some s') :
    Coherent name value (es ++ [.check r]) s' := by
  have hLeave :
      ∀ reader,
        (∀ serial copied,
          reader ≠ .copying serial copied) →
        (∀ seen, reader ≠ .handed seen) →
        Coherent name value (es ++ [.check r])
          (Seqlock.setReader s r reader) := by
    intro reader hNot hNot'
    exact
      hCoherent.leave (fun values => rfl) nofun
        (fun q n _ => rfl) hNot
        (fun seen hThere => absurd hThere (hNot' seen))
  unfold checkSerial at hStep
  split at hStep
  · split at hStep
    · cases hStep
    · split at hStep
      · cases hStep
        exact hLeave _ nofun nofun
      · cases hStep
        exact hLeave _ nofun nofun
  · split at hStep
    · cases hStep
    · cases hStep
      exact hLeave _ nofun nofun
  · cases hStep

theorem Coherent.step
    (hCoherent : Coherent name value es s)
    {e : Event}
    (hStep : Seqlock.step name s e = some s') :
    Coherent name value (es ++ [e]) s' := by
  cases e with
  | begin text => exact hCoherent.begin hStep
  | store i => exact hCoherent.store hStep
  | publish => exact hCoherent.publish hStep
  | load r => exact hCoherent.load hStep
  | copy r i => exact hCoherent.copy hStep
  | check r => exact hCoherent.check hStep

/- Every run from a state with a history extends it. -/
theorem Coherent.runFrom
    {fs : List Event}
    (hCoherent : Coherent name value es s)
    (hRun : (system name value).runFrom s fs = some s') :
    Coherent name value (es ++ fs) s' := by
  induction fs generalizing es s with
  | nil =>
      cases hRun
      rw [List.append_nil]
      exact hCoherent
  | cons e fs ih =>
      rcases
        (system name value).runFrom_cons_eq_some_iff.mp hRun with
        ⟨t, hFirst, hRest⟩
      rw [List.append_cons]
      exact ih (hCoherent.step hFirst) hRest

theorem run_coherent
    (hRun : (system name value).run es = some s) :
    Coherent name value es s := by
  have hExtended :=
    (initial_coherent name value).runFrom hRun
  rwa [List.nil_append] at hExtended

end Seqlock

end Resetprop

end Universal7420

------------------------------------------------------------
-- Reads
------------------------------------------------------------

namespace Universal7420

namespace Resetprop

namespace Seqlock

variable {name value : List Char}
variable {es : List Event}
variable {s s' : State}

theorem copiedText_of_fits
    {copied : Nat → Option Char}
    {text copy : List Char}
    (hFits : Fits copied text)
    (hCopy :
      copiedText copied text.length = some copy) :
    copy = text := by
  unfold copiedText at hCopy
  split at hCopy
  · rename_i hAll
    cases hCopy
    rw [List.all_eq_true] at hAll
    apply List.ext_getElem
    · simp
    · intro i hLeft hRight
      have hSome := hAll i (List.mem_range.mpr hRight)
      rcases Option.isSome_iff_exists.mp hSome with
        ⟨c, hThere⟩
      have hByte := hFits i c hThere
      simp [hThere, hByte, byteOf, hRight]
  · cases hCopy

/- A read that copies and returns has checked the serial. -/
theorem check_returned
    {r : Nat}
    {text : List Char}
    (hNot : ∀ seen, s.readers r ≠ .handed seen)
    (hStep : step name s (.check r) = some s')
    (hReturned : s'.readers r = .returned text) :
    ∃ serial copied,
      s.readers r = .copying serial copied ∧
      copiedText copied (serialValueLen serial) = some text ∧
      serial = s.serial := by
  change checkSerial s r = some s' at hStep
  unfold checkSerial at hStep
  split at hStep
  · rename_i serial copied hReader
    split at hStep
    · cases hStep
    · rename_i copy hCopy
      split at hStep
      · rename_i hSame
        cases hStep
        rw [setReader_self] at hReturned
        cases hReturned
        exact ⟨serial, copied, hReader, hCopy, hSame⟩
      · cases hStep
        rw [setReader_self] at hReturned
        cases hReturned
  · rename_i seen hReader
    exact absurd hReader (hNot seen)
  · cases hStep

theorem step_check
    {r serial : Nat}
    {copied : Nat → Option Char}
    {text : List Char}
    (hReader : s.readers r = .copying serial copied)
    (hCopy :
      copiedText copied (serialValueLen serial) = some text)
    (hSame : serial = s.serial) :
    step name s (.check r) =
      some (setReader s r (.returned text)) := by
  change checkSerial s r = _
  unfold checkSerial
  rw [hReader]
  dsimp only
  rw [hCopy]
  dsimp only
  rw [if_pos hSame]

/-
  A read of a property that is not read only, with fewer than
  2 ^ 23 updates since it loaded the serial, returns the value
  that is published.
-/
theorem read_is_current
    {r : Nat}
    {text : List Char}
    (hName : isReadOnly name = false)
    (hRun : (system name value).run es = some s)
    (hStep : step name s (.check r) = some s')
    (hReturned : s'.readers r = .returned text)
    (hFew : updatesSince r es < 2 ^ 23) :
    text = current value es := by
  have hCoherent := run_coherent hRun
  have hNot : ∀ seen, s.readers r ≠ .handed seen := by
    intro seen hHanded
    simp [hCoherent.handing r seen hHanded] at hName
  rcases check_returned hNot hStep hReturned with
    ⟨serial, copied, hReader, hCopy, hSame⟩
  rcases hCoherent.reading r serial copied hReader with
    ⟨len, number, hSerial, hCount, hFresh⟩
  -- A dirty serial is odd, and the one loaded was even.
  have hWriter : s.writer = none := by
    cases hWriter : s.writer with
    | none => rfl
    | some w =>
        have hDirty := (hCoherent.dirty w hWriter).1
        have hEven := serialOf_even len number
        have hEven' :=
          serialOf_even (current value es).length (updates es)
        omega
  have hClean := (hCoherent.clean hWriter).1
  rw [← hSame, hSerial] at hClean
  rcases serialOf_inj hClean with ⟨_, hNumber⟩
  have hZero : updatesSince r es = 0 := by omega
  rcases hFresh hZero with ⟨hLen, hFits⟩
  rw [hSerial, serialValueLen_serialOf, hLen] at hCopy
  exact copiedText_of_fits (hFits hWriter) hCopy

/- A read that is disturbed by an update, and is made again. -/
theorem read_is_current_after_retry :
    ∃ s s',
      (system "sys.x".toList ['a']).run
        [ .load 0, .begin ['b', 'c'], .store 0, .copy 0 0
        , .store 1, .store 2, .publish, .check 0
        , .load 0, .copy 0 1, .copy 0 0 ] = some s ∧
      step "sys.x".toList s (.check 0) = some s' ∧
      s'.readers 0 = .returned ['b', 'c'] ∧
      ['b', 'c'] =
        current ['a']
          [ .load 0, .begin ['b', 'c'], .store 0, .copy 0 0
          , .store 1, .store 2, .publish, .check 0
          , .load 0, .copy 0 1, .copy 0 0 ] := by
  refine
    ⟨?s, ?t, ?run, ?step, ?returned,
      read_is_current (r := 0) (by decide) ?run ?step
        ?returned (by decide)⟩
  case run => exact rfl
  case step => exact rfl
  case returned => exact rfl

end Seqlock

end Resetprop

end Universal7420

------------------------------------------------------------
-- The Number Wraps
------------------------------------------------------------

namespace Universal7420

namespace Resetprop

namespace Seqlock

/- The events of one whole update. -/
def updateEvents (text : List Char) : List Event :=
  .begin text ::
    ((List.range (text.length + 1)).map .store ++ [.publish])

/- The state after one byte. -/
def stored
    (s : State)
    (w : Writer)
    (i : Nat) :
    State :=
  { s with
    buf := fun a =>
      if a = i then byteOf w.value i else s.buf a
    writer := some { w with written := i :: w.written } }

theorem runFrom_stores
    (name value : List Char)
    (is : List Nat)
    (s : State)
    {w : Writer}
    (hWriter : s.writer = some w)
    (hShort : ∀ i ∈ is, i ≤ w.value.length) :
    ∃ t written,
      (system name value).runFrom s (is.map .store) = some t ∧
      t.serial = s.serial ∧
      t.readers = s.readers ∧
      t.writer = some ⟨w.value, w.serial, written⟩ ∧
      (∀ i, i ∈ is ∨ i ∈ w.written → i ∈ written) ∧
      ∀ a,
        t.buf a =
          if a ∈ is then byteOf w.value a else s.buf a := by
  induction is generalizing s w with
  | nil =>
      refine ⟨s, w.written, rfl, rfl, rfl, hWriter, ?_, ?_⟩
      · rintro i (hNone | hIn)
        · cases hNone
        · exact hIn
      · simp
  | cons i is ih =>
      have hFirst : i ≤ w.value.length :=
        hShort i List.mem_cons_self
      have hStep :
          step name s (.store i) = some (stored s w i) := by
        change storeByte s i = _
        unfold storeByte
        rw [hWriter]
        dsimp only
        rw [if_neg (by omega)]
        rfl
      have hThere : (stored s w i).writer =
          some { w with written := i :: w.written } :=
        rfl
      rcases
        ih (stored s w i) hThere
          (fun j hIn => hShort j (List.mem_cons_of_mem i hIn))
        with
        ⟨t, written, hRun, hSerial, hReaders, hThere,
          hWritten, hBuf⟩
      refine
        ⟨t, written, ?_, hSerial, hReaders, hThere, ?_, ?_⟩
      · rw [List.map_cons]
        exact
          (system name value).runFrom_cons_eq_some_iff.mpr
            ⟨_, hStep, hRun⟩
      · rintro j (hIn | hIn)
        · rcases List.mem_cons.mp hIn with rfl | hRest
          · exact hWritten j (Or.inr List.mem_cons_self)
          · exact hWritten j (Or.inl hRest)
        · exact
            hWritten j (Or.inr (List.mem_cons_of_mem i hIn))
      · intro a
        rw [hBuf]
        by_cases hRest : a ∈ is
        · simp [hRest]
        · by_cases hHere : a = i
          · simp [hHere, stored]
          · simp [hRest, hHere, stored]

/- One update, undisturbed. -/
theorem runFrom_update
    (name value : List Char)
    {s : State}
    {len number : Nat}
    {text : List Char}
    (hWriter : s.writer = none)
    (hSerial : s.serial = serialOf len number)
    (hShort : text.length < propValueMax) :
    ∃ t,
      (system name value).runFrom s (updateEvents text) =
        some t ∧
      t.serial = serialOf text.length (number + 1) ∧
      t.writer = none ∧
      t.readers = s.readers ∧
      ∀ i ≤ text.length, t.buf i = byteOf text i := by
  have hBegin :
      step name s (.begin text) =
        some
          { s with
            serial := dirtied s.serial
            writer :=
              some ⟨text, dirtied s.serial, []⟩ } := by
    change beginUpdate s text = _
    unfold beginUpdate
    rw [hWriter]
    dsimp only
    rw [if_neg (by omega)]
  have hRange :
      ∀ i ∈ List.range (text.length + 1),
        i ≤ text.length := by
    intro i hIn
    have hLess := List.mem_range.mp hIn
    omega
  rcases
    runFrom_stores name value (List.range (text.length + 1))
      { s with
        serial := dirtied s.serial
        writer := some ⟨text, dirtied s.serial, []⟩ }
      rfl hRange with
    ⟨t, written, hStores, _, hReaders, hThere, hWritten,
      hBuf⟩
  have hPublish :
      step name t .publish =
        some
          { t with
            serial :=
              published text.length (dirtied s.serial)
            writer := none } := by
    change publishUpdate t = _
    unfold publishUpdate
    rw [hThere]
    dsimp only
    rw [if_pos]
    rw [List.all_eq_true]
    intro i hIn
    simpa using hWritten i (Or.inl hIn)
  refine
    ⟨{ t with
        serial := published text.length (dirtied s.serial)
        writer := none },
      ?_, ?_, rfl, hReaders, ?_⟩
  · refine
      (system name value).runFrom_cons_eq_some_iff.mpr
        ⟨_, hBegin, ?_⟩
    refine
      (system name value).runFrom_append_eq_some_iff.mpr
        ⟨t, hStores, ?_⟩
    exact
      (system name value).runFrom_cons_eq_some_iff.mpr
        ⟨_, hPublish, rfl⟩
  · change published text.length (dirtied s.serial) = _
    rw [hSerial, dirtied_serialOf, published_serialOf]
  · intro i hLess
    change t.buf i = _
    rw [hBuf, if_pos (List.mem_range.mpr (by omega))]

/- The events of a number of updates to one value. -/
def manyUpdates (text : List Char) : Nat → List Event
| 0 => []
| n + 1 => updateEvents text ++ manyUpdates text n

theorem runFrom_manyUpdates
    (name value : List Char)
    (n : Nat)
    {s : State}
    {number : Nat}
    {text : List Char}
    (hWriter : s.writer = none)
    (hSerial : s.serial = serialOf text.length number)
    (hShort : text.length < propValueMax) :
    ∃ t,
      (system name value).runFrom s (manyUpdates text n) =
        some t ∧
      t.serial = serialOf text.length (number + n) ∧
      t.writer = none ∧
      t.readers = s.readers ∧
      (n ≠ 0 ∨ (∀ i ≤ text.length, s.buf i = byteOf text i) →
        ∀ i ≤ text.length, t.buf i = byteOf text i) := by
  induction n generalizing s number with
  | zero =>
      refine ⟨s, rfl, hSerial, hWriter, rfl, ?_⟩
      rintro (hNot | hBuf)
      · exact absurd rfl hNot
      · exact hBuf
  | succ n ih =>
      rcases runFrom_update name value hWriter hSerial hShort with
        ⟨u, hUpdate, hSerial', hWriter', hReaders, hBuf⟩
      rcases ih hWriter' hSerial' with
        ⟨t, hRun, hSerial'', hWriter'', hReaders', hBuf'⟩
      refine
        ⟨t, ?_, ?_, hWriter'', hReaders'.trans hReaders, ?_⟩
      · exact
          (system name value).runFrom_append_eq_some_iff.mpr
            ⟨u, hUpdate, hRun⟩
      · rw [hSerial'']
        congr 1
        omega
      · intro _
        exact hBuf' (Or.inr hBuf)

theorem copyByte_copying
    {s : State}
    {r i serial : Nat}
    {copied : Nat → Option Char}
    (hReader : s.readers r = .copying serial copied)
    (hShort : i < serialValueLen serial) :
    copyByte s r i =
      some
        (setReader s r
          (.copying serial fun a =>
            if a = i then some (s.buf i) else copied a)) := by
  unfold copyByte
  rw [hReader]
  dsimp only
  rw [if_pos hShort]

theorem copyByte_handed
    {s : State}
    {r i : Nat}
    {seen : Nat → Option Char}
    (hReader : s.readers r = .handed seen)
    (hShort : i < propValueMax) :
    copyByte s r i =
      some
        (setReader s r
          (.handed fun a =>
            if a = i then some (s.buf i) else seen a)) := by
  unfold copyByte
  rw [hReader]
  dsimp only
  rw [if_pos hShort]

/- Both kinds of readers take a byte alike. -/
def Copies
    (reader : (Nat → Option Char) → Reader)
    (r limit : Nat) :
    Prop :=
  ∀ s copied i,
    s.readers r = reader copied →
    i < limit →
    copyByte s r i =
      some
        (setReader s r
          (reader fun a =>
            if a = i then some (s.buf i) else copied a))

theorem runFrom_copies
    (name value : List Char)
    {reader : (Nat → Option Char) → Reader}
    {r limit : Nat}
    (hCopies : Copies reader r limit)
    (is : List Nat)
    {s : State}
    {copied : Nat → Option Char}
    (hReader : s.readers r = reader copied)
    (hShort : ∀ i ∈ is, i < limit) :
    ∃ t copied',
      (system name value).runFrom s (is.map (.copy r)) =
        some t ∧
      t.serial = s.serial ∧
      t.buf = s.buf ∧
      t.writer = s.writer ∧
      t.readers r = reader copied' ∧
      ∀ a,
        copied' a =
          if a ∈ is then some (s.buf a) else copied a := by
  induction is generalizing s copied with
  | nil =>
      exact
        ⟨s, copied, rfl, rfl, rfl, rfl, hReader, by simp⟩
  | cons i is ih =>
      have hStep :
          step name s (.copy r i) =
            some
              (setReader s r
                (reader fun a =>
                  if a = i then
                    some (s.buf i)
                  else
                    copied a)) :=
        hCopies s copied i hReader
          (hShort i List.mem_cons_self)
      rcases
        ih (setReader_self s r _)
          (fun j hIn =>
            hShort j (List.mem_cons_of_mem i hIn)) with
        ⟨t, copied', hRun, hSerial, hBuf, hWriter, hThere,
          hCopied⟩
      refine
        ⟨t, copied', ?_, hSerial, hBuf, hWriter, hThere, ?_⟩
      · exact
          (system name value).runFrom_cons_eq_some_iff.mpr
            ⟨_, hStep, hRun⟩
      · intro a
        rw [hCopied]
        by_cases hRest : a ∈ is
        · simp [hRest, setReader]
        · by_cases hHere : a = i
          · simp [hHere, setReader]
          · simp [hRest, hHere]

theorem foldl_trackSince_of_same
    (r : Nat)
    {es : List Event}
    (hSame : ∀ e ∈ es, ∀ n, trackSince r n e = n)
    (n : Nat) :
    es.foldl (trackSince r) n = n := by
  induction es generalizing n with
  | nil => rfl
  | cons e es ih =>
      rw [List.foldl_cons, hSame e List.mem_cons_self]
      exact
        ih
          (fun f hIn => hSame f (List.mem_cons_of_mem e hIn))
          n

theorem foldl_trackSince_manyUpdates
    (r : Nat)
    (text : List Char)
    (k n : Nat) :
    (manyUpdates text k).foldl (trackSince r) n = n + k := by
  induction k generalizing n with
  | zero => rfl
  | succ k ih =>
      have hStores :
          ((List.range (text.length + 1)).map
            Event.store).foldl (trackSince r) n = n := by
        apply foldl_trackSince_of_same
        intro e hIn m
        rcases List.mem_map.mp hIn with ⟨i, _, rfl⟩
        rfl
      have hOne :
          (updateEvents text).foldl (trackSince r) n =
            n + 1 := by
        change
          ((List.range (text.length + 1)).map Event.store ++
            [Event.publish]).foldl (trackSince r) n = n + 1
        rw [List.foldl_append, hStores]
        rfl
      rw [manyUpdates, List.foldl_append, hOne, ih]
      omega

/- Updates to one value publish no other. -/
theorem current_of_begins
    {first second : List Char}
    {es : List Event}
    (hBegins : ∀ text, .begin text ∈ es → text = second) :
    current first es = first ∨ current first es = second := by
  have hTrack :
      ∀ (fs : List Event) (values : List Char × List Char),
        (∀ text, .begin text ∈ fs → text = second) →
        (values.1 = first ∨ values.1 = second) →
        (values.2 = first ∨ values.2 = second) →
        (fs.foldl trackValue values).1 = first ∨
        (fs.foldl trackValue values).1 = second := by
    intro fs
    induction fs with
    | nil => exact fun _ _ hFirst _ => hFirst
    | cons e fs ih =>
        intro values hOnly hFirst hSecond
        have hRest :
            ∀ text, .begin text ∈ fs → text = second :=
          fun text hIn =>
            hOnly text (List.mem_cons_of_mem e hIn)
        rw [List.foldl_cons]
        cases e with
        | begin text =>
            have hText := hOnly text List.mem_cons_self
            exact ih _ hRest hFirst (Or.inr hText)
        | publish => exact ih _ hRest hSecond hSecond
        | store i => exact ih _ hRest hFirst hSecond
        | load r => exact ih _ hRest hFirst hSecond
        | copy r i => exact ih _ hRest hFirst hSecond
        | check r => exact ih _ hRest hFirst hSecond
  exact
    hTrack es (first, first) hBegins (Or.inl rfl)
      (Or.inl rfl)

theorem begin_mem_manyUpdates
    {text text' : List Char}
    {n : Nat}
    (hIn : .begin text' ∈ manyUpdates text n) :
    text' = text := by
  induction n with
  | zero => cases hIn
  | succ n ih =>
      rcases List.mem_append.mp hIn with hHere | hRest
      · simpa [updateEvents] using hHere
      · exact ih hRest

/- A front of one value and the rest of another. -/
theorem copiedText_of_mix
    {first second : List Char}
    {k : Nat}
    {copied : Nat → Option Char}
    (hFront : k ≤ first.length)
    (hLength : first.length = second.length)
    (hAll :
      ∀ i < first.length,
        copied i =
          some
            (if i < k then
              byteOf first i
            else
              byteOf second i)) :
    copiedText copied first.length =
      some (first.take k ++ second.drop k) := by
  unfold copiedText
  rw [if_pos]
  · congr 1
    apply List.ext_getElem
    · simp
      omega
    · intro i hLeft hRight
      have hLess : i < first.length := by simpa using hLeft
      rw [List.getElem_map, List.getElem_range,
        hAll i hLess, Option.getD_some, List.getElem_append]
      by_cases hHere : i < k
      · have hIn : i < (first.take k).length := by
          rw [List.length_take]
          omega
        rw [dif_pos hIn, if_pos hHere, List.getElem_take]
        simp [byteOf, hLess]
      · have hIndex : k + (i - k) = i := by omega
        have hOther : i < second.length := by omega
        simp [hHere, hFront, hIndex, byteOf, hOther]
  · rw [List.all_eq_true]
    intro i hIn
    rw [hAll i (List.mem_range.mp hIn)]
    rfl

theorem byteOf_mix
    {first second : List Char}
    {k : Nat}
    (hFront : k ≤ first.length)
    (i : Nat) :
    byteOf (first.take k ++ second.drop k) i =
      if i < k then byteOf first i else byteOf second i := by
  have hTake : (first.take k).length = k := by simp [hFront]
  unfold byteOf
  by_cases hHere : i < k
  · rw [if_pos hHere]
    simp [List.getD_eq_getElem?_getD,
      List.getElem?_append_left (hTake.symm ▸ hHere), hHere]
  · have hBack : k ≤ i := Nat.le_of_not_lt hHere
    rw [if_neg hHere]
    simp [List.getD_eq_getElem?_getD,
      List.getElem?_append_right (hTake.symm ▸ hBack),
      hTake, Nat.add_sub_cancel' hBack]

/- A callback sees a text up to its null character. -/
theorem handedText_of_seen
    {seen : Nat → Option Char}
    {text : List Char}
    {left i : Nat}
    (hSeen :
      ∀ j ≤ text.length, seen (i + j) = some (byteOf text j))
    (hNul : '\x00' ∉ text)
    (hLess : text.length < left) :
    handedText seen left i = some text := by
  induction text generalizing left i with
  | nil =>
      have hEnd := hSeen 0 (Nat.le_refl 0)
      cases left with
      | zero => exact absurd hLess (Nat.not_lt_zero _)
      | succ left => simp_all [handedText, byteOf]
  | cons c text ih =>
      have hFirst : seen i = some c := by
        simpa [byteOf] using hSeen 0 (Nat.zero_le _)
      have hPlain : c ≠ '\x00' := by
        intro hSame
        exact hNul (by simp [hSame])
      cases left with
      | zero => exact absurd hLess (Nat.not_lt_zero _)
      | succ left =>
          have hRest : handedText seen left (i + 1) = some text := by
            apply ih
            · intro j hIn
              have hNext :=
                hSeen (j + 1) (Nat.succ_le_succ hIn)
              rw [Nat.add_right_comm, Nat.add_assoc, hNext]
              rfl
            · exact
                fun hIn => hNul (List.mem_cons_of_mem c hIn)
            · exact Nat.lt_of_succ_lt_succ hLess
          simp [handedText, hFirst, hPlain, hRest]

/-
  A reader takes a front of its bytes, updates follow, and it
  takes the rest of its bytes.
-/
theorem runFrom_across_updates
    (name first second : List Char)
    {reader : (Nat → Option Char) → Reader}
    {limit : Nat}
    (k n : Nat)
    (hCopies : Copies reader 0 limit)
    (hLoad :
      step name (initial first) (.load 0) =
        some
          (setReader (initial first) 0
            (reader fun _ => none)))
    (hLength : first.length = second.length)
    (hShort : second.length < propValueMax)
    (hFront : k ≤ limit)
    (hLimit : limit ≤ first.length + 1)
    (hMany : n ≠ 0) :
    ∃ es s copied,
      (system name first).run es = some s ∧
      updatesSince 0 es = n ∧
      (∀ front,
        front <+: es →
        current first front = first ∨
        current first front = second) ∧
      s.serial = serialOf second.length n ∧
      s.readers 0 = reader copied ∧
      ∀ i < limit,
        copied i =
          some
            (if i < k then
              byteOf first i
            else
              byteOf second i) := by
  have hFrontRange : ∀ i ∈ List.range k, i < limit := by
    intro i hIn
    have hLess := List.mem_range.mp hIn
    omega
  have hBackRange :
      ∀ i ∈ List.range' k (limit - k), i < limit := by
    intro i hIn
    have hLess := List.mem_range'_1.mp hIn
    omega
  rcases
    runFrom_copies name first hCopies (List.range k)
      (setReader_self (initial first) 0 (reader fun _ => none))
      hFrontRange with
    ⟨t, copied, hTaken, hSame, hBuf, hWriter, hReader,
      hCopied⟩
  have hStart : t.serial = serialOf second.length 0 := by
    rw [hSame]
    simp [setReader, initial, serialOf, hLength]
  rcases
    runFrom_manyUpdates name first n hWriter hStart
      hShort with
    ⟨u, hUpdates, hSerial, _, hReaders, hBuf'⟩
  rw [← hReaders] at hReader
  rcases
    runFrom_copies name first hCopies
      (List.range' k (limit - k)) hReader hBackRange with
    ⟨v, copied', hTaken', hSame', _, _, hReader',
      hCopied'⟩
  refine
    ⟨.load 0 ::
        ((List.range k).map (.copy 0) ++
          (manyUpdates second n ++
            (List.range' k (limit - k)).map (.copy 0))),
      v, copied', ?_, ?_, ?_, ?_, hReader', ?_⟩
  · refine
      (system name first).runFrom_cons_eq_some_iff.mpr
        ⟨_, hLoad, ?_⟩
    refine
      (system name first).runFrom_append_eq_some_iff.mpr
        ⟨t, hTaken, ?_⟩
    exact
      (system name first).runFrom_append_eq_some_iff.mpr
        ⟨u, hUpdates, hTaken'⟩
  · have hCopy :
        ∀ (is : List Nat) (n : Nat),
          (is.map (Event.copy 0)).foldl (trackSince 0) n =
            n := by
      intro is n
      apply foldl_trackSince_of_same
      intro e hIn m
      rcases List.mem_map.mp hIn with ⟨i, _, rfl⟩
      rfl
    change
      ((List.range k).map (Event.copy 0) ++
        (manyUpdates second n ++
          (List.range' k (limit - k)).map
            (Event.copy 0))).foldl (trackSince 0) 0 = n
    rw [List.foldl_append, hCopy, List.foldl_append]
    rw [foldl_trackSince_manyUpdates, hCopy, Nat.zero_add]
  · intro front hPrefix
    apply current_of_begins
    intro text hIn
    have hThere := hPrefix.subset hIn
    simp only [List.mem_cons, reduceCtorEq, false_or,
      List.mem_append, List.mem_map, and_false, exists_false,
      or_false] at hThere
    exact begin_mem_manyUpdates hThere
  · rw [hSame', hSerial, Nat.zero_add]
  · intro i hLess
    rw [hCopied']
    by_cases hHere : i < k
    · rw [if_neg, if_pos hHere, hCopied, if_pos]
      · rfl
      · exact List.mem_range.mpr hHere
      · intro hIn
        have hBetween := List.mem_range'_1.mp hIn
        omega
    · rw [if_pos, if_neg hHere]
      · rw [hBuf' (Or.inl hMany) i (by omega)]
      · exact List.mem_range'_1.mpr ⟨by omega, by omega⟩

/-
  The bound is exact.  While a reader copies, 2 ^ 23 updates to
  another value of the same length bring the serial back, and
  the read returns a front of the one value with the rest of
  the other, although only the two have ever been the value.
-/
theorem read_torn_after_wrap
    (name first second : List Char)
    (k : Nat)
    (hName : isReadOnly name = false)
    (hLength : first.length = second.length)
    (hShort : second.length < propValueMax)
    (hFront : k ≤ first.length) :
    ∃ es s s',
      (system name first).run es = some s ∧
      updatesSince 0 es = 2 ^ 23 ∧
      (∀ front,
        front <+: es →
        current first front = first ∨
        current first front = second) ∧
      step name s (.check 0) = some s' ∧
      s'.readers 0 =
        .returned (first.take k ++ second.drop k) := by
  have hLoad :
      step name (initial first) (.load 0) =
        some
          (setReader (initial first) 0
            (.copying (serialOf first.length 0)
              fun _ => none)) := by
    have hEven := serialOf_even first.length 0
    simp_all [step, loadSerial, initial, serialDirty, serialOf]
  have hCopies :
      Copies (.copying (serialOf first.length 0)) 0
        first.length := by
    intro s copied i hReader hLess
    apply copyByte_copying hReader
    rwa [serialValueLen_serialOf]
  rcases
    runFrom_across_updates name first second k (2 ^ 23)
      hCopies hLoad hLength hShort hFront (Nat.le_succ _)
      (by omega) with
    ⟨es, s, copied, hRun, hSince, hOnly, hSerial, hReader,
      hAll⟩
  -- The serial is the one that was loaded.
  have hBack : serialOf first.length 0 = s.serial := by
    rw [hSerial, hLength]
    unfold serialOf
    omega
  refine
    ⟨es, s, _, hRun, hSince, hOnly,
      step_check hReader ?_ hBack, setReader_self _ _ _⟩
  rw [serialValueLen_serialOf]
  exact copiedText_of_mix hFront hLength hAll

theorem read_torn_mixed :
    ∃ es s s',
      (system "sys.x".toList ['A', 'A']).run es = some s ∧
      updatesSince 0 es = 2 ^ 23 ∧
      (∀ front,
        front <+: es →
        current ['A', 'A'] front = ['A', 'A'] ∨
        current ['A', 'A'] front = ['B', 'B']) ∧
      step "sys.x".toList s (.check 0) = some s' ∧
      s'.readers 0 = .returned ['A', 'B'] :=
  read_torn_after_wrap "sys.x".toList ['A', 'A'] ['B', 'B'] 1
    (by decide) rfl (by decide) (by decide)

/-
  A read only property is handed over without a check, so one
  update while the callback reads it is enough.
-/
theorem read_only_torn
    (name first second : List Char)
    (k : Nat)
    (hName : isReadOnly name = true)
    (hLength : first.length = second.length)
    (hShort : second.length < propValueMax)
    (hFront : k ≤ first.length)
    (hNul : '\x00' ∉ first.take k ++ second.drop k) :
    ∃ es s s',
      (system name first).run es = some s ∧
      updatesSince 0 es = 1 ∧
      (∀ front,
        front <+: es →
        current first front = first ∨
        current first front = second) ∧
      step name s (.check 0) = some s' ∧
      s'.readers 0 =
        .returned (first.take k ++ second.drop k) := by
  have hMixed :
      (first.take k ++ second.drop k).length =
        first.length := by
    simp
    omega
  have hLoad :
      step name (initial first) (.load 0) =
        some
          (setReader (initial first) 0
            (.handed fun _ => none)) := by
    have hEven : first.length * 2 ^ 24 % 2 = 0 := by omega
    have hPlain :
        first.length * 2 ^ 24 / 2 ^ 16 % 2 = 0 := by
      omega
    simp_all [step, loadSerial, initial, serialDirty,
      serialLong]
  have hCopies : Copies .handed 0 (first.length + 1) := by
    intro s seen i hReader hLess
    exact copyByte_handed hReader (by omega)
  rcases
    runFrom_across_updates name first second k 1 hCopies
      hLoad hLength hShort (Nat.le_succ_of_le hFront)
      (Nat.le_refl _) Nat.one_ne_zero with
    ⟨es, s, seen, hRun, hSince, hOnly, _, hReader, hAll⟩
  have hText :
      handedText seen propValueMax 0 =
        some (first.take k ++ second.drop k) := by
    refine handedText_of_seen ?_ hNul (by omega)
    intro j hIn
    rw [Nat.zero_add, hAll j (by omega),
      byteOf_mix hFront]
  refine
    ⟨es, s,
      setReader s 0
        (.returned (first.take k ++ second.drop k)),
      hRun, hSince, hOnly, ?_, setReader_self _ _ _⟩
  change checkSerial s 0 = _
  unfold checkSerial
  rw [hReader]
  dsimp only
  rw [hText]

end Seqlock

end Resetprop

end Universal7420
