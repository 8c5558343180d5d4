import Universal7420.Lib.JavaString
import Mathlib.Logic.Function.Basic

/-
  The byte storage of `PersistentStorage.java`.

  The byte functions are layered over the string functions,
  with a conversion on either side.  The native store returns
  the string that was last put under a key.  A missing key is
  a null string, and `get` converts it without a look.

  Main declarations:
    * `Universal7420.Lineagehw.get`
    * `Universal7420.Lineagehw.set`
    * `Universal7420.Lineagehw.History`
    * `Universal7420.Lineagehw.History.run_agrees`
    * `Universal7420.Lineagehw.get_written_iff`
-/

------------------------------------------------------------
-- The Storage
------------------------------------------------------------

namespace Universal7420

namespace Lineagehw

open JavaString

inductive JavaException where
| nullPointer
deriving DecidableEq, Repr

/- What the native library answers. -/
structure Zerops where
  available : Bool
  putCString : JavaString → JavaString → Bool

/- What the native library keeps. -/
abbrev Storage : Type :=
  JavaString → Option JavaString

section Functions

variable (zerops : Zerops)
variable (decoder : Decoder)

def isSupported : Bool :=
  zerops.available

/- `getString`, absent for null. -/
def getString
    (storage : Storage)
    (key : JavaString) : Option JavaString :=
  if isSupported zerops then storage key else none

/-
  `get`, absent for null.  Only an unsupported encoding would
  be caught.
-/
def get
    (storage : Storage)
    (key : JavaString) :
    Except JavaException (Option (List UInt8)) :=
  match getString zerops storage key with
  | none => .error .nullPointer
  | some data => .ok (some (getBytes data))

def setString
    (storage : Storage)
    (key buffer : JavaString) : Storage × Bool :=
  if isSupported zerops then
    if zerops.putCString key buffer then
      (Function.update storage key (some buffer), true)
    else
      (storage, false)
  else
    (storage, false)

/- `set`; the buffer is absent for null. -/
def set
    (storage : Storage)
    (key : JavaString)
    (buffer : Option (List UInt8)) :
    Except JavaException (Storage × Bool) :=
  match buffer with
  | none => .error .nullPointer
  | some bytes =>
      .ok (setString zerops storage key
        (decoder.newString bytes))

end Functions

end Lineagehw

end Universal7420

------------------------------------------------------------
-- Histories
------------------------------------------------------------

namespace Universal7420

namespace Lineagehw

open JavaString

/- A call of `set`. -/
structure SetCall where
  key : JavaString
  buffer : Option (List UInt8)
deriving DecidableEq, Repr

/-
  The storage, and the buffer of the last call for each key
  that returned true.
-/
structure History where
  storage : Storage
  written : JavaString → Option (List UInt8)

namespace History

/- Nothing was ever stored. -/
def empty : History where
  storage := fun _ => none
  written := fun _ => none

section Runs

variable (zerops : Zerops)
variable (decoder : Decoder)

def step
    (history : History)
    (call : SetCall) : History :=
  match set zerops decoder history.storage call.key
      call.buffer with
  | .error _ => history
  | .ok (storage, true) =>
      { storage := storage
        written :=
          Function.update history.written call.key
            call.buffer }
  | .ok (storage, false) =>
      { history with storage := storage }

/- The history after some calls. -/
def run (calls : List SetCall) : History :=
  calls.foldl (step zerops decoder) empty

/-
  The storage holds the decoded buffers, and only an available
  library has stored any.
-/
structure Agrees (history : History) : Prop where
  data :
    ∀ key, history.storage key =
      (history.written key).map decoder.newString
  available :
    ∀ key, history.written key ≠ none →
      zerops.available = true

end Runs

variable {zerops : Zerops}
variable {decoder : Decoder}

/- A call changes nothing, or it stores its buffer. -/
theorem step_cases
    (history : History)
    (call : SetCall) :
    history.step zerops decoder call = history ∨
      (zerops.available = true ∧
        ∃ bytes, call.buffer = some bytes ∧
          history.step zerops decoder call =
            { storage :=
                Function.update history.storage call.key
                  (some (decoder.newString bytes))
              written :=
                Function.update history.written call.key
                  (some bytes) }) := by
  rcases call with ⟨key, buffer⟩
  cases buffer with
  | none =>
      exact Or.inl rfl
  | some bytes =>
      by_cases hAvailable : zerops.available = true
      · by_cases hPut :
            zerops.putCString key
              (decoder.newString bytes) = true
        · refine Or.inr ⟨hAvailable, bytes, rfl, ?_⟩
          simp [step, set, setString, isSupported,
            hAvailable, hPut]
        · refine Or.inl ?_
          simp [step, set, setString, isSupported,
            hAvailable, hPut]
      · refine Or.inl ?_
        simp [step, set, setString, isSupported, hAvailable]

theorem empty_agrees :
    Agrees zerops decoder empty where
  data _ := rfl
  available _ hWritten := absurd rfl hWritten

theorem step_agrees
    {history : History}
    (hAgrees : Agrees zerops decoder history)
    (call : SetCall) :
    Agrees zerops decoder
      (history.step zerops decoder call) := by
  rcases @step_cases zerops decoder history call with
    hSame | ⟨hAvailable, bytes, _, hStored⟩
  · rw [hSame]
    exact hAgrees
  · rw [hStored]
    constructor
    · intro key
      by_cases hKey : key = call.key
      · simp [hKey]
      · simp [hKey, hAgrees.data key]
    · intro _ _
      exact hAvailable

/- The storage and the calls agree after every run. -/
theorem run_agrees
    (calls : List SetCall) :
    Agrees zerops decoder (run zerops decoder calls) := by
  have hFold :
      ∀ history, Agrees zerops decoder history →
        Agrees zerops decoder
          (calls.foldl (step zerops decoder) history) := by
    induction calls with
    | nil =>
        intro history hAgrees
        exact hAgrees
    | cons call calls ih =>
        intro history hAgrees
        exact ih _ (step_agrees hAgrees call)
  exact hFold empty empty_agrees

end History

end Lineagehw

end Universal7420

------------------------------------------------------------
-- Reading Back
------------------------------------------------------------

namespace Universal7420

namespace Lineagehw

open JavaString

variable {zerops : Zerops}
variable {decoder : Decoder}

/- A buffer that was stored is read through both conversions. -/
theorem get_of_written
    {calls : List SetCall}
    {key : JavaString}
    {bytes : List UInt8}
    (hWritten :
      (History.run zerops decoder calls).written key =
        some bytes) :
    get zerops (History.run zerops decoder calls).storage
        key =
      .ok (some (getBytes (decoder.newString bytes))) := by
  have hAgrees :=
    @History.run_agrees zerops decoder calls
  have hAvailable : zerops.available = true := by
    apply hAgrees.available key
    simp [hWritten]
  simp [get, getString, isSupported, hAvailable,
    hAgrees.data, hWritten]

/- A key that was never stored is no null, but a failure. -/
theorem get_of_not_written
    {calls : List SetCall}
    {key : JavaString}
    (hWritten :
      (History.run zerops decoder calls).written key =
        none) :
    get zerops (History.run zerops decoder calls).storage
        key =
      .error .nullPointer := by
  have hAgrees :=
    @History.run_agrees zerops decoder calls
  simp [get, getString, hAgrees.data, hWritten]

/-
  After any calls `get` returns the last buffer that was
  stored under the key, and null if there is none, exactly if
  there is one and it is well-formed UTF-8.
-/
theorem get_written_iff
    (zerops : Zerops)
    (decoder : Decoder)
    (calls : List SetCall)
    (key : JavaString) :
    get zerops (History.run zerops decoder calls).storage
          key =
        .ok ((History.run zerops decoder calls).written
          key) ↔
      ∃ bytes,
        (History.run zerops decoder calls).written key =
            some bytes ∧
          WellFormed bytes := by
  cases hWritten :
      (History.run zerops decoder calls).written key with
  | none =>
      rw [get_of_not_written hWritten]
      simp
  | some bytes =>
      have hBytes := roundTrip_iff decoder bytes
      rw [get_of_written hWritten]
      simpa using hBytes

/- A byte that is no part of any UTF-8 text. -/
theorem not_wellFormed_ff :
    ¬ WellFormed [0xFF] := by
  intro hValid
  have hFirst := hValid.isUTF8FirstByte_getElem_zero (by simp)
  revert hFirst
  decide

/-
  A library that stores everything: `set` returns true for the
  byte and `get` returns another one, and `get` of a key that
  was never stored throws.
-/
theorem get_loses_byte :
    (∃ storage,
      set ⟨true, fun _ _ => true⟩ replacing
          History.empty.storage [0x6B] (some [0xFF]) =
        .ok (storage, true) ∧
      get ⟨true, fun _ _ => true⟩ storage [0x6B] ≠
        .ok (some [0xFF])) ∧
    get ⟨true, fun _ _ => true⟩ History.empty.storage
        [0x6B] ≠
      .ok none := by
  refine ⟨⟨_, rfl, ?_⟩, by simp [get, getString,
    History.empty]⟩
  intro hSame
  have hBytes :
      getBytes (replacing.newString [0xFF]) = [0xFF] := by
    simpa [get, getString, isSupported] using hSame
  exact not_wellFormed_ff
    ((roundTrip_iff replacing [0xFF]).mp hBytes)

end Lineagehw

end Universal7420
