import Universal7420.Lib.Decimal
import Universal7420.Lib.EventSystem

/-
  The display modes of `DisplayModes.cpp`.

  `getDisplayModes` advertises the modes of the table below the
  content of `mode_max`.  The constructor and `setDisplayMode`
  check a mode against the table only.  What is active stays
  advertised exactly if no mode from above is ever requested
  or found in the default file.

  Main declarations:
    * `Universal7420.Livedisplay.DisplayModes`
    * `Universal7420.Livedisplay.getDisplayModes`
    * `Universal7420.Livedisplay.setDisplayMode`
    * `Universal7420.Livedisplay.construct`
    * `Universal7420.Livedisplay.Consistent`
    * `Universal7420.Livedisplay.modes_consistent_iff`
-/

------------------------------------------------------------
-- Reading Numbers
------------------------------------------------------------

namespace Universal7420

namespace Livedisplay

open CText

/-
  `file >> value` on a stream that has just been opened: the
  value after it, and `fail()`.  Nothing is stored when there
  is nothing to read, and a limit when the number is too large.
-/
def extract
    (file : Option (List Char))
    (value : Int) : Int × Bool :=
  match file.map (List.dropWhile isSpace) with
  | none | some [] => (value, true)
  | some text =>
      match (scanDecimal text).1 with
      | none => (0, true)
      | some v =>
          if v < -2 ^ 31 then (-2 ^ 31, true)
          else if 2 ^ 31 ≤ v then (2 ^ 31 - 1, true)
          else (v, false)

/- `file << value` -/
def inserted (value : Int) : List Char :=
  (toString value).toList

end Livedisplay

end Universal7420

------------------------------------------------------------
-- The Service
------------------------------------------------------------

namespace Universal7420

namespace Livedisplay

open CText

/- An identifier and its name. -/
abbrev Mode : Type :=
  Int × String

def kModeMap : List Mode :=
  [ (0, "Dynamic")
  , (1, "Standard")
  , (2, "Natural")
  , (3, "Cinema")
  , (4, "Adaptive") ]

/- `kModeMap.find` and `kModeMap.at` -/
def lookup (modeId : Int) : Option Mode :=
  kModeMap.find? (fun entry => entry.1 = modeId)

/-
  The member of the service and the files it uses, which are
  absent when they cannot be opened for reading.
-/
structure DisplayModes where
  mDefaultModeId : Int
  modeMaxFile : Option (List Char)
  modeFile : Option (List Char)
  defaultFile : Option (List Char)
deriving DecidableEq, Repr

/- Which files can be opened for writing and take the text. -/
structure Answers where
  modeOpens : Bool
  modeStores : Bool
  defaultOpens : Bool
  defaultStores : Bool
deriving DecidableEq, Repr

/-
  The bound that `getDisplayModes` finds.  `stack` is what an
  uninitialized variable holds.
-/
def modeBound
    (stack : Int)
    (s : DisplayModes) : Int :=
  match s.modeMaxFile with
  | some text => (extract (some text) stack).1
  | none => kModeMap.length

def getDisplayModes
    (stack : Int)
    (s : DisplayModes) : List Mode :=
  kModeMap.filter (fun entry => entry.1 < modeBound stack s)

def getCurrentDisplayMode
    (stack : Int)
    (s : DisplayModes) : Option Mode :=
  let read := extract s.modeFile stack
  if read.2 then
    lookup s.mDefaultModeId
  else
    lookup (((lookup read.1).map Prod.fst).getD
      s.mDefaultModeId)

def getDefaultDisplayMode
    (s : DisplayModes) : Option Mode :=
  lookup s.mDefaultModeId

/-
  `setDisplayMode`.  The text of a stream goes to its file when
  the stream is destroyed, and an error then is not noticed.
  Opening the default file for writing empties it.
-/
def setDisplayMode
    (answers : Answers)
    (s : DisplayModes)
    (modeId : Int)
    (makeDefault : Bool) : DisplayModes × Bool :=
  match lookup modeId with
  | none => (s, false)
  | some entry =>
      if answers.modeOpens then
        let s :=
          if answers.modeStores then
            { s with
              modeFile :=
                s.modeFile.map (fun _ => inserted entry.1) }
          else
            s
        if makeDefault then
          if answers.defaultOpens then
            ({ s with
                mDefaultModeId := entry.1
                defaultFile := some
                  (if answers.defaultStores then
                    inserted entry.1
                  else
                    []) },
              true)
          else
            (s, false)
        else
          (s, true)
      else
        (s, false)

/- The default mode that the constructor finds, if any. -/
def storedDefault
    (stack : Int)
    (s : DisplayModes) : Option Int :=
  let read := extract s.defaultFile stack
  if read.2 then
    none
  else
    some (((lookup read.1).map Prod.fst).getD 0)

/- The constructor. -/
def construct
    (stack : Int)
    (answers : Answers)
    (s : DisplayModes) : DisplayModes :=
  match storedDefault stack s with
  | none => { s with mDefaultModeId := 0 }
  | some modeId =>
      (setDisplayMode answers
        { s with mDefaultModeId := modeId } modeId false).1

end Livedisplay

end Universal7420

------------------------------------------------------------
-- Runs
------------------------------------------------------------

namespace Universal7420

namespace Livedisplay

/- A call of a client, or a new start of the service. -/
inductive DisplayEvent where
| setDisplayMode
    (answers : Answers)
    (modeId : Int)
    (makeDefault : Bool)
| restart (answers : Answers)
deriving DecidableEq, Repr

/-
  The service, and the modes for which `setDisplayMode` has
  returned true.
-/
structure Session where
  service : DisplayModes
  accepted : List Int
deriving DecidableEq, Repr

def displayStep
    (stack : Int)
    (s : Session) :
    DisplayEvent → Session
| .setDisplayMode answers modeId makeDefault =>
    let result :=
      setDisplayMode answers s.service modeId makeDefault
    { service := result.1
      accepted :=
        if result.2 then s.accepted ++ [modeId]
        else s.accepted }
| .restart answers =>
    { s with service := construct stack answers s.service }

/- The service over given files. -/
def displaySystem
    (stack : Int)
    (answers : Answers)
    (files : DisplayModes) :
    EventSystem Session DisplayEvent where
  init := ⟨construct stack answers files, []⟩
  step := fun s e => some (displayStep stack s e)

/- Only advertised modes have been active or accepted. -/
structure Consistent
    (stack : Int)
    (s : Session) : Prop where
  current :
    ∃ mode ∈ getDisplayModes stack s.service,
      getCurrentDisplayMode stack s.service = some mode
  default :
    ∃ mode ∈ getDisplayModes stack s.service,
      getDefaultDisplayMode s.service = some mode
  accepted :
    ∀ modeId ∈ s.accepted,
      ∃ mode ∈ getDisplayModes stack s.service,
        mode.1 = modeId

/- The mode is in the table, but it is not advertised. -/
def Hidden
    (stack : Int)
    (s : DisplayModes)
    (modeId : Int) : Prop :=
  modeId ∈ kModeMap.map Prod.fst ∧
    modeBound stack s ≤ modeId

instance decidableHidden
    (stack : Int)
    (s : DisplayModes)
    (modeId : Int) :
    Decidable (Hidden stack s modeId) :=
  inferInstanceAs (Decidable (_ ∧ _))

/-
  A mode that is not advertised is only requested by a call
  that stores nothing and fails.
-/
def RequestsAdvertised
    (stack : Int)
    (s : Session) :
    DisplayEvent → Prop
| .setDisplayMode answers modeId makeDefault =>
    Hidden stack s.service modeId →
      answers.modeOpens = false ∨
        (answers.modeStores = false ∧ makeDefault = true ∧
          answers.defaultOpens = false)
| .restart _ => True

end Livedisplay

end Universal7420

------------------------------------------------------------
-- Advertised Modes
------------------------------------------------------------

namespace Universal7420

namespace Livedisplay

open CText

/- The mode is in the list of `getDisplayModes`. -/
def Advertised
    (stack : Int)
    (s : DisplayModes)
    (modeId : Int) : Prop :=
  modeId ∈ kModeMap.map Prod.fst ∧
    modeId < modeBound stack s

/- The constructor finds no mode that is not advertised. -/
def StartClear
    (stack : Int)
    (files : DisplayModes) : Prop :=
  ∀ modeId,
    extract files.defaultFile stack = (modeId, false) →
      ¬ Hidden stack files modeId

theorem lookup_eq_some
    {modeId : Int}
    {mode : Mode}
    (hLookup : lookup modeId = some mode) :
    mode ∈ kModeMap ∧ mode.1 = modeId := by
  refine ⟨List.mem_of_find?_eq_some hLookup, ?_⟩
  simpa using List.find?_some hLookup

theorem exists_lookup_iff
    {modeId : Int} :
    (∃ mode, lookup modeId = some mode) ↔
      modeId ∈ kModeMap.map Prod.fst := by
  constructor
  · rintro ⟨mode, hLookup⟩
    rcases lookup_eq_some hLookup with ⟨hMem, hId⟩
    exact List.mem_map.mpr ⟨mode, hMem, hId⟩
  · intro hMem
    apply Option.isSome_iff_exists.mp
    rcases List.mem_map.mp hMem with ⟨mode, hMode, hId⟩
    apply List.find?_isSome.mpr
    exact ⟨mode, hMode, by simpa using hId⟩

theorem advertised_iff_mem
    {stack : Int}
    {s : DisplayModes}
    {modeId : Int} :
    Advertised stack s modeId ↔
      ∃ mode ∈ getDisplayModes stack s,
        mode.1 = modeId := by
  constructor
  · rintro ⟨hMem, hBound⟩
    rcases List.mem_map.mp hMem with ⟨mode, hMode, hId⟩
    refine ⟨mode, List.mem_filter.mpr ⟨hMode, ?_⟩, hId⟩
    simpa [hId] using hBound
  · rintro ⟨mode, hMode, rfl⟩
    rcases List.mem_filter.mp hMode with ⟨hMem, hBound⟩
    exact ⟨List.mem_map_of_mem hMem, by simpa using hBound⟩

/- A mode that is looked up is advertised with its name. -/
theorem advertised_iff_lookup
    {stack : Int}
    {s : DisplayModes}
    {modeId : Int} :
    Advertised stack s modeId ↔
      ∃ mode ∈ getDisplayModes stack s,
        lookup modeId = some mode := by
  constructor
  · rintro ⟨hMem, hBound⟩
    rcases exists_lookup_iff.mpr hMem with ⟨mode, hLookup⟩
    rcases lookup_eq_some hLookup with ⟨hMode, hId⟩
    refine ⟨mode, List.mem_filter.mpr ⟨hMode, ?_⟩, hLookup⟩
    simpa [hId] using hBound
  · rintro ⟨mode, hMode, hLookup⟩
    exact advertised_iff_mem.mpr
      ⟨mode, hMode, (lookup_eq_some hLookup).2⟩

theorem not_hidden_iff
    {stack : Int}
    {s : DisplayModes}
    {modeId : Int}
    (hMem : modeId ∈ kModeMap.map Prod.fst) :
    ¬ Hidden stack s modeId ↔
      Advertised stack s modeId := by
  unfold Hidden Advertised
  constructor
  · intro hNot
    refine ⟨hMem, ?_⟩
    by_contra hBound
    exact hNot ⟨hMem, Int.not_lt.mp hBound⟩
  · rintro ⟨_, hBound⟩ ⟨_, hAbove⟩
    exact Int.not_lt.mpr hAbove hBound

/- A mode of the table is read back from its text. -/
theorem extract_inserted
    {modeId : Int}
    (hMem : modeId ∈ kModeMap.map Prod.fst)
    (stack : Int) :
    extract (some (inserted modeId)) stack =
      (modeId, false) := by
  simp only [kModeMap, List.map_cons, List.map_nil,
    List.mem_cons, List.not_mem_nil, or_false] at hMem
  rcases hMem with rfl | rfl | rfl | rfl | rfl
  all_goals
    rfl

/- If any mode is advertised, the first one is. -/
theorem advertised_zero
    {stack : Int}
    {s : DisplayModes}
    (hSome : getDisplayModes stack s ≠ []) :
    Advertised stack s 0 := by
  rcases List.exists_mem_of_ne_nil _ hSome with
    ⟨mode, hMode⟩
  rcases advertised_iff_mem.mpr ⟨mode, hMode, rfl⟩ with
    ⟨hMem, hBound⟩
  have hNonneg :
      ∀ modeId ∈ kModeMap.map Prod.fst,
        (0 : Int) ≤ modeId := by
    decide
  refine ⟨by decide, ?_⟩
  exact Int.lt_of_le_of_lt (hNonneg mode.1 hMem) hBound

end Livedisplay

end Universal7420

------------------------------------------------------------
-- Steps
------------------------------------------------------------

namespace Universal7420

namespace Livedisplay

open CText

/- Everything that the service can report is advertised. -/
structure Sound
    (stack : Int)
    (s : DisplayModes) : Prop where
  zero : Advertised stack s 0
  current :
    ∃ modeId, extract s.modeFile stack = (modeId, false) ∧
      Advertised stack s modeId
  default : Advertised stack s s.mDefaultModeId
  start : StartClear stack s

theorem Sound.reports
    {stack : Int}
    {s : DisplayModes}
    (hSound : Sound stack s) :
    (∃ mode ∈ getDisplayModes stack s,
        getCurrentDisplayMode stack s = some mode) ∧
      ∃ mode ∈ getDisplayModes stack s,
        getDefaultDisplayMode s = some mode := by
  refine ⟨?_, advertised_iff_lookup.mp hSound.default⟩
  rcases hSound.current with ⟨modeId, hRead, hAdvertised⟩
  rcases advertised_iff_lookup.mp hAdvertised with
    ⟨mode, hMode, hLookup⟩
  refine ⟨mode, hMode, ?_⟩
  simp [getCurrentDisplayMode, hRead, hLookup,
    (lookup_eq_some hLookup).2]

/- The node is not written, or with an advertised mode. -/
theorem Sound.writeMode
    {stack : Int}
    {s : DisplayModes}
    (hSound : Sound stack s)
    {modeId : Int}
    (hAdvertised : Advertised stack s modeId) :
    Sound stack
      { s with
        modeFile :=
          s.modeFile.map (fun _ => inserted modeId) } where
  zero := hSound.zero
  current := by
    rcases hSound.current with ⟨old, hRead, _⟩
    cases hFile : s.modeFile with
    | none =>
        rw [hFile] at hRead
        cases hRead
    | some text =>
        exact ⟨modeId,
          extract_inserted hAdvertised.1 stack, hAdvertised⟩
  default := hSound.default
  start := hSound.start

theorem Sound.makeDefault
    {stack : Int}
    {s : DisplayModes}
    (hSound : Sound stack s)
    {modeId : Int}
    (hAdvertised : Advertised stack s modeId)
    (stores : Bool) :
    Sound stack
      { s with
        mDefaultModeId := modeId
        defaultFile := some
          (if stores then inserted modeId else []) } where
  zero := hSound.zero
  current := hSound.current
  default := hAdvertised
  start := by
    intro found hRead
    cases stores with
    | true =>
        simp only [if_true,
          extract_inserted hAdvertised.1] at hRead
        cases hRead
        exact (not_hidden_iff hAdvertised.1).mpr hAdvertised
    | false =>
        cases hRead

/- A request for an advertised mode keeps the service sound. -/
theorem Sound.setDisplayMode
    {stack : Int}
    {s : DisplayModes}
    (hSound : Sound stack s)
    {modeId : Int}
    (hAdvertised : Advertised stack s modeId)
    (answers : Answers)
    (makeDefault : Bool) :
    Sound stack
      (Livedisplay.setDisplayMode answers s modeId
        makeDefault).1 := by
  rcases advertised_iff_lookup.mp hAdvertised with
    ⟨mode, _, hLookup⟩
  have hId := (lookup_eq_some hLookup).2
  simp only [Livedisplay.setDisplayMode, hLookup, hId]
  split
  · have hWritten :
        Sound stack
          (if answers.modeStores then
            { s with
              modeFile :=
                s.modeFile.map (fun _ => inserted modeId) }
          else
            s) := by
      split
      · exact hSound.writeMode hAdvertised
      · exact hSound
    have hStill :
        Advertised stack
          (if answers.modeStores then
            { s with
              modeFile :=
                s.modeFile.map (fun _ => inserted modeId) }
          else
            s) modeId := by
      split
      · exact hAdvertised
      · exact hAdvertised
    split
    · split
      · exact hWritten.makeDefault hStill _
      · exact hWritten
    · exact hWritten
  · exact hSound

/- The default that the constructor finds is advertised. -/
theorem StartClear.stored
    {stack : Int}
    {s : DisplayModes}
    (hClear : StartClear stack s)
    (hZero : Advertised stack s 0)
    {modeId : Int}
    (hStored : storedDefault stack s = some modeId) :
    Advertised stack s modeId := by
  unfold storedDefault at hStored
  cases hRead : extract s.defaultFile stack with
  | mk found failed =>
      simp only [hRead] at hStored
      cases failed with
      | true =>
          cases hStored
      | false =>
          cases hLookup : lookup found with
          | none =>
              rw [hLookup] at hStored
              cases hStored
              exact hZero
          | some mode =>
              rw [hLookup] at hStored
              cases hStored
              rcases lookup_eq_some hLookup with
                ⟨hMode, hId⟩
              have hMem : found ∈ kModeMap.map Prod.fst :=
                List.mem_map.mpr ⟨mode, hMode, hId⟩
              rw [Option.map_some, Option.getD_some, hId]
              exact (not_hidden_iff hMem).mp
                (hClear found hRead)

/- The constructor makes a sound service. -/
theorem sound_construct
    {stack : Int}
    {s : DisplayModes}
    (hZero : Advertised stack s 0)
    (hCurrent :
      ∃ modeId, extract s.modeFile stack = (modeId, false) ∧
        Advertised stack s modeId)
    (hClear : StartClear stack s)
    (answers : Answers) :
    Sound stack (construct stack answers s) := by
  unfold construct
  cases hStored : storedDefault stack s with
  | none =>
      exact ⟨hZero, hCurrent, hZero, hClear⟩
  | some modeId =>
      have hAdvertised := hClear.stored hZero hStored
      have hNew :
          Sound stack { s with mDefaultModeId := modeId } :=
        ⟨hZero, hCurrent, hAdvertised, hClear⟩
      exact hNew.setDisplayMode hAdvertised answers false

end Livedisplay

end Universal7420

------------------------------------------------------------
-- Consistency Over Runs
------------------------------------------------------------

namespace Universal7420

namespace Livedisplay

open CText

/- The bound does not change. -/
theorem modeMaxFile_setDisplayMode
    (answers : Answers)
    (s : DisplayModes)
    (modeId : Int)
    (makeDefault : Bool) :
    (setDisplayMode answers s modeId
      makeDefault).1.modeMaxFile = s.modeMaxFile := by
  unfold setDisplayMode
  split
  · rfl
  · split_ifs <;> rfl

theorem modeMaxFile_construct
    (stack : Int)
    (answers : Answers)
    (s : DisplayModes) :
    (construct stack answers s).modeMaxFile =
      s.modeMaxFile := by
  unfold construct
  split
  · rfl
  · exact modeMaxFile_setDisplayMode _ _ _ _

theorem advertised_congr
    {stack : Int}
    {s t : DisplayModes}
    (hSame : t.modeMaxFile = s.modeMaxFile)
    (modeId : Int) :
    Advertised stack t modeId ↔
      Advertised stack s modeId := by
  unfold Advertised modeBound
  rw [hSame]

/- The invariant of a session. -/
structure SoundSession
    (stack : Int)
    (s : Session) : Prop where
  service : Sound stack s.service
  accepted :
    ∀ modeId ∈ s.accepted,
      Advertised stack s.service modeId

theorem SoundSession.consistent
    {stack : Int}
    {s : Session}
    (hInv : SoundSession stack s) :
    Consistent stack s := by
  rcases hInv.service.reports with ⟨hCurrent, hDefault⟩
  refine ⟨hCurrent, hDefault, ?_⟩
  intro modeId hMem
  exact advertised_iff_mem.mp (hInv.accepted modeId hMem)

/- A call that meets the guard stores nothing or is sound. -/
theorem setDisplayMode_of_guard
    {stack : Int}
    {s : Session}
    {answers : Answers}
    {modeId : Int}
    {makeDefault : Bool}
    (hGuard :
      RequestsAdvertised stack s
        (.setDisplayMode answers modeId makeDefault)) :
    setDisplayMode answers s.service modeId makeDefault =
        (s.service, false) ∨
      Advertised stack s.service modeId := by
  by_cases hMem : modeId ∈ kModeMap.map Prod.fst
  · by_cases hHidden : Hidden stack s.service modeId
    · left
      rcases exists_lookup_iff.mpr hMem with
        ⟨mode, hLookup⟩
      rcases hGuard hHidden with
        hClosed | ⟨hRefused, hMake, hDefault⟩
      · simp [setDisplayMode, hLookup, hClosed]
      · simp [setDisplayMode, hLookup, hRefused, hMake,
          hDefault]
    · exact Or.inr ((not_hidden_iff hMem).mp hHidden)
  · left
    cases hLookup : lookup modeId with
    | none =>
        simp [setDisplayMode, hLookup]
    | some mode =>
        exact absurd (exists_lookup_iff.mp ⟨mode, hLookup⟩)
          hMem

theorem SoundSession.step
    {stack : Int}
    {s : Session}
    {e : DisplayEvent}
    (hInv : SoundSession stack s)
    (hGuard : RequestsAdvertised stack s e) :
    SoundSession stack (displayStep stack s e) := by
  cases e with
  | setDisplayMode answers modeId makeDefault =>
      have hBound := modeMaxFile_setDisplayMode answers
        s.service modeId makeDefault
      rcases setDisplayMode_of_guard hGuard with
        hSame | hAdvertised
      · simp only [displayStep, hSame]
        exact hInv
      · refine ⟨?_, ?_⟩
        · exact hInv.service.setDisplayMode hAdvertised
            answers makeDefault
        · intro other hMem
          apply (advertised_congr hBound other).mpr
          simp only [displayStep] at hMem
          split at hMem
          · rcases List.mem_append.mp hMem with hOld | hNew
            · exact hInv.accepted other hOld
            · rw [List.mem_singleton.mp hNew]
              exact hAdvertised
          · exact hInv.accepted other hMem
  | restart answers =>
      refine ⟨?_, ?_⟩
      · exact sound_construct hInv.service.zero
          hInv.service.current hInv.service.start answers
      · intro modeId hMem
        apply (advertised_congr (modeMaxFile_construct stack
          answers s.service) modeId).mpr
        exact hInv.accepted modeId hMem

/- A call that breaks the guard shows a hidden mode. -/
theorem Consistent.guard
    {stack : Int}
    {s : Session}
    {e : DisplayEvent}
    (hInv : SoundSession stack s)
    (hAfter : Consistent stack (displayStep stack s e)) :
    RequestsAdvertised stack s e := by
  cases e with
  | restart answers =>
      trivial
  | setDisplayMode answers modeId makeDefault =>
      intro hHidden
      by_contra hBad
      rw [not_or] at hBad
      rcases hBad with ⟨hOpens, hShown⟩
      have hOpen : answers.modeOpens = true := by
        simpa using hOpens
      have hBound := modeMaxFile_setDisplayMode answers
        s.service modeId makeDefault
      have hNot :
          ¬ Advertised stack
            (setDisplayMode answers s.service modeId
              makeDefault).1 modeId := by
        rw [advertised_congr hBound,
          ← not_hidden_iff hHidden.1, not_not]
        exact hHidden
      rcases exists_lookup_iff.mpr hHidden.1 with
        ⟨mode, hLookup⟩
      have hId := (lookup_eq_some hLookup).2
      cases hResult :
          (setDisplayMode answers s.service modeId
            makeDefault).2 with
      | true =>
          apply hNot
          apply advertised_iff_mem.mpr
          refine hAfter.accepted modeId ?_
          simp [displayStep, hResult]
      | false =>
          -- the default file could not be opened
          have hFailed :
              makeDefault = true ∧
                answers.defaultOpens = false := by
            simp only [setDisplayMode, hLookup, hOpen,
              if_true] at hResult
            split at hResult
            · rename_i hMake
              split at hResult
              · cases hResult
              · rename_i hClosed
                exact ⟨hMake, by simpa using hClosed⟩
            · cases hResult
          have hStores : answers.modeStores = true := by
            by_contra hRefused
            exact hShown ⟨by simpa using hRefused, hFailed⟩
          rcases hInv.service.current with ⟨old, hRead, _⟩
          cases hFile : s.service.modeFile with
          | none =>
              rw [hFile] at hRead
              cases hRead
          | some text =>
              rcases hAfter.current with
                ⟨shown, hShownMem, hCurrent⟩
              apply hNot
              apply advertised_iff_lookup.mpr
              refine ⟨shown, hShownMem, ?_⟩
              simpa [displayStep, setDisplayMode, hLookup,
                hOpen, hStores, hFailed, hFile, hId,
                getCurrentDisplayMode,
                extract_inserted hHidden.1] using hCurrent

/- The service starts consistent exactly if it starts clear. -/
theorem startClear_of_consistent
    {stack : Int}
    {answers : Answers}
    {files : DisplayModes}
    (hStart :
      Consistent stack
        ⟨construct stack answers files, []⟩) :
    StartClear stack files := by
  intro modeId hRead hHidden
  rcases exists_lookup_iff.mpr hHidden.1 with
    ⟨mode, hLookup⟩
  have hId := (lookup_eq_some hLookup).2
  have hStored :
      storedDefault stack files = some modeId := by
    simp [storedDefault, hRead, hLookup, hId]
  have hDefault :
      (construct stack answers files).mDefaultModeId =
        modeId := by
    simp only [construct, hStored, setDisplayMode, hLookup,
      Bool.false_eq_true, if_false]
    split_ifs <;> rfl
  have hAdvertised :
      Advertised stack (construct stack answers files)
        modeId := by
    rw [← hDefault]
    exact advertised_iff_lookup.mpr hStart.default
  rw [advertised_congr
    (modeMaxFile_construct stack answers files)]
    at hAdvertised
  exact (not_hidden_iff hHidden.1).mpr hAdvertised hHidden

/-
  Whatever the files hold at the start, only advertised modes
  are ever active if and only if the default file holds none
  of the others and no call requests one.
-/
theorem modes_consistent_iff
    {stack : Int}
    {answers : Answers}
    {files : DisplayModes}
    {es : List DisplayEvent}
    (hSome : getDisplayModes stack files ≠ [])
    (hMode :
      ∃ modeId,
        extract files.modeFile stack = (modeId, false) ∧
        ∃ mode ∈ getDisplayModes stack files,
          mode.1 = modeId) :
    (∀ pre s, pre <+: es →
        (displaySystem stack answers files).run pre =
          some s →
        Consistent stack s) ↔
      StartClear stack files ∧
        (displaySystem stack answers files).Guarded
          (RequestsAdvertised stack)
          (displaySystem stack answers files).init es := by
  have hZero := advertised_zero hSome
  have hCurrent :
      ∃ modeId,
        extract files.modeFile stack = (modeId, false) ∧
          Advertised stack files modeId := by
    rcases hMode with ⟨modeId, hRead, hMem⟩
    exact ⟨modeId, hRead, advertised_iff_mem.mpr hMem⟩
  have hRun :
      ∃ final,
        (displaySystem stack answers files).run es =
          some final := by
    apply EventSystem.exists_runFrom_of_total
    intro s e
    exact ⟨_, rfl⟩
  rcases hRun with ⟨final, hRun⟩
  have hIff :
      StartClear stack files →
      ((∀ pre s, pre <+: es →
          (displaySystem stack answers files).run pre =
            some s →
          Consistent stack s) ↔
        (displaySystem stack answers files).Guarded
          (RequestsAdvertised stack)
          (displaySystem stack answers files).init es) := by
    intro hClear
    have hInit :
        SoundSession stack
          (displaySystem stack answers files).init := by
      refine ⟨?_, ?_⟩
      · exact sound_construct hZero hCurrent hClear answers
      · intro modeId hMem
        cases hMem
    refine (displaySystem stack answers
      files).forall_prefix_iff_guarded ?_ ?_ ?_ hInit hRun
    · intro s hInv
      exact hInv.consistent
    · intro s e s' hInv hStep
      cases hStep
      constructor
      · exact Consistent.guard hInv
      · intro hGuard
        exact (hInv.step hGuard).consistent
    · intro s e s' hInv hGuard hStep
      cases hStep
      exact hInv.step hGuard
  constructor
  · intro hAll
    have hClear : StartClear stack files := by
      apply startClear_of_consistent
      exact hAll [] _ List.nil_prefix rfl
    exact ⟨hClear, (hIff hClear).mp hAll⟩
  · rintro ⟨hClear, hGuard⟩
    exact (hIff hClear).mpr hGuard

/- Three modes are advertised and the second one is set. -/
def threeModes : DisplayModes where
  mDefaultModeId := 0
  modeMaxFile := some ['3']
  modeFile := some ['1']
  defaultFile := none

def allOpen : Answers where
  modeOpens := true
  modeStores := true
  defaultOpens := true
  defaultStores := true

theorem modes_consistent_threeModes :
    ∃ es,
      es = [DisplayEvent.setDisplayMode allOpen 2 true,
        .restart allOpen] ∧
      ∀ pre s, pre <+: es →
        (displaySystem 0 allOpen threeModes).run pre =
          some s →
        Consistent 0 s := by
  refine ⟨_, rfl, ?_⟩
  have hSome : getDisplayModes 0 threeModes ≠ [] := by
    decide
  have hMode :
      ∃ modeId,
        extract threeModes.modeFile 0 = (modeId, false) ∧
        ∃ mode ∈ getDisplayModes 0 threeModes,
          mode.1 = modeId := by
    exact ⟨1, rfl, (1, "Standard"), by decide, rfl⟩
  refine (modes_consistent_iff hSome hMode).mpr ⟨?_, ?_⟩
  · intro modeId hRead
    cases hRead
  · refine ⟨?_, ?_⟩
    · intro hHidden
      exact absurd hHidden (by decide)
    · intro s _
      exact ⟨trivial, fun _ _ => trivial⟩

/- The fourth mode is accepted although it is not advertised. -/
theorem hidden_mode_accepted :
    ∃ s,
      (displaySystem 0 allOpen threeModes).run
          [.setDisplayMode allOpen 4 false] = some s ∧
      getDisplayModes 0 s.service =
        [(0, "Dynamic"), (1, "Standard"), (2, "Natural")] ∧
      4 ∈ s.accepted ∧
      getCurrentDisplayMode 0 s.service =
        some (4, "Adaptive") ∧
      ¬ Consistent 0 s := by
  refine ⟨_, rfl, by decide, by decide, by decide, ?_⟩
  intro hConsistent
  rcases hConsistent.accepted 4 (by decide) with
    ⟨mode, hMem, hId⟩
  revert mode
  decide

end Livedisplay

end Universal7420
