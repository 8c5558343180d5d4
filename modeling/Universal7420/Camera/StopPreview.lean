import Universal7420.Camera.BlockedCallbacks
import Universal7420.Camera.WrapperWorker

/-
  The silence after `stop_preview`.

  `stop_preview` blocks new callbacks and clears the queue.  A
  HAL thread that has passed the test of `BlockCbs` posts its
  callback all the same, and the worker executes the one it
  has in hand.  A history counts the clears of `stop_preview`
  and remembers for each callback how many there had been when
  the HAL entered the wrapper.

  Main declarations:
    * `Universal7420.Camera.Silence`
    * `Universal7420.Camera.silenceSystem`
    * `Universal7420.Camera.ClearsQuietly`
    * `Universal7420.Camera.stop_preview_silences`
-/

------------------------------------------------------------
-- The History
------------------------------------------------------------

namespace Universal7420

namespace Camera

/-
  `clears` counts the clears of `stop_preview`; `raised` has
  its value at the entry of each callback that waits to be
  posted, and `born` that of a posted message.  `cleared` has
  the number of the clear of each call in progress, `silenced`
  the greatest one of a `stop_preview` that has returned, and
  `late` the callbacks that were entered before it and are
  executed nevertheless.
-/
structure Silence where
  clears : Nat
  raised : List Nat
  born : Nat → Nat
  cleared : List (Option Nat)
  silenced : Nat
  late : List ThreadMsg

def Silence.initial : Silence where
  clears := 0
  raised := []
  born := fun _ => 0
  cleared := []
  silenced := 0
  late := []

/- The next action of a call is the clear of `stop_preview`. -/
def stopPreviewClears
    (s : WrapperState)
    (index : Nat) : Bool :=
  match s.calls[index]? with
  | some call => call.remaining = camera2StopPreview.tail
  | none => false

/- The next step of a call is its return. -/
def callReturns
    (s : WrapperState)
    (index : Nat)
    (now : Int)
    (answer : Int32) : Bool :=
  match s.calls[index]? with
  | some call =>
      match call.remaining with
      | [] => true
      | action :: _ =>
          match performAction s call now answer action with
          | some (_, .returns _) => true
          | _ => false
  | none => false

/- The history after a step. -/
def Silence.record
    (g : Silence)
    (s : WrapperState) :
    WrapperEvent → Silence
| .deviceOpen _ _ | .dequeue => g
| .deviceClose _ | .call _ _ =>
    { g with cleared := g.cleared ++ [none] }
| .advance index now answer =>
    if stopPreviewClears s index then
      { g with
        clears := g.clears + 1
        cleared := g.cleared.set index (some (g.clears + 1)) }
    else if callReturns s index now answer then
      { g with
        cleared := g.cleared.eraseIdx index
        silenced :=
          max g.silenced (g.cleared[index]?.join.getD 0) }
    else
      g
| .raise _ =>
    if s.blockCbs = 1 then g
    else { g with raised := g.raised ++ [g.clears] }
| .post index _ =>
    { g with
      raised := g.raised.eraseIdx index
      born := fun serial =>
        if serial = s.cbThread.log.pushed.length then
          g.raised[index]?.getD 0
        else
          g.born serial }
| .handle now =>
    match calledMessage s.cbThread now with
    | some (msg, _) =>
        if g.born msg.serial < g.silenced then
          { g with late := g.late ++ [msg] }
        else
          g
    | none => g

/- Any number of operations at a time, with the history. -/
def silenceSystem :
    EventSystem (WrapperState × Silence) WrapperEvent :=
  wrapperSystem.withGhost Silence.initial Silence.record

/- A message that brings a callback. -/
def ThreadMsg.isCallback (msg : ThreadMsg) : Bool :=
  match msg.payload with
  | .executeCallback _ => true
  | _ => false

/-
  When `stop_preview` clears the queue, no HAL thread is
  between its test and its post, and the worker has no callback
  in hand.
-/
def ClearsQuietly
    (s : WrapperState × Silence) :
    WrapperEvent → Prop
| .advance index _ _ =>
    stopPreviewClears s.1 index = true →
      s.1.raised = [] ∧
        ∀ msg ∈ s.1.cbThread.phase.hand,
          msg.isCallback = false
| _ => True

instance decidableClearsQuietly
    (s : WrapperState × Silence) :
    (e : WrapperEvent) → Decidable (ClearsQuietly s e)
| .advance index _ _ =>
    inferInstanceAs (Decidable
      (stopPreviewClears s.1 index = true →
        s.1.raised = [] ∧
          ∀ msg ∈ s.1.cbThread.phase.hand,
            msg.isCallback = false))
| .deviceOpen _ _ | .deviceClose _ | .call _ _ | .raise _
| .post _ _ | .dequeue | .handle _ => isTrue trivial

end Camera

end Universal7420

------------------------------------------------------------
-- The Invariant
------------------------------------------------------------

namespace Universal7420

namespace Camera

/-
  Every callback on its way was entered after the last clear
  of `stop_preview`.
-/
structure Silent (s : WrapperState × Silence) : Prop where
  discipline : Discipline s.1.cbThread
  tracked : s.2.raised.length = s.1.raised.length
  raised : ∀ entered ∈ s.2.raised, s.2.clears ≤ entered
  queued :
    ∀ msg ∈ pending s.1.cbThread,
      msg.isCallback = true →
        s.2.clears ≤ s.2.born msg.serial
  numbered : ∀ n, some n ∈ s.2.cleared → n ≤ s.2.clears
  silenced : s.2.silenced ≤ s.2.clears
  late : s.2.late = []

theorem silent_initial :
    Silent (WrapperState.initial, Silence.initial) where
  discipline := discipline_initial
  tracked := rfl
  raised := by
    intro entered hMem
    cases hMem
  queued := by
    intro msg hMem
    cases hMem
  numbered := by
    intro n hMem
    cases hMem
  silenced := Nat.le_refl 0
  late := rfl

/- The serial of a pending message has been used. -/
theorem Discipline.serial_lt
    {w : WorkerState}
    (hInv : Discipline w)
    {msg : ThreadMsg}
    (hMem : msg ∈ pending w) :
    msg.serial < w.log.pushed.length := by
  have hPushed : msg ∈ w.log.pushed :=
    hInv.ordered.subset (List.mem_append_right _ hMem)
  have hSerial := List.mem_map_of_mem
    (f := ThreadMsg.serial) hPushed
  rw [hInv.serials] at hSerial
  exact List.mem_range.mp hSerial

/-
  A step that brings no callback and leaves the numbers alone
  keeps the silence.
-/
theorem Silent.of_fewer
    {s s' : WrapperState}
    {g : Silence}
    (hInv : Silent (s, g))
    (hDiscipline : Discipline s'.cbThread)
    (hRaised : s'.raised = s.raised)
    (hFewer :
      ∀ msg ∈ pending s'.cbThread,
        msg.isCallback = true →
          msg ∈ pending s.cbThread) :
    Silent (s', g) where
  discipline := hDiscipline
  tracked := by
    rw [hInv.tracked, hRaised]
  raised := hInv.raised
  queued := by
    intro msg hMem hCallback
    exact hInv.queued msg (hFewer msg hMem hCallback)
      hCallback
  numbered := hInv.numbered
  silenced := hInv.silenced
  late := hInv.late

/- An action never brings a callback. -/
theorem WorkerEffect.callbacks
    {w w' : WorkerState}
    {action : Action}
    (hEffect : WorkerEffect w action w') :
    ∀ msg ∈ pending w',
      msg.isCallback = true → msg ∈ pending w := by
  have hPush :
      ∀ payload now,
        (∀ data, payload ≠ .executeCallback data) →
        ∀ msg ∈ pending (enqueue w payload now),
          msg.isCallback = true → msg ∈ pending w := by
    intro payload now hOther msg hMem hCallback
    rw [pending_enqueue] at hMem
    rcases List.mem_append.mp hMem with hOld | hNew
    · exact hOld
    · rw [List.mem_singleton.mp hNew] at hCallback
      cases payload with
      | executeCallback data => exact absurd rfl (hOther data)
      | exitThread => cases hCallback
      | updateCallbacks data => cases hCallback
  cases hEffect with
  | kept hClear hUpdate =>
      intro msg hMem _
      exact hMem
  | cleared hThread =>
      intro msg hMem _
      rw [pending_discardQueue] at hMem
      exact List.mem_append_left _ hMem
  | updated hThread =>
      exact hPush _ _ (by simp)
  | exiting hThread =>
      exact hPush _ _ (by simp)
  | joined hJoining =>
      intro msg hMem _
      exact hMem

theorem advance_callbacks
    {s s' : WrapperState}
    {index : Nat}
    {now : Int}
    {answer : Int32}
    (hStep : advance s index now answer = some s') :
    ∀ msg ∈ pending s'.cbThread,
      msg.isCallback = true → msg ∈ pending s.cbThread := by
  rcases (advance_worker_effect hStep).2 with
    ⟨_, hSame⟩ | ⟨_, _, hEffect⟩
  · rw [hSame]
    intro msg hMem _
    exact hMem
  · exact hEffect.callbacks

/- The clear of `stop_preview` leaves the message in hand. -/
theorem advance_stopPreviewClears
    {s s' : WrapperState}
    {index : Nat}
    {now : Int}
    {answer : Int32}
    (hStep : advance s index now answer = some s')
    (hClears : stopPreviewClears s index = true) :
    pending s'.cbThread = s.cbThread.phase.hand := by
  have hNext : nextAction s index = some .clearCallbacks := by
    unfold stopPreviewClears at hClears
    split at hClears
    · rename_i call hCall
      have hRemaining :
          call.remaining = camera2StopPreview.tail := by
        simpa using hClears
      simp [nextAction, hCall, hRemaining,
        camera2StopPreview]
    · cases hClears
  rcases (advance_worker_effect hStep).2 with
    ⟨hNone, _⟩ | ⟨action, hAction, hEffect⟩
  · rw [hNext] at hNone
    cases hNone
  · rw [hNext] at hAction
    cases hAction
    rw [hEffect.of_clear, pending_discardQueue]

end Camera

end Universal7420

------------------------------------------------------------
-- Steps
------------------------------------------------------------

namespace Universal7420

namespace Camera

/- A call clears, returns, or goes on. -/
theorem Silent.advance
    {s s' : WrapperState}
    {g : Silence}
    {index : Nat}
    {now : Int}
    {answer : Int32}
    (hInv : Silent (s, g))
    (hQuietly :
      ClearsQuietly (s, g) (.advance index now answer))
    (hDiscipline : Discipline s'.cbThread)
    (hStep : Camera.advance s index now answer = some s') :
    Silent
      (s', g.record s (.advance index now answer)) := by
  have hRaised := (advance_worker_effect hStep).1
  simp only [Silence.record]
  by_cases hClears : stopPreviewClears s index = true
  · rw [if_pos hClears]
    rcases hQuietly hClears with ⟨hNone, hHand⟩
    have hEmpty : g.raised = [] := by
      apply List.eq_nil_of_length_eq_zero
      rw [hInv.tracked, hNone]
      rfl
    refine ⟨hDiscipline, ?_, ?_, ?_, ?_, ?_, hInv.late⟩
    · rw [hRaised]
      exact hInv.tracked
    · intro entered hMem
      rw [hEmpty] at hMem
      cases hMem
    · intro msg hMem hCallback
      rw [advance_stopPreviewClears hStep hClears] at hMem
      rw [hHand msg hMem] at hCallback
      cases hCallback
    · intro n hMem
      rcases List.mem_or_eq_of_mem_set hMem with hOld | hNew
      · exact Nat.le_succ_of_le (hInv.numbered n hOld)
      · cases hNew
        exact Nat.le_refl _
    · exact Nat.le_succ_of_le hInv.silenced
  · rw [if_neg hClears]
    have hKept : Silent (s', g) :=
      hInv.of_fewer hDiscipline hRaised
        (advance_callbacks hStep)
    split
    · refine ⟨hDiscipline, hKept.tracked, hKept.raised,
        hKept.queued, ?_, ?_, hKept.late⟩
      · intro n hMem
        exact hInv.numbered n (List.mem_of_mem_eraseIdx hMem)
      · apply Nat.max_le.mpr
        refine ⟨hInv.silenced, ?_⟩
        cases hFound : g.cleared[index]? with
        | none =>
            exact Nat.zero_le _
        | some number =>
            cases number with
            | none =>
                exact Nat.zero_le _
            | some n =>
                exact hInv.numbered n
                  (List.mem_of_getElem? hFound)
    · exact hKept

/- A posted callback keeps the number of its entry. -/
theorem Silent.post
    {s : WrapperState}
    {g : Silence}
    {index : Nat}
    {now : Int}
    {message : WorkerMessage}
    (hInv : Silent (s, g))
    (hMessage : s.raised[index]? = some message)
    (hDiscipline :
      Discipline
        (enqueue s.cbThread (.executeCallback message) now)) :
    Silent
      ({ s with
          cbThread :=
            enqueue s.cbThread (.executeCallback message) now
          raised := s.raised.eraseIdx index },
        g.record s (.post index now)) := by
  rcases List.getElem?_eq_some_iff.mp hMessage with
    ⟨hIndex, _⟩
  rw [← hInv.tracked] at hIndex
  have hEntered :
      g.clears ≤ g.raised[index]?.getD 0 := by
    rw [List.getElem?_eq_getElem hIndex]
    exact hInv.raised _ (List.getElem_mem hIndex)
  refine ⟨hDiscipline, ?_, ?_, ?_, hInv.numbered,
    hInv.silenced, hInv.late⟩
  · simp only [Silence.record, List.length_eraseIdx,
      hInv.tracked]
  · intro entered hMem
    exact hInv.raised entered (List.mem_of_mem_eraseIdx hMem)
  · intro msg hMem hCallback
    simp only [Silence.record]
    rw [pending_enqueue] at hMem
    rcases List.mem_append.mp hMem with hOld | hNew
    · have hSerial := hInv.discipline.serial_lt hOld
      rw [if_neg (Nat.ne_of_lt hSerial)]
      exact hInv.queued msg hOld hCallback
    · rw [List.mem_singleton.mp hNew, if_pos rfl]
      exact hEntered

/- The worker executes nothing that has been silenced. -/
theorem Silent.handle
    {s : WrapperState}
    {g : Silence}
    {msg : ThreadMsg}
    (hInv : Silent (s, g))
    (hPhase : s.cbThread.phase = .holding msg)
    (now : Int)
    (hDiscipline :
      Discipline (handleMessage s.cbThread msg now)) :
    Silent
      ({ s with
          cbThread := handleMessage s.cbThread msg now },
        g.record s (.handle now)) := by
  have hKept :
      Silent
        ({ s with
            cbThread := handleMessage s.cbThread msg now },
          g) := by
    refine hInv.of_fewer hDiscipline rfl ?_
    intro other hMem _
    rcases pending_handleMessage hPhase now with
      ⟨hPending, hRest, _⟩
    rw [hPending]
    rcases hRest with ⟨hQueue, _⟩ | hNone
    · rw [hQueue] at hMem
      exact List.mem_cons_of_mem _ hMem
    · rw [hNone] at hMem
      cases hMem
  simp only [Silence.record]
  split
  · rename_i called call hCalled
    rcases calledMessage_eq_some hCalled with
      ⟨hHeld, data, hPayload, _⟩
    have hMem : called ∈ pending s.cbThread := by
      rw [pending, hHeld]
      exact List.mem_append_left _ (List.mem_singleton_self _)
    have hBorn :=
      hInv.queued called hMem (by
        simp [ThreadMsg.isCallback, hPayload])
    rw [if_neg]
    · exact hKept
    · exact Nat.not_lt.mpr
        (Nat.le_trans hInv.silenced hBorn)
  · exact hKept

/- A worker is created without a message. -/
theorem pending_createThread
    {w w' : WorkerState}
    (hInv : Discipline w)
    (hStep : workerStep w .createThread = some w') :
    pending w' = pending w := by
  cases workerStep_transition hStep with
  | present hThread =>
      rfl
  | created hThread =>
      rw [pending, pending, hInv.idle hThread]
      rfl
  | posting hThread hCall =>
      cases hCall

/- Every step that clears quietly keeps the silence. -/
theorem Silent.step
    {s s' : WrapperState × Silence}
    {e : WrapperEvent}
    (hInv : Silent s)
    (hQuietly : ClearsQuietly s e)
    (hStep : silenceSystem.step s e = some s') :
    Silent s' := by
  rcases s with ⟨s, g⟩
  rcases s' with ⟨s', g'⟩
  rcases EventSystem.withGhost_step_eq_some_iff _ |>.mp hStep
    with ⟨hWrapper, rfl⟩
  have hDiscipline : Discipline s'.cbThread :=
    hInv.discipline.of_reaches (wrapperStep_worker hWrapper)
  have hSame :
      s'.raised = s.raised →
      pending s'.cbThread = pending s.cbThread →
      Silent (s', g) := by
    intro hRaised hPending
    refine hInv.of_fewer hDiscipline hRaised ?_
    intro msg hMem _
    rw [← hPending]
    exact hMem
  have hBegun :
      s'.raised = s.raised →
      pending s'.cbThread = pending s.cbThread →
      Silent
        (s', { g with cleared := g.cleared ++ [none] }) := by
    intro hRaised hPending
    have hKept := hSame hRaised hPending
    refine ⟨hDiscipline, hKept.tracked, hKept.raised,
      hKept.queued, ?_, hKept.silenced, hKept.late⟩
    intro n hMem
    rcases List.mem_append.mp hMem with hOld | hNew
    · exact hInv.numbered n hOld
    · cases List.mem_singleton.mp hNew
  cases wrapperStep_transition hWrapper with
  | opened hOpen =>
      rcases camera2DeviceOpen_creates hOpen with
        ⟨hCreate, hRaised, _⟩
      exact hSame hRaised
        (pending_createThread hInv.discipline hCreate)
  | closing hLock hDevice =>
      exact hBegun rfl rfl
  | calling hDevice =>
      exact hBegun rfl rfl
  | advanced hAdvance =>
      exact hInv.advance hQuietly hDiscipline hAdvance
  | dropped hBlock =>
      simp only [Silence.record, if_pos hBlock]
      exact hInv
  | raised hBlock =>
      simp only [Silence.record, if_neg hBlock]
      refine ⟨hDiscipline, ?_, ?_, hInv.queued,
        hInv.numbered, hInv.silenced, hInv.late⟩
      · simp [hInv.tracked]
      · intro entered hMem
        rcases List.mem_append.mp hMem with hOld | hNew
        · exact hInv.raised entered hOld
        · exact Nat.le_of_eq (List.mem_singleton.mp hNew).symm
  | posted hMessage hPost =>
      rcases postMessage_eq_some hPost with ⟨_, rfl⟩
      exact hInv.post hMessage hDiscipline
  | dequeued hWorker =>
      exact hSame rfl (pending_dequeue hWorker).1
  | handled hWorker =>
      cases workerStep_transition hWorker with
      | posting hThread hCall =>
          cases hCall
      | handled hPhase =>
          exact hInv.handle hPhase _ hDiscipline

/-
  In every run in which each `stop_preview` clears quietly, no
  callback that was entered before the clear is executed after
  its return.
-/
theorem stop_preview_silences
    {es : List WrapperEvent}
    {s : WrapperState × Silence}
    (hQuietly :
      silenceSystem.Guarded ClearsQuietly
        silenceSystem.init es)
    (hRun : silenceSystem.run es = some s) :
    s.2.late = [] := by
  have hStep :
      ∀ t e t', Silent t → ClearsQuietly t e →
        silenceSystem.step t e = some t' → Silent t' := by
    intro t e t' hInv hGuard hNext
    exact hInv.step hGuard hNext
  have hEnd : Silent s :=
    silenceSystem.invariant_of_guarded hStep silent_initial
      hQuietly hRun
  exact hEnd.late

/- A notification of the HAL. -/
def focusCallback : HalCallback :=
  .notify 4 1 0 100

/- A camera with registered functions. -/
def registeredRun : List WrapperEvent :=
  [ .deviceOpen (some "0") openAnswers
  , .call 8 (.setCallbacks 41 42 43 44 100)
  , .advance 0 0 0
  , .advance 0 0 0
  , .advance 0 0 0
  , .dequeue
  , .handle 0 ]

/- The steps of `stop_preview` from its begin to its return. -/
def stopPreviewRun : List WrapperEvent :=
  [ .call 8 .stopPreview
  , .advance 0 0 0
  , .advance 0 0 0
  , .advance 0 0 0
  , .advance 0 0 0
  , .advance 0 0 0 ]

/- A callback in the queue is silenced, and a later one not. -/
def quietRun : List WrapperEvent :=
  registeredRun ++
    [.raise focusCallback, .post 0 0] ++
    stopPreviewRun ++
    [.raise focusCallback, .post 0 0, .dequeue, .handle 0]

theorem stop_preview_silences_quietRun :
    ∃ s,
      silenceSystem.run quietRun = some s ∧
      s.2.silenced = 1 ∧
      s.1.cbThread.log.executed = [.notify 41 4 1 0 100] ∧
      s.2.late = [] := by
  have hQuietly :
      silenceSystem.Guarded ClearsQuietly
        silenceSystem.init quietRun := by
    decide
  exact ⟨_, rfl, rfl, rfl,
    stop_preview_silences hQuietly rfl⟩

/-
  A HAL thread passes its test before `stop_preview` begins
  and posts after its return: the callback is executed.
-/
theorem stop_preview_not_silent :
    ∃ s,
      silenceSystem.run
          (registeredRun ++
            [.raise focusCallback] ++
            stopPreviewRun ++
            [.post 0 0, .dequeue, .handle 0]) = some s ∧
      s.1.calls = [] ∧
      s.1.cbThread.log.executed = [.notify 41 4 1 0 100] ∧
      s.2.late ≠ [] := by
  refine ⟨_, rfl, rfl, rfl, ?_⟩
  intro hLate
  cases hLate

end Camera

end Universal7420
