import Universal7420.Camera.ActionSteps

/-
  Callbacks that stay blocked.

  `stop_preview` and `cancel_auto_focus` block the callbacks of
  the HAL and unblock them at their end.  The early return of
  `cancel_auto_focus` leaves them blocked, so that they get
  through between operations exactly in the runs that never
  take it.

  Main declarations:
    * `Universal7420.Camera.operationSystem`
    * `Universal7420.Camera.Unblocked`
    * `Universal7420.Camera.TimeGuardExpired`
    * `Universal7420.Camera.callbacks_unblocked_iff`
-/

------------------------------------------------------------
-- One Operation At A Time
------------------------------------------------------------

namespace Universal7420

namespace Camera

/- The events that begin an operation. -/
def WrapperEvent.begins : WrapperEvent → Bool
| .deviceOpen _ _ | .deviceClose _ | .call _ _ => true
| .advance _ _ _ | .raise _ | .post _ _
| .dequeue | .handle _ => false

/-
  The wrapper with one operation after the other.  The HAL
  threads and the worker act at any time.
-/
def operationSystem :
    EventSystem WrapperState WrapperEvent where
  init := WrapperState.initial
  step := fun s e =>
    if e.begins = true ∧ s.calls ≠ [] then none
    else wrapperStep s e

/-
  Between two operations callbacks are not blocked, and those
  that are raised there get into the queue of a worker.
-/
structure Unblocked (s : WrapperState) : Prop where
  flag : s.calls = [] → s.blockCbs = 0
  queues :
    s.calls = [] →
    s.cbThread.mThread = true →
    ∀ (callback : HalCallback) (now : Int), ∃ s',
      operationSystem.runFrom s
          [.raise callback, .post s.raised.length now] =
        some s' ∧
      s'.cbThread.mQueue =
        s.cbThread.mQueue ++
          [{ serial := s.cbThread.log.pushed.length
             payload := .executeCallback callback.message
             callerTS := now }]

/-
  `cancel_auto_focus` reads its clock after the time guard of
  the last `auto_focus` has expired.
-/
def TimeGuardExpired
    (s : WrapperState) :
    WrapperEvent → Prop
| .advance index now _ =>
    nextAction s index = some .checkTimeGuard →
      s.cancelAFTimeGuard ≤ now
| _ => True

instance decidableTimeGuardExpired
    (s : WrapperState)
    (e : WrapperEvent) :
    Decidable (TimeGuardExpired s e) := by
  unfold TimeGuardExpired
  split
  · infer_instance
  · infer_instance

end Camera

end Universal7420

------------------------------------------------------------
-- Actions
------------------------------------------------------------

namespace Universal7420

namespace Camera

/- The flag after an action. -/
def Action.blockAfter
    (block : Int32) : Action → Int32
| .setBlockCbs value => value
| .clearCallbacks | .setCallbacks _ | .vendorCall _
| .armTimeGuard | .checkTimeGuard | .freeDevice
| .exitThread | .joinThread => block

/- What a single action may do to the flag and to its call. -/
structure ActionEffect
    (s : WrapperState)
    (now : Int)
    (action : Action)
    (s' : WrapperState)
    (flow : Flow) : Prop where
  calls : s'.calls = s.calls
  block : s'.blockCbs = action.blockAfter s.blockCbs
  expired :
    ∀ ret, flow = .continues ret →
      action = .checkTimeGuard →
      s.cancelAFTimeGuard ≤ now
  early :
    ∀ ret, flow = .returns ret →
      (action = .checkTimeGuard ∧
        now < s.cancelAFTimeGuard) ∨
      action = .exitThread

/- An action that goes on and reads no clock. -/
theorem ActionEffect.of_continues
    {s s' : WrapperState}
    {now : Int}
    {action : Action}
    {ret : Option Int32}
    (hCalls : s'.calls = s.calls)
    (hBlock : s'.blockCbs = action.blockAfter s.blockCbs)
    (hAction : action ≠ .checkTimeGuard) :
    ActionEffect s now action s' (.continues ret) := by
  refine ⟨hCalls, hBlock, ?_, ?_⟩
  · intro _ _ hCheck
    exact absurd hCheck hAction
  · intro _ hReturns
    cases hReturns

theorem performAction_effect
    {s s' : WrapperState}
    {call : Call}
    {now : Int}
    {answer : Int32}
    {action : Action}
    {flow : Flow}
    (hStep :
      performAction s call now answer action =
        some (s', flow)) :
    ActionEffect s now action s' flow := by
  cases performAction_cases hStep with
  | guarded hActive =>
      refine ⟨rfl, rfl, ?_, ?_⟩
      · intro _ hContinues
        cases hContinues
      · intro _ _
        exact Or.inl ⟨rfl, hActive⟩
  | expired hExpired =>
      refine ⟨rfl, rfl, ?_, ?_⟩
      · intro _ _ _
        exact hExpired
      · intro _ hReturns
        cases hReturns
  | absent hThread =>
      refine ⟨rfl, rfl, ?_, ?_⟩
      · intro _ hContinues
        cases hContinues
      · intro _ _
        exact Or.inr rfl
  | _ =>
      exact .of_continues rfl rfl (by simp)

end Camera

end Universal7420

------------------------------------------------------------
-- Balanced Operations
------------------------------------------------------------

namespace Universal7420

namespace Camera

/-
  The actions leave the flag at zero.  The time guard is
  checked with the flag set, and a close that finds no worker
  returns with the flag clear.
-/
def Balanced (block : Int32) : List Action → Prop
| [] => block = 0
| action :: rest =>
    (action = .checkTimeGuard → block = 1) ∧
    (action = .exitThread → block = 0) ∧
    Balanced (action.blockAfter block) rest

theorem balanced_forward
    (func : VendorCall) :
    Balanced 0 (forward func) := by
  simp [forward, Balanced, Action.blockAfter]

/- Every operation unblocks what it has blocked. -/
theorem Operation.balanced
    (operation : Operation) :
    Balanced 0 operation.actions := by
  cases operation with
  | setCallbacks notifyCb dataCb timestampCb getMemory user =>
      simp [Operation.actions, camera2SetCallbacks,
        Balanced, Action.blockAfter]
  | stopPreview =>
      simp [Operation.actions, camera2StopPreview,
        Balanced, Action.blockAfter]
  | autoFocus =>
      simp [Operation.actions, camera2AutoFocus,
        Balanced, Action.blockAfter]
  | cancelAutoFocus =>
      simp [Operation.actions, camera2CancelAutoFocus,
        Balanced, Action.blockAfter]
  | getParameters =>
      simp [Operation.actions, camera2GetParameters,
        Balanced, Action.blockAfter]
  | putParameters =>
      rfl
  | _ =>
      exact balanced_forward _

theorem balanced_deviceClose
    (device : Pointer) :
    Balanced 0 (camera2DeviceClose device) := by
  unfold camera2DeviceClose
  split
  · simp [Balanced, Action.blockAfter]
  · simp [Balanced, Action.blockAfter]

/- No operation is in progress, or one that will unblock. -/
inductive Balancing (s : WrapperState) : Prop where
| idle
    (hCalls : s.calls = [])
    (hBlock : s.blockCbs = 0)
| busy
    (call : Call)
    (hCalls : s.calls = [call])
    (hBalanced : Balanced s.blockCbs call.remaining)

theorem balancing_initial :
    Balancing WrapperState.initial :=
  .idle rfl rfl

end Camera

end Universal7420

------------------------------------------------------------
-- Steps
------------------------------------------------------------

namespace Universal7420

namespace Camera

theorem Balancing.of_same
    {s s' : WrapperState}
    (hInv : Balancing s)
    (hCalls : s'.calls = s.calls)
    (hBlock : s'.blockCbs = s.blockCbs) :
    Balancing s' := by
  cases hInv with
  | idle hIdle hZero =>
      exact .idle (hCalls.trans hIdle) (hBlock.trans hZero)
  | busy call hCall hBalanced =>
      rw [← hBlock] at hBalanced
      exact .busy call (hCalls.trans hCall) hBalanced

/- Without a call in progress the flag is clear. -/
theorem Balancing.block_of_idle
    {s : WrapperState}
    (hInv : Balancing s)
    (hIdle : s.calls = []) :
    s.blockCbs = 0 := by
  cases hInv with
  | idle _ hZero =>
      exact hZero
  | busy call hCall _ =>
      rw [hIdle] at hCall
      cases hCall

/- An operation begins where no other is in progress. -/
theorem Balancing.begin
    {s s' : WrapperState}
    {call : Call}
    (hInv : Balancing s)
    (hIdle : s.calls = [])
    (hBalanced : Balanced 0 call.remaining)
    (hCalls : s'.calls = s.calls ++ [call])
    (hBlock : s'.blockCbs = s.blockCbs) :
    Balancing s' := by
  refine .busy call ?_ ?_
  · rw [hCalls, hIdle, List.nil_append]
  · rw [hBlock, hInv.block_of_idle hIdle]
    exact hBalanced

/- A call that is found is the only one, and balanced. -/
theorem Balancing.of_getElem?
    {s : WrapperState}
    {index : Nat}
    {call : Call}
    (hInv : Balancing s)
    (hCall : s.calls[index]? = some call) :
    index = 0 ∧ s.calls = [call] ∧
      Balanced s.blockCbs call.remaining := by
  cases hInv with
  | idle hIdle _ =>
      rw [hIdle] at hCall
      cases hCall
  | busy only hCalls hBalanced =>
      rw [hCalls, List.getElem?_singleton] at hCall
      split at hCall
      · rename_i hIndex
        cases hCall
        exact ⟨hIndex, hCalls, hBalanced⟩
      · cases hCall

theorem camera2DeviceOpen_effect
    {s s' : WrapperState}
    {name : Option String}
    {answers : OpenAnswers}
    (hOpen : camera2DeviceOpen s name answers = some s') :
    s'.calls = s.calls ∧ s'.blockCbs = 0 := by
  unfold camera2DeviceOpen at hOpen
  split at hOpen
  · cases hOpen
  · rcases Option.map_eq_some_iff.mp hOpen with
      ⟨w, _, hState⟩
    rw [← hState]
    cases name with
    | none =>
        exact ⟨rfl, rfl⟩
    | some name =>
        dsimp only
        split
        · exact ⟨rfl, rfl⟩
        · exact ⟨rfl, rfl⟩

/- A call keeps balancing if its time guard has expired. -/
theorem Balancing.advance
    {s s' : WrapperState}
    {index : Nat}
    {now : Int}
    {answer : Int32}
    (hInv : Balancing s)
    (hExpired :
      TimeGuardExpired s (.advance index now answer))
    (hStep : advance s index now answer = some s') :
    Balancing s' := by
  cases advance_cases hStep with
  | returned hCall hDone =>
      rcases hInv.of_getElem? hCall with
        ⟨hIndex, hCalls, hBalanced⟩
      rw [hDone] at hBalanced
      refine .idle ?_ hBalanced
      simp [returnFrom, hCalls, hIndex]
  | continued hCall hNext hAction =>
      rename_i call action rest t ret
      rcases hInv.of_getElem? hCall with
        ⟨hIndex, hCalls, hBalanced⟩
      rw [hNext] at hBalanced
      have hEffect := performAction_effect hAction
      refine .busy
        { call with remaining := rest, ret := ret } ?_ ?_
      · simp [hEffect.calls, hCalls, hIndex]
      · change Balanced t.blockCbs rest
        rw [hEffect.block]
        exact hBalanced.2.2
  | stopped hCall hNext hAction =>
      rename_i call action rest t ret
      rcases hInv.of_getElem? hCall with
        ⟨hIndex, hCalls, hBalanced⟩
      rw [hNext] at hBalanced
      have hEffect := performAction_effect hAction
      rcases hEffect.early ret rfl with
        ⟨hGuard, hActive⟩ | hNoThread
      · have hLate : s.cancelAFTimeGuard ≤ now := by
          apply hExpired
          simp [nextAction, hCall, hNext, hGuard]
        omega
      · refine .idle ?_ ?_
        · simp [returnFrom, hEffect.calls, hCalls, hIndex]
        · change t.blockCbs = 0
          rw [hEffect.block, hNoThread]
          exact hBalanced.2.1 hNoThread

/- Every step with an expired time guard keeps balancing. -/
theorem Balancing.step
    {s s' : WrapperState}
    {e : WrapperEvent}
    (hInv : Balancing s)
    (hExpired : TimeGuardExpired s e)
    (hStep : operationSystem.step s e = some s') :
    Balancing s' := by
  simp only [operationSystem] at hStep
  split at hStep
  · cases hStep
  rename_i hBegins
  have hIdle : e.begins = true → s.calls = [] := by
    intro hEvent
    by_contra hBusy
    exact hBegins ⟨hEvent, hBusy⟩
  cases wrapperStep_transition hStep with
  | opened hOpen =>
      rcases camera2DeviceOpen_effect hOpen with
        ⟨hCalls, hBlock⟩
      exact .idle (hCalls.trans (hIdle rfl)) hBlock
  | closing hLock hDevice =>
      exact hInv.begin (hIdle rfl)
        (balanced_deviceClose _) rfl rfl
  | calling hDevice =>
      exact hInv.begin (hIdle rfl)
        (Operation.balanced _) rfl rfl
  | advanced hAdvance =>
      exact hInv.advance hExpired hAdvance
  | dropped hBlock =>
      exact hInv
  | raised hBlock =>
      exact hInv.of_same rfl rfl
  | posted hMessage hPost =>
      exact hInv.of_same rfl rfl
  | dequeued hWorker =>
      exact hInv.of_same rfl rfl
  | handled hWorker =>
      exact hInv.of_same rfl rfl

end Camera

end Universal7420

------------------------------------------------------------
-- Callbacks Get Through
------------------------------------------------------------

namespace Universal7420

namespace Camera

/- With a worker, a message gets to the end of its queue. -/
theorem postMessage_queued
    {w : WorkerState}
    (hThread : w.mThread = true)
    (payload : Payload)
    (now : Int) :
    ∃ w', postMessage w payload now = some w' ∧
      w'.mQueue =
        w.mQueue ++
          [{ serial := w.log.pushed.length
             payload := payload
             callerTS := now }] := by
  have hCall :
      (w.posting ++ [⟨payload, now⟩])[w.posting.length]? =
        some (⟨payload, now⟩ : Posting) := by
    simp
  unfold postMessage beginPost
  rw [if_pos hThread, Option.bind_some]
  unfold pushMessage
  rw [hCall]
  exact ⟨_, rfl, rfl⟩

theorem Balancing.unblocked
    {s : WrapperState}
    (hInv : Balancing s) :
    Unblocked s where
  flag := hInv.block_of_idle
  queues := by
    intro hIdle hThread callback now
    have hBlock : ¬ s.blockCbs = 1 := by
      rw [hInv.block_of_idle hIdle]
      decide
    let raised : WrapperState :=
      { s with raised := s.raised ++ [callback.message] }
    have hRaise :
        operationSystem.step s (.raise callback) =
          some raised := by
      simp [operationSystem, WrapperEvent.begins,
        wrapperStep, hBlock, raised]
    rcases postMessage_queued hThread
        (.executeCallback callback.message) now with
      ⟨w, hPost, hQueue⟩
    let queued : WrapperState :=
      { s with cbThread := w }
    have hQueued :
        operationSystem.step raised
            (.post s.raised.length now) =
          some queued := by
      simp [operationSystem, WrapperEvent.begins,
        wrapperStep, raised, queued, hPost,
        List.eraseIdx_append_of_length_le]
    refine ⟨queued, ?_, hQueue⟩
    apply operationSystem.runFrom_cons_eq_some_iff.mpr
    refine ⟨raised, hRaise, ?_⟩
    apply operationSystem.runFrom_cons_eq_some_iff.mpr
    exact ⟨queued, hQueued, rfl⟩

/-
  The early return of `cancel_auto_focus` ends the operation
  with the flag set.
-/
theorem Balancing.early_return
    {s s' : WrapperState}
    {index : Nat}
    {now : Int}
    {answer : Int32}
    (hInv : Balancing s)
    (hCheck : nextAction s index = some .checkTimeGuard)
    (hActive : now < s.cancelAFTimeGuard)
    (hStep :
      Camera.advance s index now answer = some s') :
    s'.calls = [] ∧ s'.blockCbs = 1 := by
  rcases Option.bind_eq_some_iff.mp hCheck with
    ⟨call, hCall, hHead⟩
  rcases List.head?_eq_some_iff.mp hHead with
    ⟨rest, hNext⟩
  rcases hInv.of_getElem? hCall with
    ⟨hIndex, hCalls, hBalanced⟩
  rw [hNext] at hBalanced
  have hPositive : s.cancelAFTimeGuard - now > 0 := by
    omega
  have hReturn :
      performAction s call now answer .checkTimeGuard =
        some (s, .returns (some 0)) := by
    simp only [performAction]
    rw [if_pos hPositive]
  simp only [Camera.advance, hCall, hNext, hReturn,
    Option.some.injEq] at hStep
  rw [← hStep]
  constructor
  · simp [returnFrom, hCalls, hIndex]
  · exact hBalanced.1 rfl

/-
  Where an operation is balanced, a step may only lead to an
  unblocked state if it finds its time guard expired.
-/
theorem Balancing.step_unblocked_iff
    {s s' : WrapperState}
    {e : WrapperEvent}
    (hInv : Balancing s)
    (hStep : operationSystem.step s e = some s') :
    Unblocked s' ↔ TimeGuardExpired s e := by
  constructor
  · intro hUnblocked
    cases e with
    | advance index now answer =>
        intro hCheck
        by_contra hActive
        rcases hInv.early_return hCheck
            (by omega) hStep with
          ⟨hCalls, hBlock⟩
        rw [hUnblocked.flag hCalls] at hBlock
        cases hBlock
    | _ =>
        trivial
  · intro hExpired
    exact (hInv.step hExpired hStep).unblocked

/-
  Between the operations of a run callbacks get through, if
  and only if every `cancel_auto_focus` of the run finds the
  time guard expired.
-/
theorem callbacks_unblocked_iff
    {es : List WrapperEvent}
    {final : WrapperState}
    (hRun : operationSystem.run es = some final) :
    (∀ pre s, pre <+: es →
        operationSystem.run pre = some s →
        Unblocked s) ↔
      operationSystem.Guarded TimeGuardExpired
        WrapperState.initial es := by
  refine operationSystem.forall_prefix_iff_guarded
    ?_ ?_ ?_ balancing_initial hRun
  · intro s hInv
    exact hInv.unblocked
  · intro s e s' hInv hStep
    exact hInv.step_unblocked_iff hStep
  · intro s e s' hInv hExpired hStep
    exact hInv.step hExpired hStep

/- A vendor module with two cameras that opens them. -/
def openAnswers : OpenAnswers where
  hwGetModuleByClass := 0
  getNumberOfCameras := 2
  mallocDevice := 8
  openLegacy := 0
  mallocOps := 16

/- `auto_focus` at 1000, and `cancel_auto_focus` after it. -/
def focusRun (cancelled : Int) : List WrapperEvent :=
  [ .deviceOpen (some "0") openAnswers
  , .call 8 .autoFocus
  , .advance 0 1000 0
  , .advance 0 1000 0
  , .advance 0 1000 0
  , .advance 0 1000 0
  , .call 8 .cancelAutoFocus
  , .advance 0 cancelled 0
  , .advance 0 cancelled 0
  , .advance 0 cancelled 0 ]

/- The rest of a `cancel_auto_focus` that calls the vendor. -/
def cancelRest (cancelled : Int) : List WrapperEvent :=
  [ .advance 0 cancelled 0
  , .advance 0 cancelled 0
  , .advance 0 cancelled 0 ]

theorem callbacks_unblocked_expired :
    ∃ final,
      operationSystem.run
          (focusRun 1600 ++ cancelRest 1600) =
        some final ∧
      final.calls = [] ∧
      ∀ pre s, pre <+: focusRun 1600 ++ cancelRest 1600 →
        operationSystem.run pre = some s →
        Unblocked s := by
  refine ⟨_, rfl, rfl, ?_⟩
  apply (callbacks_unblocked_iff rfl).mpr
  decide

/-
  A focus that is cancelled after 100 ms leaves callbacks
  blocked, and the HAL's next one is dropped.
-/
theorem callbacks_left_blocked :
    ∃ s,
      operationSystem.run (focusRun 1100) = some s ∧
      s.calls = [] ∧
      s.blockCbs = 1 ∧
      ¬ Unblocked s ∧
      ∀ callback,
        operationSystem.step s (.raise callback) =
          some s := by
  refine ⟨_, rfl, rfl, rfl, ?_, ?_⟩
  · intro hUnblocked
    have hZero := hUnblocked.flag rfl
    cases hZero
  · intro callback
    rfl

end Camera

end Universal7420
