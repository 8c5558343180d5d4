import Universal7420.Camera.ActionSteps
import Universal7420.Camera.BlockedCallbacks

/-
  The lifetime of the worker.

  All devices share one worker.  `camera2_device_open` creates
  it before it has checked anything, and `camera2_device_close`
  stops it whatever else is open.  Between two operations there
  is a worker exactly when there is a device, if and only if no
  open fails without a device and every close closes the last.

  Main declarations:
    * `Universal7420.Camera.OpensDevice`
    * `Universal7420.Camera.KeepsWorker`
    * `Universal7420.Camera.outlook`
    * `Universal7420.Camera.worker_while_open_iff`
-/

------------------------------------------------------------
-- Workers And Devices
------------------------------------------------------------

namespace Universal7420

namespace Camera

/- There is a worker exactly while a device is open. -/
def WorkerWhileOpen (s : WrapperState) : Prop :=
  s.cbThread.mThread = true ↔ s.devices ≠ []

/- The camera can be opened. -/
def OpensDevice
    (s : WrapperState)
    (answers : OpenAnswers) :
    Option String → Prop
| none => False
| some name =>
    (s.gVendorModule = true ∨
      answers.hwGetModuleByClass = 0) ∧
    CText.atoi name ≤ answers.getNumberOfCameras ∧
    answers.mallocDevice ≠ 0 ∧
    answers.openLegacy = 0 ∧
    answers.mallocOps ≠ 0

instance decidableOpensDevice
    (s : WrapperState)
    (answers : OpenAnswers)
    (name : Option String) :
    Decidable (OpensDevice s answers name) := by
  unfold OpensDevice
  split <;> infer_instance

/-
  A camera is opened if it can be or if another one is open,
  and a close leaves no device.
-/
def KeepsWorker
    (s : WrapperState) :
    WrapperEvent → Prop
| .deviceOpen name answers =>
    OpensDevice s answers name ∨ s.devices ≠ []
| .deviceClose device => s.devices.erase device = []
| _ => True

instance decidableKeepsWorker
    (s : WrapperState)
    (e : WrapperEvent) :
    Decidable (KeepsWorker s e) := by
  unfold KeepsWorker
  split <;> infer_instance

end Camera

end Universal7420

------------------------------------------------------------
-- Outlook
------------------------------------------------------------

namespace Universal7420

namespace Camera

/- The worker and the devices after an action. -/
def Action.outlook
    (device : Pointer)
    (view : Bool × List Pointer) :
    Action → Bool × List Pointer
| .freeDevice => (view.1, view.2.erase device)
| .joinThread => (false, view.2)
| .setBlockCbs _ | .clearCallbacks | .setCallbacks _
| .vendorCall _ | .armTimeGuard | .checkTimeGuard
| .exitThread => view

/- The same after everything that a call has still to do. -/
def Call.outlook
    (view : Bool × List Pointer)
    (call : Call) : Bool × List Pointer :=
  call.remaining.foldl (Action.outlook call.device) view

/- The worker and the devices when all calls have returned. -/
def outlook (s : WrapperState) : Bool × List Pointer :=
  s.calls.foldl Call.outlook (s.cbThread.mThread, s.devices)

/- Between operations the outlook is what there is. -/
theorem outlook_of_idle
    {s : WrapperState}
    (hIdle : s.calls = []) :
    outlook s = (s.cbThread.mThread, s.devices) := by
  rw [outlook, hIdle]
  rfl

/- Within an operation it is what the operation will leave. -/
theorem outlook_of_only
    {s : WrapperState}
    {call : Call}
    (hCalls : s.calls = [call]) :
    outlook s =
      call.outlook (s.cbThread.mThread, s.devices) := by
  rw [outlook, hCalls]
  rfl

/- What is left to do frees no device and joins no worker. -/
def Harmless (actions : List Action) : Prop :=
  ∀ action ∈ actions,
    action ≠ .freeDevice ∧ action ≠ .joinThread

/- A call that returns early leaves nothing of this undone. -/
def EndsEarly : List Action → Prop
| [] => True
| action :: rest =>
    (action = .checkTimeGuard → Harmless rest) ∧
    (action = .exitThread → rest = [.joinThread]) ∧
    EndsEarly rest

theorem Harmless.tail
    {action : Action}
    {rest : List Action}
    (hHarmless : Harmless (action :: rest)) :
    Harmless rest := by
  intro other hMem
  exact hHarmless other (List.mem_cons_of_mem _ hMem)

theorem Harmless.outlook
    {actions : List Action}
    (hHarmless : Harmless actions)
    (device : Pointer)
    (view : Bool × List Pointer) :
    actions.foldl (Action.outlook device) view = view := by
  induction actions with
  | nil =>
      rfl
  | cons action rest ih =>
      have hFirst :
          action.outlook device view = view := by
        rcases hHarmless action (by simp) with
          ⟨hFree, hJoin⟩
        cases action with
        | freeDevice => exact absurd rfl hFree
        | joinThread => exact absurd rfl hJoin
        | _ => rfl
      rw [List.foldl_cons, hFirst]
      exact ih hHarmless.tail

/- No operation of a device ends the worker. -/
theorem Operation.actions_keep
    (operation : Operation) :
    ∀ action ∈ operation.actions,
      action ≠ .freeDevice ∧ action ≠ .joinThread ∧
        action ≠ .exitThread := by
  cases operation with
  | setCallbacks notifyCb dataCb timestampCb getMemory user =>
      simp [Operation.actions, camera2SetCallbacks]
  | stopPreview =>
      simp [Operation.actions, camera2StopPreview]
  | autoFocus =>
      simp [Operation.actions, camera2AutoFocus]
  | cancelAutoFocus =>
      simp [Operation.actions, camera2CancelAutoFocus]
  | getParameters =>
      simp [Operation.actions, camera2GetParameters]
  | _ =>
      simp [Operation.actions, forward]

theorem Operation.harmless
    (operation : Operation) :
    Harmless operation.actions := by
  intro action hMem
  rcases operation.actions_keep action hMem with
    ⟨hFree, hJoin, _⟩
  exact ⟨hFree, hJoin⟩

theorem EndsEarly.of_harmless
    {actions : List Action}
    (hHarmless : Harmless actions)
    (hExit : Action.exitThread ∉ actions) :
    EndsEarly actions := by
  induction actions with
  | nil =>
      trivial
  | cons action rest ih =>
      rw [List.mem_cons, not_or] at hExit
      have hRest := hHarmless.tail
      refine ⟨fun _ => hRest, ?_, ih hRest hExit.2⟩
      intro hAction
      exact absurd hAction.symm hExit.1

theorem Operation.endsEarly
    (operation : Operation) :
    EndsEarly operation.actions := by
  refine .of_harmless operation.harmless ?_
  intro hMem
  exact (operation.actions_keep _ hMem).2.2 rfl

theorem endsEarly_deviceClose
    (device : Pointer) :
    EndsEarly (camera2DeviceClose device) := by
  unfold camera2DeviceClose
  split
  · simp [EndsEarly]
  · simp [EndsEarly]

end Camera

end Universal7420

------------------------------------------------------------
-- Actions
------------------------------------------------------------

namespace Universal7420

namespace Camera

theorem postMessage_mThread
    {w w' : WorkerState}
    {payload : Payload}
    {now : Int}
    (hPost : postMessage w payload now = some w') :
    w'.mThread = w.mThread := by
  rw [(postMessage_eq_some hPost).2]
  rfl

theorem clearMessages_mThread
    {w w' : WorkerState}
    (hClear : clearMessages w = some w') :
    w'.mThread = w.mThread := by
  rw [(clearMessages_eq_some hClear).2]
  rfl

theorem handleMessage_mThread
    (w : WorkerState)
    (msg : ThreadMsg)
    (now : Int) :
    (handleMessage w msg now).mThread = w.mThread := by
  unfold handleMessage
  split
  · unfold executeCallback
    split
    · rfl
    · rfl
  · rfl
  · rfl

/- An action does what its outlook says, or returns. -/
theorem performAction_outlook
    {s s' : WrapperState}
    {call : Call}
    {now : Int}
    {answer : Int32}
    {action : Action}
    {flow : Flow}
    (hStep :
      performAction s call now answer action =
        some (s', flow)) :
    (s'.cbThread.mThread, s'.devices) =
      action.outlook call.device
        (s.cbThread.mThread, s.devices) := by
  cases performAction_cases hStep with
  | cleared hClear =>
      rename_i w
      change (w.mThread, s.devices) = _
      rw [clearMessages_mThread hClear]
      rfl
  | updated hPost =>
      rename_i w
      change (w.mThread, s.devices) = _
      rw [postMessage_mThread hPost]
      rfl
  | exiting hPost =>
      rename_i w
      change (w.mThread, s.devices) = _
      rw [postMessage_mThread hPost]
      rfl
  | joined hJoin =>
      cases workerStep_transition hJoin with
      | posting hThread hCall =>
          cases hCall
      | joined hJoining hPhase =>
          rfl
  | _ =>
      rfl

/- An early return finds no worker or only checks the clock. -/
theorem performAction_returns
    {s s' : WrapperState}
    {call : Call}
    {now : Int}
    {answer : Int32}
    {action : Action}
    {ret : Option Int32}
    (hStep :
      performAction s call now answer action =
        some (s', .returns ret)) :
    action = .checkTimeGuard ∨
      (action = .exitThread ∧ s.cbThread.mThread = false) := by
  cases performAction_cases hStep with
  | guarded hActive =>
      exact Or.inl rfl
  | absent hThread =>
      exact Or.inr ⟨rfl, hThread⟩

end Camera

end Universal7420

------------------------------------------------------------
-- Steps
------------------------------------------------------------

namespace Universal7420

namespace Camera

/- One call at most, which may return early. -/
structure Orderly (s : WrapperState) : Prop where
  nonzero : 0 ∉ s.devices
  calls :
    s.calls = [] ∨
      ∃ call, s.calls = [call] ∧ EndsEarly call.remaining

theorem orderly_initial :
    Orderly WrapperState.initial where
  nonzero := by
    intro hMem
    cases hMem
  calls := Or.inl rfl

/- A call that is found is the only one. -/
theorem Orderly.of_getElem?
    {s : WrapperState}
    {index : Nat}
    {call : Call}
    (hInv : Orderly s)
    (hCall : s.calls[index]? = some call) :
    index = 0 ∧ s.calls = [call] ∧
      EndsEarly call.remaining := by
  rcases hInv.calls with hIdle | ⟨only, hCalls, hEnds⟩
  · rw [hIdle] at hCall
    cases hCall
  · rw [hCalls, List.getElem?_singleton] at hCall
    split at hCall
    · rename_i hIndex
      cases hCall
      exact ⟨hIndex, hCalls, hEnds⟩
    · cases hCall

theorem Orderly.of_same
    {s s' : WrapperState}
    (hInv : Orderly s)
    (hCalls : s'.calls = s.calls)
    (hDevices : s'.devices = s.devices) :
    Orderly s' := by
  refine ⟨?_, ?_⟩
  · rw [hDevices]
    exact hInv.nonzero
  · rw [hCalls]
    exact hInv.calls

/- The checks that a device must pass. -/
theorem openVendorDevice_device
    (name : String)
    (answers : OpenAnswers) :
    (openVendorDevice name answers).2.toList =
      if CText.atoi name ≤ answers.getNumberOfCameras ∧
          answers.mallocDevice ≠ 0 ∧
          answers.openLegacy = 0 ∧
          answers.mallocOps ≠ 0
      then [answers.mallocDevice] else [] := by
  unfold openVendorDevice
  by_cases hRange :
      CText.atoi name > answers.getNumberOfCameras
  · rw [if_pos hRange, if_neg]
    · rfl
    · intro hAll
      exact Int32.not_le.mpr hRange hAll.1
  · have hInRange := Int32.not_lt.mp hRange
    rw [if_neg hRange]
    simp only [hInRange, true_and]
    split_ifs <;> simp_all

/- An open always leaves a worker behind. -/
theorem camera2DeviceOpen_mThread
    {s s' : WrapperState}
    {name : Option String}
    {answers : OpenAnswers}
    (hOpen : camera2DeviceOpen s name answers = some s') :
    s'.cbThread.mThread = true := by
  have hCreate := (camera2DeviceOpen_creates hOpen).1
  generalize s'.cbThread = w at hCreate
  cases workerStep_transition hCreate with
  | present hThread =>
      exact hThread
  | created hThread =>
      rfl
  | posting hThread hCall =>
      cases hCall

/- It leaves a device behind if the camera can be opened. -/
theorem camera2DeviceOpen_devices
    {s s' : WrapperState}
    {name : Option String}
    {answers : OpenAnswers}
    (hOpen : camera2DeviceOpen s name answers = some s') :
    s'.devices = s.devices ++
      (if OpensDevice s answers name then
        [answers.mallocDevice] else []) := by
  unfold camera2DeviceOpen at hOpen
  split at hOpen
  · cases hOpen
  · rcases Option.map_eq_some_iff.mp hOpen with
      ⟨w, _, hState⟩
    rw [← hState]
    cases name with
    | none =>
        simp [OpensDevice]
    | some name =>
        dsimp only
        split
        · rename_i hModule
          have hRefused :
              ¬ OpensDevice s answers (some name) := by
            intro hOpens
            rcases hOpens.1 with hLoaded | hFound
            · exact hModule.1 hLoaded
            · exact hModule.2 hFound
          rw [if_neg hRefused, List.append_nil]
        · rename_i hModule
          change s.devices ++
            (openVendorDevice name answers).2.toList = _
          congr 1
          have hLoaded :
              s.gVendorModule = true ∨
                answers.hwGetModuleByClass = 0 := by
            by_contra hNone
            rw [not_or] at hNone
            exact hModule hNone
          rw [openVendorDevice_device]
          simp only [OpensDevice, hLoaded, true_and]

/- The device that is opened is not the null pointer. -/
theorem Orderly.opened
    {s s' : WrapperState}
    {name : Option String}
    {answers : OpenAnswers}
    (hInv : Orderly s)
    (hOpen : camera2DeviceOpen s name answers = some s') :
    Orderly s' := by
  refine ⟨?_, ?_⟩
  · rw [camera2DeviceOpen_devices hOpen, List.mem_append,
      not_or]
    refine ⟨hInv.nonzero, ?_⟩
    split
    · rename_i hOpens
      intro hMem
      cases name with
      | none =>
          exact hOpens
      | some name =>
          exact hOpens.2.2.1 (List.mem_singleton.mp hMem).symm
    · intro hMem
      cases hMem
  · rw [(camera2DeviceOpen_effect hOpen).1]
    exact hInv.calls

/- Devices are only taken away by actions. -/
theorem Action.outlook_subset
    (action : Action)
    (device : Pointer)
    (view : Bool × List Pointer) :
    (action.outlook device view).2 ⊆ view.2 := by
  cases action with
  | freeDevice =>
      exact List.erase_subset
  | _ =>
      exact List.Subset.refl _

/- A step of a call keeps the order and the outlook. -/
theorem Orderly.advance
    {s s' : WrapperState}
    {index : Nat}
    {now : Int}
    {answer : Int32}
    (hInv : Orderly s)
    (hStep : Camera.advance s index now answer = some s') :
    Orderly s' ∧ Camera.outlook s' = Camera.outlook s := by
  cases advance_cases hStep with
  | returned hCall hDone =>
      rename_i call
      rcases hInv.of_getElem? hCall with
        ⟨rfl, hCalls, hEnds⟩
      have hIdle :
          (returnFrom s 0 call call.ret).calls = [] := by
        simp [returnFrom, hCalls]
      refine ⟨⟨hInv.nonzero, Or.inl hIdle⟩, ?_⟩
      rw [outlook_of_only hCalls, outlook_of_idle hIdle,
        Call.outlook, hDone]
      rfl
  | continued hCall hNext hAction =>
      rename_i call action rest t ret
      rcases hInv.of_getElem? hCall with
        ⟨rfl, hCalls, hEnds⟩
      rw [hNext] at hEnds
      have hView := performAction_outlook hAction
      have hSame := (performAction_effect hAction).calls
      have hOnly :
          t.calls.set 0
              { call with remaining := rest, ret := ret } =
            [{ call with remaining := rest, ret := ret }] := by
        rw [hSame, hCalls]
        rfl
      refine ⟨⟨?_, Or.inr ⟨_, hOnly, hEnds.2.2⟩⟩, ?_⟩
      · have hDevices := congrArg Prod.snd hView
        change t.devices = _ at hDevices
        change 0 ∉ t.devices
        rw [hDevices]
        intro hMem
        exact hInv.nonzero (action.outlook_subset _ _ hMem)
      · rw [outlook_of_only hCalls, outlook_of_only hOnly,
          Call.outlook, Call.outlook, hNext,
          List.foldl_cons, ← hView]
  | stopped hCall hNext hAction =>
      rename_i call action rest t ret
      rcases hInv.of_getElem? hCall with
        ⟨rfl, hCalls, hEnds⟩
      rw [hNext] at hEnds
      rcases hEnds with ⟨hCheck, hExit, _⟩
      have hView := performAction_outlook hAction
      have hSame := (performAction_effect hAction).calls
      have hEarly := performAction_returns hAction
      have hKept :
          (t.cbThread.mThread, t.devices) =
            (s.cbThread.mThread, s.devices) := by
        rw [hView]
        rcases hEarly with hGuard | ⟨hGuard, _⟩
        · rw [hGuard]
          rfl
        · rw [hGuard]
          rfl
      have hIdle :
          (returnFrom t 0 call ret).calls = [] := by
        simp [returnFrom, hSame, hCalls]
      refine ⟨⟨?_, Or.inl hIdle⟩, ?_⟩
      · have hDevices := congrArg Prod.snd hKept
        change t.devices = s.devices at hDevices
        change 0 ∉ t.devices
        rw [hDevices]
        exact hInv.nonzero
      · rw [outlook_of_only hCalls, outlook_of_idle hIdle]
        change (t.cbThread.mThread, t.devices) = _
        rw [hKept, Call.outlook, hNext]
        rcases hEarly with hGuard | ⟨hGuard, hThread⟩
        · rw [hGuard]
          exact ((hCheck hGuard).outlook _ _).symm
        · rw [hGuard, hExit hGuard, hThread]
          rfl

end Camera

end Universal7420

------------------------------------------------------------
-- Runs
------------------------------------------------------------

namespace Universal7420

namespace Camera

/- The outlook has a worker exactly if it has a device. -/
def Promising (s : WrapperState) : Prop :=
  (outlook s).1 = true ↔ (outlook s).2 ≠ []

/- The steps of the system, and where operations begin. -/
theorem operationSystem_step
    {s s' : WrapperState}
    {e : WrapperEvent}
    (hStep : operationSystem.step s e = some s') :
    WrapperTransition s e s' ∧
      (e.begins = true → s.calls = []) := by
  simp only [operationSystem] at hStep
  split at hStep
  · cases hStep
  · rename_i hBegins
    refine ⟨wrapperStep_transition hStep, ?_⟩
    intro hEvent
    by_contra hBusy
    exact hBegins ⟨hEvent, hBusy⟩

/- A step that begins no operation keeps the outlook. -/
theorem Orderly.continue
    {s s' : WrapperState}
    {e : WrapperEvent}
    (hInv : Orderly s)
    (hBegins : e.begins = false)
    (hStep : WrapperTransition s e s') :
    Orderly s' ∧ Camera.outlook s' = Camera.outlook s := by
  cases hStep with
  | opened hOpen =>
      cases hBegins
  | closing hLock hDevice =>
      cases hBegins
  | calling hDevice =>
      cases hBegins
  | advanced hAdvance =>
      exact hInv.advance hAdvance
  | dropped hBlock =>
      exact ⟨hInv, rfl⟩
  | raised hBlock =>
      exact ⟨hInv.of_same rfl rfl, rfl⟩
  | posted hMessage hPost =>
      refine ⟨hInv.of_same rfl rfl, ?_⟩
      simp only [Camera.outlook, postMessage_mThread hPost]
  | dequeued hWorker =>
      refine ⟨hInv.of_same rfl rfl, ?_⟩
      cases workerStep_transition hWorker with
      | posting hThread hCall =>
          cases hCall
      | dequeued hPhase hQueue =>
          rfl
  | handled hWorker =>
      refine ⟨hInv.of_same rfl rfl, ?_⟩
      cases workerStep_transition hWorker with
      | posting hThread hCall =>
          cases hCall
      | handled hPhase =>
          simp only [Camera.outlook, handleMessage_mThread]

/- An operation begins as the only one. -/
theorem Orderly.begin
    {s s' : WrapperState}
    {call : Call}
    (hInv : Orderly s)
    (hIdle : s.calls = [])
    (hEnds : EndsEarly call.remaining)
    (hCalls : s'.calls = s.calls ++ [call])
    (hDevices : s'.devices = s.devices) :
    Orderly s' := by
  refine ⟨?_, Or.inr ⟨call, ?_, hEnds⟩⟩
  · rw [hDevices]
    exact hInv.nonzero
  · rw [hCalls, hIdle, List.nil_append]

theorem Orderly.step
    {s s' : WrapperState}
    {e : WrapperEvent}
    (hInv : Orderly s)
    (hStep : operationSystem.step s e = some s') :
    Orderly s' := by
  rcases operationSystem_step hStep with
    ⟨hTransition, hIdle⟩
  cases hEvent : e.begins with
  | false =>
      exact (hInv.continue hEvent hTransition).1
  | true =>
      have hCalls := hIdle hEvent
      cases hTransition with
      | opened hOpen =>
          exact hInv.opened hOpen
      | closing hLock hDevice =>
          exact hInv.begin hCalls (endsEarly_deviceClose _)
            rfl rfl
      | calling hDevice =>
          exact hInv.begin hCalls (Operation.endsEarly _)
            rfl rfl
      | _ =>
          cases hEvent

/- What a close will leave behind. -/
theorem outlook_deviceClose
    {s : WrapperState}
    {device : Pointer}
    {call : Call}
    (hInv : Orderly s)
    (hCalls : s.calls = [call])
    (hDevice : call.device = device)
    (hActions : call.remaining = camera2DeviceClose device) :
    outlook s = (false, s.devices.erase device) := by
  rw [outlook_of_only hCalls, Call.outlook, hActions, hDevice]
  unfold camera2DeviceClose
  split
  · rename_i hNull
    rw [hNull, List.erase_of_not_mem hInv.nonzero]
    rfl
  · rfl

/- One step makes good on its outlook if it meets the guard. -/
theorem Promising.step_iff
    {s s' : WrapperState}
    {e : WrapperEvent}
    (hInv : Orderly s)
    (hPromise : Promising s)
    (hStep : operationSystem.step s e = some s') :
    Promising s' ↔ KeepsWorker s e := by
  have hNext := hInv.step hStep
  rcases operationSystem_step hStep with
    ⟨hTransition, hIdle⟩
  cases hEvent : e.begins with
  | false =>
      have hView :=
        (hInv.continue hEvent hTransition).2
      have hGuard : KeepsWorker s e := by
        cases e with
        | deviceOpen name answers => cases hEvent
        | deviceClose device => cases hEvent
        | _ => trivial
      unfold Promising
      rw [hView]
      exact iff_of_true hPromise hGuard
  | true =>
      have hCalls := hIdle hEvent
      cases hTransition with
      | opened hOpen =>
          have hIdle' : s'.calls = [] := by
            rw [(camera2DeviceOpen_effect hOpen).1]
            exact hCalls
          unfold Promising
          rw [outlook_of_idle hIdle',
            camera2DeviceOpen_mThread hOpen,
            camera2DeviceOpen_devices hOpen]
          simp only [KeepsWorker, true_iff, ne_eq,
            List.append_eq_nil_iff, not_and_or]
          split
          · rename_i hOpens
            simp [hOpens]
          · rename_i hOpens
            simp [hOpens]
      | closing hLock hDevice =>
          have hView := outlook_deviceClose hNext
            (by rw [hCalls]; rfl) rfl rfl
          unfold Promising
          rw [hView]
          simp only [KeepsWorker, Bool.false_eq_true,
            false_iff, ne_eq, not_not]
      | calling hDevice =>
          rename_i device operation
          have hView :
              outlook
                  { s with
                    calls := s.calls ++
                      [{ device := device
                         remaining := operation.actions
                         ret := none
                         locked := false }] } =
                outlook s := by
            rw [outlook_of_idle hCalls]
            simp only [outlook, hCalls, List.nil_append,
              List.foldl_cons, List.foldl_nil]
            exact operation.harmless.outlook _ _
          unfold Promising
          rw [hView]
          exact iff_of_true hPromise trivial
      | _ =>
          cases hEvent

/- Everything is in order and the outlook is good. -/
structure OnTrack (s : WrapperState) : Prop where
  orderly : Orderly s
  promising : Promising s

theorem onTrack_initial :
    OnTrack WrapperState.initial where
  orderly := orderly_initial
  promising := by
    simp [Promising, outlook, WrapperState.initial,
      WorkerState.initial]

/- The outlook is good all along if the guard is met. -/
theorem promising_iff_guarded
    {es : List WrapperEvent}
    {final : WrapperState}
    (hRun : operationSystem.run es = some final) :
    (∀ pre s, pre <+: es →
        operationSystem.run pre = some s →
        Promising s) ↔
      operationSystem.Guarded KeepsWorker
        WrapperState.initial es := by
  refine operationSystem.forall_prefix_iff_guarded
    ?_ ?_ ?_ onTrack_initial hRun
  · intro s hInv
    exact hInv.promising
  · intro s e s' hInv hStep
    exact Promising.step_iff hInv.orderly hInv.promising
      hStep
  · intro s e s' hInv hGuard hStep
    refine ⟨hInv.orderly.step hStep, ?_⟩
    exact (Promising.step_iff hInv.orderly hInv.promising
      hStep).mpr hGuard

/- An operation is judged when it has ended. -/
theorem exists_idle_outlook
    {pre rest : List WrapperEvent}
    {s final : WrapperState}
    (hPre : operationSystem.run pre = some s)
    (hRest : operationSystem.runFrom s rest = some final)
    (hDone : final.calls = []) :
    ∃ mid t, mid <+: rest ∧
      operationSystem.run (pre ++ mid) = some t ∧
      t.calls = [] ∧ outlook t = outlook s := by
  have hOrderly :
      ∀ u e u', Orderly u →
        operationSystem.step u e = some u' →
        Orderly u' := by
    intro u e u' hInv hStep
    exact hInv.step hStep
  have hInv : Orderly s :=
    operationSystem.invariant_of_step hOrderly
      orderly_initial hPre
  have hKeep :
      ∀ u e u', Orderly u → u.calls ≠ [] →
        operationSystem.step u e = some u' →
        outlook u' = outlook u := by
    intro u e u' hStart hBusy hStep
    rcases operationSystem_step hStep with
      ⟨hTransition, hIdle⟩
    have hEvent : e.begins = false := by
      by_contra hBegins
      exact hBusy (hIdle (by simpa using hBegins))
    exact (hStart.continue hEvent hTransition).2
  have hEnd : ¬ final.calls ≠ [] :=
    not_not.mpr hDone
  rcases operationSystem.exists_idle_prefix hOrderly hKeep
      hInv hRest hEnd with
    ⟨mid, t, hMid, hRunMid, hIdle, hView⟩
  refine ⟨mid, t, hMid, ?_, not_not.mp hIdle, hView⟩
  exact operationSystem.runFrom_append_eq_some_iff.mpr
    ⟨s, hPre, hRunMid⟩

/-
  In a run that ends between operations, there is a worker
  after each operation exactly if there is a device, if and
  only if the opens and closes of the run keep the worker.
-/
theorem worker_while_open_iff
    {es : List WrapperEvent}
    {final : WrapperState}
    (hRun : operationSystem.run es = some final)
    (hDone : final.calls = []) :
    (∀ pre s, pre <+: es →
        operationSystem.run pre = some s →
        s.calls = [] →
        WorkerWhileOpen s) ↔
      operationSystem.Guarded KeepsWorker
        WrapperState.initial es := by
  rw [← promising_iff_guarded hRun]
  constructor
  · intro hAll pre s hPrefix hPre
    rcases hPrefix with ⟨rest, rfl⟩
    rcases operationSystem.runFrom_append_eq_some_iff.mp hRun
      with ⟨t, hFirst, hRest⟩
    have hSame : s = t :=
      Option.some.inj (hPre.symm.trans hFirst)
    rw [← hSame] at hRest
    rcases exists_idle_outlook hPre hRest hDone with
      ⟨mid, u, hMid, hRunMid, hIdle, hView⟩
    have hOpen : WorkerWhileOpen u := by
      refine hAll (pre ++ mid) u ?_ hRunMid hIdle
      exact (List.prefix_append_right_inj pre).mpr hMid
    unfold Promising
    rw [← hView, outlook_of_idle hIdle]
    exact hOpen
  · intro hAll pre s hPrefix hPre hIdle
    have hPromise := hAll pre s hPrefix hPre
    unfold Promising at hPromise
    rw [outlook_of_idle hIdle] at hPromise
    exact hPromise

/- Stop a device and let the worker exit. -/
def closeRun (device : Pointer) : List WrapperEvent :=
  [ .deviceClose device
  , .advance 0 0 0
  , .advance 0 0 0
  , .advance 0 0 0
  , .dequeue
  , .handle 0
  , .advance 0 0 0
  , .advance 0 0 0 ]

/- A second camera at another address. -/
def secondAnswers : OpenAnswers :=
  { openAnswers with mallocDevice := 24, mallocOps := 32 }

/- One camera is opened and closed, and then the other. -/
theorem worker_while_open_in_turn :
    ∃ final,
      operationSystem.run
          ([.deviceOpen (some "0") openAnswers] ++
            closeRun 8 ++
            [.deviceOpen (some "1") secondAnswers]) =
        some final ∧
      final.devices = [24] ∧
      ∀ pre s,
        pre <+: [.deviceOpen (some "0") openAnswers] ++
          closeRun 8 ++
          [.deviceOpen (some "1") secondAnswers] →
        operationSystem.run pre = some s →
        s.calls = [] →
        WorkerWhileOpen s := by
  refine ⟨_, rfl, rfl, ?_⟩
  apply (worker_while_open_iff rfl rfl).mpr
  decide

/-
  Closing one of two cameras stops the worker of the other,
  and a camera that is refused leaves a worker without one.
-/
theorem worker_stopped_for_other :
    (∃ s,
      operationSystem.run
          ([.deviceOpen (some "0") openAnswers
           , .deviceOpen (some "1") secondAnswers] ++
            closeRun 8) = some s ∧
      s.calls = [] ∧
      s.devices = [24] ∧
      s.cbThread.mThread = false ∧
      ¬ WorkerWhileOpen s) ∧
    (∃ s,
      operationSystem.run
          [.deviceOpen (some "3") openAnswers] = some s ∧
      s.calls = [] ∧
      s.devices = [] ∧
      s.cbThread.mThread = true ∧
      ¬ WorkerWhileOpen s) := by
  constructor
  · refine ⟨_, rfl, rfl, rfl, rfl, ?_⟩
    intro hWorker
    have hThread := hWorker.mpr (List.cons_ne_nil 24 [])
    cases hThread
  · refine ⟨_, rfl, rfl, rfl, rfl, ?_⟩
    intro hWorker
    exact hWorker.mp rfl rfl

end Camera

end Universal7420
