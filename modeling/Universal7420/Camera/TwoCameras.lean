import Universal7420.Camera.Registration
import Universal7420.Camera.StopPreview
import Universal7420.Camera.WorkerLifetime

/-
  Several open cameras.

  The queue, the flag and the registered functions belong to
  the process and not to a device.  For one of the devices, a
  history tells its callbacks from those of the others.  It
  records which of them another device discards or blocks, and
  what the worker calls for those that it executes.

  Main declarations:
    * `Universal7420.Camera.Interference`
    * `Universal7420.Camera.camerasSystem`
    * `Universal7420.Camera.Undisturbed`
    * `Universal7420.Camera.LeavesAlone`
    * `Universal7420.Camera.cameras_undisturbed`
-/

------------------------------------------------------------
-- The History
------------------------------------------------------------

namespace Universal7420

namespace Camera

/-
  A step of the wrapper.  Where a callback is raised, `device`
  is the one whose vendor HAL raises it.
-/
structure CameraEvent where
  device : Pointer
  event : WrapperEvent
deriving DecidableEq, Repr

/- Callbacks come from open devices, and none is closed. -/
def CameraEvent.Allowed
    (s : WrapperState)
    (e : CameraEvent) : Prop :=
  match e.event with
  | .deviceClose _ => False
  | .raise _ => e.device ∈ s.devices
  | _ => True

instance decidableAllowed
    (s : WrapperState)
    (e : CameraEvent) :
    Decidable (e.Allowed s) := by
  unfold CameraEvent.Allowed
  split <;> infer_instance

/-
  A callback of the device that the worker has executed: the
  number of registrations of the device before it was raised,
  the message, and the call that came of it.
-/
structure Execution where
  earlier : Nat
  message : WorkerMessage
  call : Option UserCall
deriving DecidableEq, Repr

/-
  `registered` has the functions of all `set_callbacks` of the
  device.  A callback of the device has as its origin the
  number of them when it was raised; those of other devices
  have none.  `blocker` is the device that has set the flag.
  The rest is what has become of callbacks of the device:
  discarded or blocked by another one, or executed.
-/
structure Interference where
  registered : List CallbackData
  raised : List (Option Nat)
  origin : Nat → Option Nat
  blocker : Option Pointer
  discarded : List ThreadMsg
  blocked : List HalCallback
  executed : List Execution

def Interference.initial : Interference where
  registered := []
  raised := []
  origin := fun _ => none
  blocker := none
  discarded := []
  blocked := []
  executed := []

/- What an action of a call for a device adds. -/
def Interference.act
    (b : Pointer)
    (g : Interference)
    (s : WrapperState)
    (device : Pointer) :
    Action → Interference
| .setBlockCbs value =>
    { g with
      blocker := if value = 1 then some device else none }
| .clearCallbacks =>
    if device = b then
      g
    else
      { g with
        discarded :=
          g.discarded ++
            s.cbThread.mQueue.filter
              (fun msg => (g.origin msg.serial).isSome) }
| .setCallbacks data =>
    if device = b then
      { g with registered := g.registered ++ [data] }
    else
      g
| _ => g

theorem Interference.act_clearCallbacks
    (b : Pointer)
    (g : Interference)
    (s : WrapperState)
    (device : Pointer) :
    g.act b s device .clearCallbacks =
      if device = b then
        g
      else
        { g with
          discarded :=
            g.discarded ++
              s.cbThread.mQueue.filter
                (fun msg => (g.origin msg.serial).isSome) } :=
  rfl

theorem Interference.act_setCallbacks
    (b : Pointer)
    (g : Interference)
    (s : WrapperState)
    (device : Pointer)
    (data : CallbackData) :
    g.act b s device (.setCallbacks data) =
      if device = b then
        { g with registered := g.registered ++ [data] }
      else
        g :=
  rfl

/- A callback is executed unless it is stale. -/
def Interference.handle
    (g : Interference)
    (w : WorkerState)
    (now : Int) : Interference :=
  match w.phase with
  | .holding msg =>
      match msg.payload, g.origin msg.serial with
      | .executeCallback message, some earlier =>
          if now - msg.callerTS < 5 then
            { g with
              executed :=
                g.executed ++
                  [⟨earlier, message,
                    userCall w.userCbs message⟩] }
          else
            g
      | _, _ => g
  | _ => g

/- The history of the device `b` after a step. -/
def Interference.record
    (b : Pointer)
    (g : Interference)
    (s : WrapperState)
    (e : CameraEvent) : Interference :=
  match e.event with
  | .deviceOpen _ _ => { g with blocker := none }
  | .deviceClose _ | .call _ _ | .dequeue => g
  | .advance index _ _ =>
      match s.calls[index]? with
      | some call =>
          match call.remaining with
          | action :: _ => g.act b s call.device action
          | [] => g
      | none => g
  | .raise callback =>
      if s.blockCbs = 1 then
        if e.device = b ∧ g.blocker ≠ some b then
          { g with blocked := g.blocked ++ [callback] }
        else
          g
      else
        { g with
          raised := g.raised ++
            [if e.device = b then some g.registered.length
             else none] }
  | .post index _ =>
      { g with
        raised := g.raised.eraseIdx index
        origin := fun serial =>
          if serial = s.cbThread.log.pushed.length then
            g.raised[index]?.join
          else
            g.origin serial }
  | .handle now => g.handle s.cbThread now

/- Operations on any number of devices that stay open. -/
def openCameras :
    EventSystem WrapperState CameraEvent :=
  EventSystem.restrict
    { init := WrapperState.initial
      step := fun s e => wrapperStep s e.event }
    (fun s e => e.Allowed s)

/- The same with the history of one device. -/
def camerasSystem
    (b : Pointer) :
    EventSystem (WrapperState × Interference) CameraEvent :=
  openCameras.withGhost Interference.initial
    (Interference.record b)

/-
  What came of a callback is the call, or no call, that
  functions make which the device had registered last before
  the callback, or has registered since.
-/
def Execution.Own
    (registered : List CallbackData)
    (x : Execution) : Prop :=
  0 < x.earlier →
    ∃ own ∈ registered.drop (x.earlier - 1),
      x.call = userCall own x.message

/-
  No other device has discarded or blocked a callback, and all
  that were executed went through functions of the device.
-/
structure Undisturbed (g : Interference) : Prop where
  discarded : g.discarded = []
  blocked : g.blocked = []
  own : ∀ x ∈ g.executed, x.Own g.registered

end Camera

end Universal7420

------------------------------------------------------------
-- Steps That Leave A Device Alone
------------------------------------------------------------

namespace Universal7420

namespace Camera

/- The callbacks of the device are with the worker, or gone. -/
def NoneUnderway (s : WrapperState × Interference) : Prop :=
  (∀ earlier ∈ s.2.raised, earlier = none) ∧
    ∀ msg ∈ s.1.cbThread.mQueue,
      s.2.origin msg.serial = none

instance decidableNoneUnderway
    (s : WrapperState × Interference) :
    Decidable (NoneUnderway s) := by
  unfold NoneUnderway
  infer_instance

/-
  Another device begins `auto_focus`, `cancel_auto_focus` or
  `stop_preview` only if no callback of the device is
  underway, and its `cancel_auto_focus` finds that the time
  guard has expired.  The device raises none while such an
  operation of another one has still to clear or to unblock.
  When a callback of the device is posted, the worker will
  come to it with functions that the device registered.
-/
def LeavesAlone
    (b : Pointer)
    (s : WrapperState × Interference)
    (e : CameraEvent) : Prop :=
  match e.event with
  | .call device operation =>
      device ≠ b → .clearCallbacks ∈ operation.actions →
        NoneUnderway s
  | .advance index now _ =>
      match s.1.calls[index]? with
      | some call =>
          call.device ≠ b →
          call.remaining.head? = some .checkTimeGuard →
          s.1.cancelAFTimeGuard ≤ now
      | none => True
  | .raise _ =>
      e.device = b →
        ∀ call ∈ s.1.calls, call.device ≠ b →
          .clearCallbacks ∉ call.remaining ∧
            .setBlockCbs 0 ∉ call.remaining
  | .post index _ =>
      match s.2.raised[index]?.join with
      | some earlier =>
          0 < earlier →
            eventual s.1.cbThread ∈
              s.2.registered.drop (earlier - 1)
      | none => True
  | _ => True

instance decidableLeavesAlone
    (b : Pointer)
    (s : WrapperState × Interference)
    (e : CameraEvent) :
    Decidable (LeavesAlone b s e) := by
  unfold LeavesAlone
  split
  · infer_instance
  · split <;> infer_instance
  · infer_instance
  · split <;> infer_instance
  · infer_instance

end Camera

end Universal7420

------------------------------------------------------------
-- Calls In Progress
------------------------------------------------------------

namespace Universal7420

namespace Camera

/-
  The actions end no worker and free no device, and a flag that
  is set is lifted later.
-/
def Plain : List Action → Prop
| [] => True
| action :: rest =>
    (action ≠ .freeDevice ∧ action ≠ .joinThread ∧
      action ≠ .exitThread) ∧
    (action = .setBlockCbs 1 → .setBlockCbs 0 ∈ rest) ∧
    Plain rest

/- Every operation but `close` is plain. -/
theorem Operation.plain
    (operation : Operation) :
    Plain operation.actions := by
  cases operation with
  | setCallbacks notifyCb dataCb timestampCb getMemory user =>
      simp [Operation.actions, camera2SetCallbacks, Plain]
  | stopPreview =>
      simp [Operation.actions, camera2StopPreview, Plain]
  | autoFocus =>
      simp [Operation.actions, camera2AutoFocus, Plain]
  | cancelAutoFocus =>
      simp [Operation.actions, camera2CancelAutoFocus, Plain]
  | getParameters =>
      simp [Operation.actions, camera2GetParameters, Plain]
  | putParameters =>
      trivial
  | _ =>
      simp [Operation.actions, forward, Plain]

/- What the next step of a call does to the calls. -/
inductive CallsEffect
    (b : Pointer)
    (s : WrapperState)
    (g : Interference)
    (index : Nat) :
    WrapperState → Interference → Prop where
| returned
    {s' : WrapperState}
    {call : Call}
    (hCall : s.calls[index]? = some call)
    (hDone : call.remaining = [] ∨ call.device = b)
    (hCalls : s'.calls = s.calls.eraseIdx index)
    (hBlock : s'.blockCbs = s.blockCbs)
    (hWorker : s'.cbThread = s.cbThread)
    (hRaised : s'.raised = s.raised) :
    CallsEffect b s g index s' g
| acted
    {s' : WrapperState}
    {call : Call}
    {action : Action}
    {rest : List Action}
    (ret : Option Int32)
    (hCall : s.calls[index]? = some call)
    (hNext : call.remaining = action :: rest)
    (hCalls :
      s'.calls =
        s.calls.set index
          { call with
            remaining := rest
            ret := ret })
    (hBlock : s'.blockCbs = action.blockAfter s.blockCbs)
    (hWorker :
      WorkerEffect s.cbThread action s'.cbThread)
    (hRaised : s'.raised = s.raised) :
    CallsEffect b s g index s'
      (g.act b s call.device action)

/- A step of a call, if another device's guard has expired. -/
theorem advance_callsEffect
    {b device : Pointer}
    {s s' : WrapperState}
    {g : Interference}
    {index : Nat}
    {now : Int}
    {answer : Int32}
    (hPlain : ∀ call ∈ s.calls, Plain call.remaining)
    (hAlone :
      LeavesAlone b (s, g)
        ⟨device, .advance index now answer⟩)
    (hStep : advance s index now answer = some s') :
    CallsEffect b s g index s'
      (g.record b s ⟨device, .advance index now answer⟩) := by
  simp only [LeavesAlone] at hAlone
  cases advance_cases hStep with
  | returned hCall hDone =>
      simp only [Interference.record, hCall, hDone]
      exact .returned hCall (Or.inl hDone) rfl rfl rfl rfl
  | continued hCall hNext hAction =>
      rename_i call action rest t ret
      simp only [Interference.record, hCall, hNext]
      have hEffect := performAction_effect hAction
      rcases performAction_worker_effect hAction with
        ⟨hWorker, hRaised⟩
      refine .acted ret hCall hNext ?_ hEffect.block hWorker
        hRaised
      rw [hEffect.calls]
  | stopped hCall hNext hAction =>
      rename_i call action rest t ret
      have hEffect := performAction_effect hAction
      have hHead := hPlain call (List.mem_of_getElem? hCall)
      rw [hNext] at hHead
      rcases hEffect.early ret rfl with
        ⟨hGuard, hActive⟩ | hExit
      · -- the time guard was still active
        subst hGuard
        have hOwn : call.device = b := by
          by_contra hOther
          simp only [hCall, hNext, List.head?_cons] at hAlone
          have hExpired := hAlone hOther trivial
          omega
        rcases performAction_worker_effect hAction with
          ⟨hWorker, hRaised⟩
        have hAct :
            g.act b s call.device .checkTimeGuard = g :=
          rfl
        simp only [Interference.record, hCall, hNext]
        rw [hAct]
        refine .returned hCall (Or.inr hOwn) ?_ hEffect.block
          ?_ hRaised
        · rw [← hEffect.calls]
          rfl
        · generalize hAfter : t.cbThread = w at hWorker
          cases hWorker with
          | kept hClear hUpdate => exact hAfter
      · exact absurd hExit hHead.1.2.2

/- Another call is still in progress after a step of one. -/
theorem CallsEffect.mem_of_mem
    {b : Pointer}
    {s s' : WrapperState}
    {g g' : Interference}
    {index : Nat}
    (hEffect : CallsEffect b s g index s' g')
    {other : Call}
    (hMem : other ∈ s.calls)
    (hApart : s.calls[index]? ≠ some other) :
    other ∈ s'.calls := by
  rcases List.getElem?_of_mem hMem with ⟨i, hi⟩
  have hIndex : i ≠ index := by
    rintro rfl
    exact hApart hi
  cases hEffect with
  | returned hCall hDone hCalls =>
      rw [hCalls, List.mem_eraseIdx_iff_getElem?]
      exact ⟨i, hIndex, hi⟩
  | acted ret hCall hNext hCalls =>
      rw [hCalls]
      apply List.mem_of_getElem?
      rw [List.getElem?_set_ne (Ne.symm hIndex)]
      exact hi

/- What is in progress after a step was so before. -/
theorem CallsEffect.old_of_mem
    {b : Pointer}
    {s s' : WrapperState}
    {g g' : Interference}
    {index : Nat}
    (hEffect : CallsEffect b s g index s' g')
    {call : Call}
    (hMem : call ∈ s'.calls) :
    ∃ old ∈ s.calls,
      old.device = call.device ∧
        (old = call ∨
          ∃ action, old.remaining = action :: call.remaining) := by
  cases hEffect with
  | returned hCall hDone hCalls =>
      rw [hCalls] at hMem
      exact ⟨call, List.mem_of_mem_eraseIdx hMem, rfl,
        Or.inl rfl⟩
  | acted ret hCall hNext hCalls =>
      rw [hCalls] at hMem
      rcases List.mem_or_eq_of_mem_set hMem with hOld | hNew
      · exact ⟨call, hOld, rfl, Or.inl rfl⟩
      · rename_i old action rest _ _ _
        refine ⟨old, List.mem_of_getElem? hCall, ?_,
          Or.inr ⟨action, ?_⟩⟩
        · rw [hNew]
        · rw [hNew, hNext]

/- The calls stay plain. -/
theorem CallsEffect.plain
    {b : Pointer}
    {s s' : WrapperState}
    {g g' : Interference}
    {index : Nat}
    (hEffect : CallsEffect b s g index s' g')
    (hPlain : ∀ call ∈ s.calls, Plain call.remaining) :
    ∀ call ∈ s'.calls, Plain call.remaining := by
  intro call hMem
  rcases hEffect.old_of_mem hMem with
    ⟨old, hOld, _, rfl | ⟨action, hNext⟩⟩
  · exact hPlain old hOld
  · have hBoth := hPlain old hOld
    rw [hNext] at hBoth
    exact hBoth.2.2

end Camera

end Universal7420

------------------------------------------------------------
-- The Flag
------------------------------------------------------------

namespace Universal7420

namespace Camera

/-
  If the flag is set, then by a device that is known; another
  one than `b` has a call in progress that will lift it.
-/
def Blocking
    (b : Pointer)
    (s : WrapperState × Interference) : Prop :=
  s.1.blockCbs = 1 →
    ∃ d, s.2.blocker = some d ∧
      (d ≠ b →
        ∃ call ∈ s.1.calls,
          call.device = d ∧
            .setBlockCbs 0 ∈ call.remaining)

theorem Blocking.mono
    {b : Pointer}
    {s s' : WrapperState × Interference}
    (hInv : Blocking b s)
    (hBlock : s'.1.blockCbs = s.1.blockCbs)
    (hBlocker : s'.2.blocker = s.2.blocker)
    (hCalls : ∀ call ∈ s.1.calls, call ∈ s'.1.calls) :
    Blocking b s' := by
  intro hSet
  rw [hBlock] at hSet
  rcases hInv hSet with ⟨d, hDevice, hLifts⟩
  refine ⟨d, hBlocker.trans hDevice, ?_⟩
  intro hOther
  rcases hLifts hOther with ⟨call, hMem, hBoth⟩
  exact ⟨call, hCalls call hMem, hBoth⟩

/- An action that does not set the flag leaves it alone. -/
theorem act_blocker
    (b : Pointer)
    (g : Interference)
    (s : WrapperState)
    (device : Pointer)
    {action : Action}
    (hAction : ∀ value, action ≠ .setBlockCbs value) :
    (g.act b s device action).blocker = g.blocker ∧
      action.blockAfter s.blockCbs = s.blockCbs := by
  cases action with
  | setBlockCbs value =>
      exact absurd rfl (hAction value)
  | clearCallbacks =>
      refine ⟨?_, rfl⟩
      rw [Interference.act_clearCallbacks]
      split
      · rfl
      · rfl
  | setCallbacks data =>
      refine ⟨?_, rfl⟩
      rw [Interference.act_setCallbacks]
      split
      · rfl
      · rfl
  | _ =>
      exact ⟨rfl, rfl⟩

theorem Blocking.advance
    {b : Pointer}
    {s s' : WrapperState}
    {g g' : Interference}
    {index : Nat}
    (hInv : Blocking b (s, g))
    (hPlain : ∀ call ∈ s.calls, Plain call.remaining)
    (hEffect : CallsEffect b s g index s' g') :
    Blocking b (s', g') := by
  have hOthers := @CallsEffect.mem_of_mem _ _ _ _ _ _ hEffect
  cases hEffect with
  | returned hCall hDone hCalls hBlock =>
      rename_i call
      intro hSet
      rw [hBlock] at hSet
      rcases hInv hSet with ⟨d, hDevice, hLifts⟩
      refine ⟨d, hDevice, ?_⟩
      intro hOther
      rcases hLifts hOther with ⟨other, hMem, hIs, hLater⟩
      refine ⟨other, hOthers hMem ?_, hIs, hLater⟩
      -- the call that is over lifts nothing, or is of `b`
      intro hSame
      rw [hCall, Option.some.injEq] at hSame
      subst hSame
      rcases hDone with hNone | hOwn
      · rw [hNone] at hLater
        cases hLater
      · exact hOther (hIs.symm.trans hOwn)
  | acted ret hCall hNext hCalls hBlock =>
      rename_i call action rest _ _
      have hHead := hPlain call (List.mem_of_getElem? hCall)
      rw [hNext] at hHead
      have hNew :
          { call with
            remaining := rest
            ret := ret } ∈ s'.calls := by
        rw [hCalls]
        exact List.mem_set (List.getElem?_eq_some_iff.mp
          hCall).1 _
      by_cases hFlag : ∃ value, action = .setBlockCbs value
      · rcases hFlag with ⟨value, rfl⟩
        intro hSet
        have hOne : value = 1 := hBlock.symm.trans hSet
        subst hOne
        exact ⟨call.device, rfl,
          fun _ => ⟨_, hNew, rfl, hHead.2.1 rfl⟩⟩
      · have hAction : ∀ value, action ≠ .setBlockCbs value :=
          fun value hSame => hFlag ⟨value, hSame⟩
        rcases act_blocker b g s call.device hAction with
          ⟨hBlocker, hKept⟩
        intro hSet
        rw [hBlock, hKept] at hSet
        rcases hInv hSet with ⟨d, hDevice, hLifts⟩
        refine ⟨d, hBlocker.trans hDevice, ?_⟩
        intro hOther
        rcases hLifts hOther with ⟨other, hMem, hIs, hLater⟩
        by_cases hSame : s.calls[index]? = some other
        · rw [hCall, Option.some.injEq] at hSame
          subst hSame
          refine ⟨_, hNew, hIs, ?_⟩
          rw [hNext] at hLater
          rcases List.mem_cons.mp hLater with hNow | hRest
          · exact absurd hNow.symm (hAction 0)
          · exact hRest
        · exact ⟨other, hOthers hMem hSame, hIs, hLater⟩

end Camera

end Universal7420

------------------------------------------------------------
-- The Queue
------------------------------------------------------------

namespace Universal7420

namespace Camera

/-
  Serials to come have no origin.  While a call of another
  device is going to clear the queue, no callback of the device
  is underway.
-/
structure Clearing
    (b : Pointer)
    (s : WrapperState × Interference) : Prop where
  fresh :
    ∀ serial, s.1.cbThread.log.pushed.length ≤ serial →
      s.2.origin serial = none
  quiet :
    ∀ call ∈ s.1.calls, call.device ≠ b →
      .clearCallbacks ∈ call.remaining → NoneUnderway s

/- A step that brings no callback of the device. -/
theorem Clearing.of_fewer
    {b : Pointer}
    {s s' : WrapperState}
    {g g' : Interference}
    (hInv : Clearing b (s, g))
    (hPushed :
      s.cbThread.log.pushed.length ≤
        s'.cbThread.log.pushed.length)
    (hQueue :
      ∀ msg ∈ s'.cbThread.mQueue,
        msg ∈ s.cbThread.mQueue ∨
          s.cbThread.log.pushed.length ≤ msg.serial)
    (hOrigin : g'.origin = g.origin)
    (hRaised :
      ∀ earlier ∈ g'.raised,
        earlier ∈ g.raised ∨ earlier = none)
    (hCalls :
      ∀ call ∈ s'.calls, call.device ≠ b →
        .clearCallbacks ∈ call.remaining →
        NoneUnderway (s, g)) :
    Clearing b (s', g') where
  fresh := by
    intro serial hSerial
    rw [hOrigin]
    exact hInv.fresh serial (Nat.le_trans hPushed hSerial)
  quiet := by
    intro call hMem hOther hClears
    have hNone := hCalls call hMem hOther hClears
    constructor
    · intro earlier hEarlier
      rcases hRaised earlier hEarlier with hOld | hNew
      · exact hNone.1 earlier hOld
      · exact hNew
    · intro msg hMsg
      rw [hOrigin]
      rcases hQueue msg hMsg with hOld | hNew
      · exact hNone.2 msg hOld
      · exact hInv.fresh msg.serial hNew

/- A post moves a callback from one place to the other. -/
theorem Clearing.post
    {b device : Pointer}
    {s : WrapperState}
    {g : Interference}
    {index : Nat}
    {now : Int}
    {message : WorkerMessage}
    (hInv : Clearing b (s, g))
    (hDiscipline : Discipline s.cbThread) :
    Clearing b
      ({ s with
          cbThread :=
            enqueue s.cbThread (.executeCallback message) now
          raised := s.raised.eraseIdx index },
        g.record b s ⟨device, .post index now⟩) where
  fresh := by
    intro serial hSerial
    simp only [enqueue, List.length_append,
      List.length_singleton] at hSerial
    simp only [Interference.record]
    rw [if_neg (by omega)]
    exact hInv.fresh serial (Nat.le_of_succ_le hSerial)
  quiet := by
    intro call hMem hOther hClears
    have hNone := hInv.quiet call hMem hOther hClears
    constructor
    · intro earlier hEarlier
      exact hNone.1 earlier (List.mem_of_mem_eraseIdx hEarlier)
    · intro msg hMsg
      rcases List.mem_append.mp hMsg with hOld | hNew
      · have hSerial :=
          hDiscipline.serial_lt
            (List.mem_append_right s.cbThread.phase.hand hOld)
        simp only [Interference.record]
        rw [if_neg (Nat.ne_of_lt hSerial)]
        exact hNone.2 msg hOld
      · rw [List.mem_singleton.mp hNew]
        simp only [Interference.record, if_true]
        cases hAt : g.raised[index]? with
        | none =>
            rfl
        | some earlier =>
            rw [hNone.1 earlier (List.mem_of_getElem? hAt)]
            rfl

end Camera

end Universal7420

------------------------------------------------------------
-- The Functions
------------------------------------------------------------

namespace Universal7420

namespace Camera

/- The functions are some that the device registered. -/
def OwnFunctions
    (g : Interference)
    (cbs : CallbackData)
    (msg : ThreadMsg) : Prop :=
  ∀ message earlier,
    msg.payload = .executeCallback message →
    g.origin msg.serial = some earlier →
    0 < earlier →
    cbs ∈ g.registered.drop (earlier - 1)

/- Each message is judged with the functions it will find. -/
def InOrder
    (judge : CallbackData → ThreadMsg → Prop) :
    CallbackData → List ThreadMsg → Prop
| _, [] => True
| cbs, msg :: rest =>
    judge cbs msg ∧
      InOrder judge (msg.update?.getD cbs) rest

theorem lastUpdate_cons_getD
    (msg : ThreadMsg)
    (rest : List ThreadMsg)
    (cbs : CallbackData) :
    (lastUpdate (msg :: rest)).getD cbs =
      (lastUpdate rest).getD (msg.update?.getD cbs) := by
  have hSplit := lastUpdate_append [msg] rest
  rw [List.singleton_append, lastUpdate_singleton] at hSplit
  rw [hSplit]
  cases lastUpdate rest with
  | none =>
      rfl
  | some last =>
      rfl

theorem inOrder_append
    {judge : CallbackData → ThreadMsg → Prop}
    {msgs later : List ThreadMsg}
    {cbs : CallbackData} :
    InOrder judge cbs (msgs ++ later) ↔
      InOrder judge cbs msgs ∧
        InOrder judge ((lastUpdate msgs).getD cbs) later := by
  induction msgs generalizing cbs with
  | nil =>
      simp only [List.nil_append, InOrder, true_and]
      rfl
  | cons msg rest ih =>
      rw [List.cons_append, InOrder, ih, lastUpdate_cons_getD,
        InOrder, and_assoc]

theorem InOrder.mono
    {judge judge' : CallbackData → ThreadMsg → Prop}
    {msgs : List ThreadMsg}
    {cbs : CallbackData}
    (hInOrder : InOrder judge cbs msgs)
    (hWeaker :
      ∀ msg ∈ msgs, ∀ cbs, judge cbs msg → judge' cbs msg) :
    InOrder judge' cbs msgs := by
  induction msgs generalizing cbs with
  | nil =>
      trivial
  | cons msg rest ih =>
      refine ⟨hWeaker msg (by simp) cbs hInOrder.1, ?_⟩
      apply ih hInOrder.2
      intro other hMem
      exact hWeaker other (List.mem_cons_of_mem _ hMem)

/- Every callback will find functions of its device. -/
structure Serving (s : WrapperState × Interference) :
    Prop where
  discipline : Discipline s.1.cbThread
  empty :
    s.1.cbThread.mThread = false → pending s.1.cbThread = []
  inOrder :
    InOrder (OwnFunctions s.2) s.1.cbThread.userCbs
      (pending s.1.cbThread)

/- A step that leaves the worker and the history alone. -/
theorem Serving.of_same
    {s s' : WrapperState}
    {g g' : Interference}
    (hInv : Serving (s, g))
    (hWorker : s'.cbThread = s.cbThread)
    (hRegistered : g'.registered = g.registered)
    (hOrigin : g'.origin = g.origin) :
    Serving (s', g') where
  discipline := by
    rw [hWorker]
    exact hInv.discipline
  empty := by
    rw [hWorker]
    exact hInv.empty
  inOrder := by
    have hOwn : OwnFunctions g' = OwnFunctions g := by
      unfold OwnFunctions
      rw [hRegistered, hOrigin]
    rw [hWorker, hOwn]
    exact hInv.inOrder

/- An action of a call that is not over. -/
theorem Serving.act
    {b device : Pointer}
    {s s' : WrapperState}
    {g : Interference}
    {action : Action}
    (hInv : Serving (s, g))
    (hDiscipline : Discipline s'.cbThread)
    (hEffect : WorkerEffect s.cbThread action s'.cbThread)
    (hExit : action ≠ .exitThread)
    (hJoin : action ≠ .joinThread) :
    Serving (s', g.act b s device action) := by
  generalize hNext : s'.cbThread = w at hEffect
  cases hEffect with
  | kept hClear hUpdate =>
      cases action with
      | clearCallbacks => exact absurd rfl hClear
      | setCallbacks data => exact absurd rfl (hUpdate data)
      | _ => exact hInv.of_same hNext rfl rfl
  | cleared hThread =>
      have hKept : Serving (s', g) := by
        refine ⟨hDiscipline, ?_, ?_⟩
        · rw [hNext]
          intro hNone
          cases hThread.symm.trans hNone
        · rw [hNext, pending_discardQueue]
          exact (inOrder_append.mp hInv.inOrder).1
      rw [Interference.act_clearCallbacks]
      split
      · exact hKept
      · exact hKept.of_same rfl rfl rfl
  | updated hThread =>
      rename_i data now
      have hKept : Serving (s', g) := by
        refine ⟨hDiscipline, ?_, ?_⟩
        · rw [hNext]
          intro hNone
          cases hThread.symm.trans hNone
        · rw [hNext, pending_enqueue]
          refine inOrder_append.mpr ⟨hInv.inOrder, ?_, trivial⟩
          intro message earlier hPayload
          cases hPayload
      rw [Interference.act_setCallbacks]
      split
      · -- more registrations redirect nothing
        refine ⟨hDiscipline, hKept.empty,
          hKept.inOrder.mono ?_⟩
        intro msg _ cbs hOwn message earlier hPayload hOrigin
          hSome
        rw [List.drop_append]
        exact List.mem_append_left _
          (hOwn message earlier hPayload hOrigin hSome)
      · exact hKept
  | exiting hThread =>
      exact absurd rfl hExit
  | joined hJoining =>
      exact absurd rfl hJoin

/- A callback is posted behind functions of its device. -/
theorem Serving.post
    {b device : Pointer}
    {s : WrapperState}
    {g : Interference}
    {index : Nat}
    {now : Int}
    {message : WorkerMessage}
    (hInv : Serving (s, g))
    (hAlone :
      LeavesAlone b (s, g) ⟨device, .post index now⟩)
    (hThread : s.cbThread.mThread = true)
    (hDiscipline :
      Discipline
        (enqueue s.cbThread (.executeCallback message) now)) :
    Serving
      ({ s with
          cbThread :=
            enqueue s.cbThread (.executeCallback message) now
          raised := s.raised.eraseIdx index },
        g.record b s ⟨device, .post index now⟩) := by
  refine ⟨hDiscipline, ?_, ?_⟩
  · intro hNone
    cases hThread.symm.trans hNone
  · rw [pending_enqueue]
    refine inOrder_append.mpr ⟨?_, ?_, trivial⟩
    · -- a used serial keeps its origin
      refine hInv.inOrder.mono ?_
      intro msg hMem cbs hOwn other earlier hPayload hOrigin
      have hSerial := hInv.discipline.serial_lt hMem
      simp only [Interference.record,
        if_neg (Nat.ne_of_lt hSerial)] at hOrigin
      exact hOwn other earlier hPayload hOrigin
    · intro other earlier _ hOrigin hSome
      simp only [Interference.record, if_true] at hOrigin
      simp only [LeavesAlone, hOrigin] at hAlone
      exact hAlone hSome

/- The worker comes to a message with functions of its device. -/
theorem Serving.handle
    {s : WrapperState}
    {g : Interference}
    {msg : ThreadMsg}
    (hInv : Serving (s, g))
    (hPhase : s.cbThread.phase = .holding msg)
    (now : Int)
    (hDiscipline :
      Discipline (handleMessage s.cbThread msg now)) :
    Serving
        ({ s with
            cbThread := handleMessage s.cbThread msg now },
          g) ∧
      OwnFunctions g s.cbThread.userCbs msg := by
  rcases pending_handleMessage hPhase now with
    ⟨hPending, hRest, hThread, _⟩
  have hInOrder := hInv.inOrder
  rw [hPending] at hInOrder
  refine ⟨⟨hDiscipline, ?_, ?_⟩, hInOrder.1⟩
  · intro hNone
    rw [hThread] at hNone
    have hEmpty := hInv.empty hNone
    rw [hPending] at hEmpty
    cases hEmpty
  · rcases hRest with ⟨hQueue, hCbs⟩ | hNone
    · rw [hQueue, hCbs]
      exact hInOrder.2
    · rw [hNone]
      trivial

end Camera

end Universal7420

------------------------------------------------------------
-- Steps
------------------------------------------------------------

namespace Universal7420

namespace Camera

/- Nothing has happened to a callback, and nothing will. -/
structure LeftAlone
    (b : Pointer)
    (s : WrapperState × Interference) : Prop where
  plain : ∀ call ∈ s.1.calls, Plain call.remaining
  blocking : Blocking b s
  clearing : Clearing b s
  serving : Serving s
  undisturbed : Undisturbed s.2

theorem leftAlone_initial
    (b : Pointer) :
    LeftAlone b
      (WrapperState.initial, Interference.initial) where
  plain := by
    intro call hMem
    cases hMem
  blocking := by
    intro hSet
    cases hSet
  clearing := by
    refine ⟨fun _ _ => rfl, ?_⟩
    intro call hMem
    cases hMem
  serving := ⟨discipline_initial, fun _ => rfl, trivial⟩
  undisturbed := by
    refine ⟨rfl, rfl, ?_⟩
    intro x hMem
    cases hMem

/- What an action adds to the queue is new. -/
theorem WorkerEffect.queue
    {w w' : WorkerState}
    {action : Action}
    (hEffect : WorkerEffect w action w') :
    w.log.pushed.length ≤ w'.log.pushed.length ∧
      ∀ msg ∈ w'.mQueue,
        msg ∈ w.mQueue ∨ w.log.pushed.length ≤ msg.serial := by
  have hEnqueue :
      ∀ payload now,
        w.log.pushed.length ≤
            (enqueue w payload now).log.pushed.length ∧
          ∀ msg ∈ (enqueue w payload now).mQueue,
            msg ∈ w.mQueue ∨
              w.log.pushed.length ≤ msg.serial := by
    intro payload now
    constructor
    · simp [enqueue]
    · intro msg hMsg
      rcases List.mem_append.mp hMsg with hOld | hNew
      · exact Or.inl hOld
      · rw [List.mem_singleton.mp hNew]
        exact Or.inr (Nat.le_refl _)
  cases hEffect with
  | kept hClear hUpdate =>
      exact ⟨Nat.le_refl _, fun _ => Or.inl⟩
  | cleared hThread =>
      refine ⟨Nat.le_refl _, ?_⟩
      intro msg hMsg
      cases hMsg
  | updated hThread =>
      exact hEnqueue _ _
  | exiting hThread =>
      exact hEnqueue _ _
  | joined hJoining =>
      exact ⟨Nat.le_refl _, fun _ => Or.inl⟩

/- An action of a call, if no callback is underway. -/
theorem Undisturbed.act
    {b device : Pointer}
    {s : WrapperState}
    {g : Interference}
    {action : Action}
    (hInv : Undisturbed g)
    (hQuiet :
      action = .clearCallbacks → device ≠ b →
        NoneUnderway (s, g)) :
    Undisturbed (g.act b s device action) := by
  cases action with
  | clearCallbacks =>
      rw [Interference.act_clearCallbacks]
      split
      · exact hInv
      · rename_i hOther
        have hNone :
            s.cbThread.mQueue.filter
              (fun msg => (g.origin msg.serial).isSome) =
                [] := by
          apply List.filter_eq_nil_iff.mpr
          intro msg hMsg
          rw [(hQuiet rfl hOther).2 msg hMsg]
          simp
        refine ⟨?_, hInv.blocked, hInv.own⟩
        rw [hNone, List.append_nil]
        exact hInv.discarded
  | setCallbacks data =>
      rw [Interference.act_setCallbacks]
      split
      · refine ⟨hInv.discarded, hInv.blocked, ?_⟩
        intro x hx hSome
        rcases hInv.own x hx hSome with ⟨own, hOwn, hCall⟩
        refine ⟨own, ?_, hCall⟩
        rw [List.drop_append]
        exact List.mem_append_left _ hOwn
      · exact hInv
  | _ =>
      exact ⟨hInv.discarded, hInv.blocked, hInv.own⟩

theorem act_raised
    (b : Pointer)
    (g : Interference)
    (s : WrapperState)
    (device : Pointer)
    (action : Action) :
    (g.act b s device action).raised = g.raised ∧
      (g.act b s device action).origin = g.origin := by
  cases action with
  | clearCallbacks =>
      rw [Interference.act_clearCallbacks]
      split
      · exact ⟨rfl, rfl⟩
      · exact ⟨rfl, rfl⟩
  | setCallbacks data =>
      rw [Interference.act_setCallbacks]
      split
      · exact ⟨rfl, rfl⟩
      · exact ⟨rfl, rfl⟩
  | _ =>
      exact ⟨rfl, rfl⟩

/- A step of a call in progress. -/
theorem LeftAlone.advance
    {b : Pointer}
    {s s' : WrapperState}
    {g g' : Interference}
    {index : Nat}
    (hInv : LeftAlone b (s, g))
    (hDiscipline : Discipline s'.cbThread)
    (hEffect : CallsEffect b s g index s' g') :
    LeftAlone b (s', g') := by
  have hPlain := hEffect.plain hInv.plain
  have hBlocking := hInv.blocking.advance hInv.plain hEffect
  -- a call that is going to clear was going to before
  have hQuiet :
      ∀ call ∈ s'.calls, call.device ≠ b →
        .clearCallbacks ∈ call.remaining →
        NoneUnderway (s, g) := by
    intro call hMem hOther hClears
    rcases hEffect.old_of_mem hMem with
      ⟨old, hOld, hDevice, hSame⟩
    refine hInv.clearing.quiet old hOld
      (fun hOwn => hOther (hDevice.symm.trans hOwn)) ?_
    rcases hSame with rfl | ⟨action, hNext⟩
    · exact hClears
    · rw [hNext]
      exact List.mem_cons_of_mem _ hClears
  cases hEffect with
  | returned hCall hDone hCalls hBlock hWorker hRaised =>
      refine ⟨hPlain, hBlocking, ?_,
        hInv.serving.of_same hWorker rfl rfl,
        hInv.undisturbed⟩
      refine hInv.clearing.of_fewer ?_ ?_ rfl
        (fun _ => Or.inl) hQuiet
      · exact Nat.le_of_eq (by rw [hWorker])
      · rw [hWorker]
        exact fun _ => Or.inl
  | acted ret hCall hNext hCalls hBlock hWorker hRaised =>
      rename_i call action rest
      have hMem := List.mem_of_getElem? hCall
      have hHead := hInv.plain call hMem
      rw [hNext] at hHead
      rcases act_raised b g s call.device action with
        ⟨hSame, hOrigin⟩
      refine ⟨hPlain, hBlocking, ?_, ?_, ?_⟩
      · refine hInv.clearing.of_fewer hWorker.queue.1
          hWorker.queue.2 hOrigin ?_ hQuiet
        rw [hSame]
        exact fun _ => Or.inl
      · exact hInv.serving.act hDiscipline hWorker
          hHead.1.2.2 hHead.1.2.1
      · refine hInv.undisturbed.act ?_
        rintro rfl hOther
        refine hInv.clearing.quiet call hMem hOther ?_
        rw [hNext]
        exact List.mem_cons_self

/- An operation begins. -/
theorem LeftAlone.begin
    {b device caller : Pointer}
    {operation : Operation}
    {s : WrapperState}
    {g : Interference}
    (hInv : LeftAlone b (s, g))
    (hAlone :
      LeavesAlone b (s, g)
        ⟨caller, .call device operation⟩) :
    LeftAlone b
      ({ s with
          calls := s.calls ++
            [{ device := device
               remaining := operation.actions
               ret := none
               locked := false }] }, g) where
  plain := by
    intro call hMem
    rcases List.mem_append.mp hMem with hOld | hNew
    · exact hInv.plain call hOld
    · rw [List.mem_singleton.mp hNew]
      exact operation.plain
  blocking :=
    hInv.blocking.mono rfl rfl
      (fun _ hMem => List.mem_append_left _ hMem)
  clearing := by
    refine hInv.clearing.of_fewer (Nat.le_refl _)
      (fun _ => Or.inl) rfl (fun _ => Or.inl) ?_
    intro call hMem hOther hClears
    rcases List.mem_append.mp hMem with hOld | hNew
    · exact hInv.clearing.quiet call hOld hOther hClears
    · rw [List.mem_singleton.mp hNew] at hOther hClears
      exact hAlone hOther hClears
  serving := hInv.serving.of_same rfl rfl rfl
  undisturbed := hInv.undisturbed

/- A new device finds the worker that there is, or a new one. -/
theorem LeftAlone.opened
    {b : Pointer}
    {s s' : WrapperState}
    {g : Interference}
    {name : Option String}
    {answers : OpenAnswers}
    (hInv : LeftAlone b (s, g))
    (hDiscipline : Discipline s'.cbThread)
    (hOpen : camera2DeviceOpen s name answers = some s') :
    LeftAlone b (s', { g with blocker := none }) := by
  rcases camera2DeviceOpen_creates hOpen with
    ⟨hCreate, _, hBlock⟩
  have hCalls := (camera2DeviceOpen_effect hOpen).1
  have hPending :=
    pending_createThread hInv.serving.discipline hCreate
  have hQuiet :
      ∀ call ∈ s'.calls, call.device ≠ b →
        .clearCallbacks ∈ call.remaining →
        NoneUnderway (s, g) := by
    rw [hCalls]
    exact hInv.clearing.quiet
  constructor
  case plain =>
    rw [hCalls]
    exact hInv.plain
  case blocking =>
    intro hSet
    rw [hBlock] at hSet
    cases hSet
  case undisturbed =>
    exact ⟨hInv.undisturbed.discarded,
      hInv.undisturbed.blocked, hInv.undisturbed.own⟩
  case clearing =>
    generalize hNext : s'.cbThread = w at hCreate
    cases workerStep_transition hCreate with
    | present hThread | created hThread =>
        refine hInv.clearing.of_fewer ?_ ?_ rfl
          (fun _ => Or.inl) hQuiet
        · exact Nat.le_of_eq (by rw [hNext])
        · rw [hNext]
          exact fun _ => Or.inl
    | posting hThread hCall =>
        cases hCall
  case serving =>
    generalize hNext : s'.cbThread = w at hCreate
    cases workerStep_transition hCreate with
    | present hThread =>
        exact hInv.serving.of_same hNext rfl rfl
    | created hThread =>
        have hEmpty : pending s'.cbThread = [] :=
          hPending.trans (hInv.serving.empty hThread)
        refine ⟨hDiscipline, fun _ => hEmpty, ?_⟩
        rw [hEmpty]
        trivial
    | posting hThread hCall =>
        cases hCall

/- A callback of the device is not blocked by another one. -/
theorem LeftAlone.dropped
    {b device : Pointer}
    {callback : HalCallback}
    {s : WrapperState}
    {g : Interference}
    (hInv : LeftAlone b (s, g))
    (hAlone :
      LeavesAlone b (s, g) ⟨device, .raise callback⟩)
    (hBlock : s.blockCbs = 1) :
    LeftAlone b
      (s, g.record b s ⟨device, .raise callback⟩) := by
  have hOwn : ¬ (device = b ∧ g.blocker ≠ some b) := by
    rintro ⟨hDevice, hOther⟩
    rcases hInv.blocking hBlock with ⟨d, hSet, hLifts⟩
    by_cases hSame : d = b
    · exact hOther (hSame ▸ hSet)
    · rcases hLifts hSame with ⟨call, hMem, rfl, hLater⟩
      exact (hAlone hDevice call hMem hSame).2 hLater
  simp only [Interference.record, if_pos hBlock, if_neg hOwn]
  exact hInv

/- A callback of some device passes the test of the flag. -/
theorem LeftAlone.raised
    {b device : Pointer}
    {callback : HalCallback}
    {s : WrapperState}
    {g : Interference}
    (hInv : LeftAlone b (s, g))
    (hAlone :
      LeavesAlone b (s, g) ⟨device, .raise callback⟩)
    (hBlock : s.blockCbs ≠ 1) :
    LeftAlone b
      ({ s with raised := s.raised ++ [callback.message] },
        g.record b s ⟨device, .raise callback⟩) := by
  simp only [Interference.record, if_neg hBlock]
  refine ⟨hInv.plain,
    hInv.blocking.mono rfl rfl (fun _ hMem => hMem), ?_,
    hInv.serving.of_same rfl rfl rfl,
    ⟨hInv.undisturbed.discarded, hInv.undisturbed.blocked,
      hInv.undisturbed.own⟩⟩
  by_cases hOwn : device = b
  · refine ⟨hInv.clearing.fresh, ?_⟩
    intro call hMem hOther hClears
    exact absurd hClears (hAlone hOwn call hMem hOther).1
  · rw [if_neg hOwn]
    refine hInv.clearing.of_fewer (Nat.le_refl _)
      (fun _ => Or.inl) rfl ?_ hInv.clearing.quiet
    intro earlier hMem
    rcases List.mem_append.mp hMem with hOld | hNew
    · exact Or.inl hOld
    · exact Or.inr (List.mem_singleton.mp hNew)

/- The worker goes on to the next message. -/
theorem LeftAlone.dequeued
    {b : Pointer}
    {s : WrapperState}
    {g : Interference}
    {w : WorkerState}
    (hInv : LeftAlone b (s, g))
    (hDiscipline : Discipline w)
    (hWorker : workerStep s.cbThread .dequeue = some w) :
    LeftAlone b ({ s with cbThread := w }, g) := by
  rcases pending_dequeue hWorker with
    ⟨hPending, hCbs, hThread, hPushed⟩
  refine ⟨hInv.plain,
    hInv.blocking.mono rfl rfl (fun _ hMem => hMem), ?_,
    ⟨hDiscipline, ?_, ?_⟩, hInv.undisturbed⟩
  · refine hInv.clearing.of_fewer ?_ ?_ rfl
      (fun _ => Or.inl) hInv.clearing.quiet
    · exact Nat.le_of_eq (by rw [hPushed])
    · cases workerStep_transition hWorker with
      | posting hAlive hCall =>
          cases hCall
      | dequeued hPhase hQueue =>
          rw [hQueue]
          exact fun _ hMem =>
            Or.inl (List.mem_cons_of_mem _ hMem)
  · rw [hPending, hThread]
    exact hInv.serving.empty
  · rw [hPending, hCbs]
    exact hInv.serving.inOrder

/- What the worker executes goes through own functions. -/
theorem Undisturbed.handle
    {g : Interference}
    {w : WorkerState}
    {msg : ThreadMsg}
    (hInv : Undisturbed g)
    (hPhase : w.phase = .holding msg)
    (hOwn : OwnFunctions g w.userCbs msg)
    (now : Int) :
    Undisturbed (g.handle w now) := by
  unfold Interference.handle
  simp only [hPhase]
  split
  · rename_i message earlier hPayload hOrigin
    split
    · refine ⟨hInv.discarded, hInv.blocked, ?_⟩
      intro x hMem
      rcases List.mem_append.mp hMem with hOld | hNew
      · exact hInv.own x hOld
      · rw [List.mem_singleton.mp hNew]
        intro hSome
        exact ⟨w.userCbs,
          hOwn message earlier hPayload hOrigin hSome, rfl⟩
    · exact hInv
  · exact hInv

theorem handle_kept
    (g : Interference)
    (w : WorkerState)
    (now : Int) :
    (g.handle w now).registered = g.registered ∧
      (g.handle w now).raised = g.raised ∧
      (g.handle w now).origin = g.origin ∧
      (g.handle w now).blocker = g.blocker := by
  unfold Interference.handle
  split
  · split
    · split
      · exact ⟨rfl, rfl, rfl, rfl⟩
      · exact ⟨rfl, rfl, rfl, rfl⟩
    · exact ⟨rfl, rfl, rfl, rfl⟩
  · exact ⟨rfl, rfl, rfl, rfl⟩

/- Handling a message leaves the queue, or empties it. -/
theorem handleMessage_queue
    (w : WorkerState)
    (msg : ThreadMsg)
    (now : Int) :
    ∀ other ∈ (handleMessage w msg now).mQueue,
      other ∈ w.mQueue := by
  unfold handleMessage
  split
  · unfold executeCallback
    split
    · exact fun _ hMem => hMem
    · exact fun _ hMem => hMem
  · exact fun _ hMem => hMem
  · intro other hMem
    cases hMem

theorem LeftAlone.handled
    {b device : Pointer}
    {s : WrapperState}
    {g : Interference}
    {msg : ThreadMsg}
    (hInv : LeftAlone b (s, g))
    (hPhase : s.cbThread.phase = .holding msg)
    (now : Int)
    (hDiscipline :
      Discipline (handleMessage s.cbThread msg now)) :
    LeftAlone b
      ({ s with
          cbThread := handleMessage s.cbThread msg now },
        g.record b s ⟨device, .handle now⟩) := by
  simp only [Interference.record]
  rcases hInv.serving.handle hPhase now hDiscipline with
    ⟨hServing, hOwn⟩
  rcases handle_kept g s.cbThread now with
    ⟨hRegistered, hRaised, hOrigin, hBlocker⟩
  have hPushed := (pending_handleMessage hPhase now).2.2.2
  refine ⟨hInv.plain,
    hInv.blocking.mono rfl hBlocker (fun _ hMem => hMem), ?_,
    hServing.of_same rfl hRegistered hOrigin,
    hInv.undisturbed.handle hPhase hOwn now⟩
  refine hInv.clearing.of_fewer ?_ ?_ hOrigin ?_
    hInv.clearing.quiet
  · exact Nat.le_of_eq (by rw [hPushed])
  · intro other hMem
    exact Or.inl (handleMessage_queue _ _ _ other hMem)
  · rw [hRaised]
    exact fun _ => Or.inl

/- Every step that leaves the device alone. -/
theorem LeftAlone.step
    {b : Pointer}
    {s s' : WrapperState × Interference}
    {e : CameraEvent}
    (hInv : LeftAlone b s)
    (hAlone : LeavesAlone b s e)
    (hStep : (camerasSystem b).step s e = some s') :
    LeftAlone b s' := by
  rcases s with ⟨s, g⟩
  rcases s' with ⟨s', g'⟩
  rcases e with ⟨device, e⟩
  rcases EventSystem.withGhost_step_eq_some_iff _ |>.mp hStep
    with ⟨hOpen, rfl⟩
  rcases EventSystem.restrict_step_eq_some_iff _ |>.mp hOpen
    with ⟨hAllowed, hWrapper⟩
  have hDiscipline : Discipline s'.cbThread :=
    hInv.serving.discipline.of_reaches
      (wrapperStep_worker hWrapper)
  cases wrapperStep_transition hWrapper with
  | opened hOpened =>
      exact hInv.opened hDiscipline hOpened
  | closing hLock hDevice =>
      exact absurd hAllowed id
  | calling hDevice =>
      exact hInv.begin hAlone
  | advanced hAdvance =>
      exact hInv.advance hDiscipline
        (advance_callsEffect hInv.plain hAlone hAdvance)
  | dropped hBlock =>
      exact hInv.dropped hAlone hBlock
  | raised hBlock =>
      exact hInv.raised hAlone hBlock
  | posted hMessage hPost =>
      rcases postMessage_eq_some hPost with ⟨hThread, rfl⟩
      exact ⟨hInv.plain,
        hInv.blocking.mono rfl rfl (fun _ hMem => hMem),
        hInv.clearing.post hInv.serving.discipline,
        hInv.serving.post hAlone hThread hDiscipline,
        ⟨hInv.undisturbed.discarded,
          hInv.undisturbed.blocked, hInv.undisturbed.own⟩⟩
  | dequeued hWorker =>
      exact hInv.dequeued hDiscipline hWorker
  | handled hWorker =>
      cases workerStep_transition hWorker with
      | posting hThread hCall =>
          cases hCall
      | handled hPhase =>
          exact hInv.handled hPhase _ hDiscipline

/-
  In every run whose steps leave a device alone, no other
  device discards or blocks one of its callbacks, and all that
  are executed go through the functions it registered.
-/
theorem cameras_undisturbed
    {b : Pointer}
    {es : List CameraEvent}
    {s : WrapperState × Interference}
    (hAlone :
      (camerasSystem b).Guarded (LeavesAlone b)
        (camerasSystem b).init es)
    (hRun : (camerasSystem b).run es = some s) :
    Undisturbed s.2 := by
  have hStep :
      ∀ t e t', LeftAlone b t → LeavesAlone b t e →
        (camerasSystem b).step t e = some t' →
        LeftAlone b t' := by
    intro t e t' hInv hGuard hNext
    exact hInv.step hGuard hNext
  have hEnd : LeftAlone b s :=
    (camerasSystem b).invariant_of_guarded hStep
      (leftAlone_initial b) hAlone hRun
  exact hEnd.undisturbed

/- Steps of everybody but the HAL. -/
def unlabelled (es : List WrapperEvent) : List CameraEvent :=
  es.map (fun e => ⟨0, e⟩)

/- One whole `set_callbacks`, and the worker handles it. -/
def registerRun
    (device notifyCb : Pointer) : List CameraEvent :=
  unlabelled
    [ .call device (.setCallbacks notifyCb 0 0 0 device)
    , .advance 0 0 0
    , .advance 0 0 0
    , .advance 0 0 0
    , .dequeue
    , .handle 0 ]

def bothOpenRun : List CameraEvent :=
  unlabelled
    [ .deviceOpen (some "0") openAnswers
    , .deviceOpen (some "1") secondAnswers ]

/- The second camera raises a callback with its own user. -/
def secondRaises : CameraEvent :=
  ⟨24, .raise (.notify 4 1 0 24)⟩

def executeRun : List CameraEvent :=
  unlabelled [.post 0 0, .dequeue, .handle 0]

/- What has been executed of it. -/
def secondExecuted (call : Option UserCall) : Execution :=
  ⟨1, (HalCallback.notify 4 1 0 24).message, call⟩

/-
  The second camera registers last, and the first one begins to
  focus when the callback of the second has been executed.
-/
def politeRun : List CameraEvent :=
  bothOpenRun ++ registerRun 8 41 ++ registerRun 24 51 ++
    [secondRaises] ++ executeRun ++
    unlabelled [.call 8 .autoFocus, .advance 0 0 0]

theorem cameras_undisturbed_politeRun :
    ∃ s,
      (camerasSystem 24).run politeRun = some s ∧
      s.2.executed =
        [secondExecuted (some (.notify 51 4 1 0 24))] ∧
      Undisturbed s.2 := by
  have hAlone :
      (camerasSystem 24).Guarded (LeavesAlone 24)
        (camerasSystem 24).init politeRun := by
    decide
  exact ⟨_, rfl, rfl, cameras_undisturbed hAlone rfl⟩

/-
  The first camera registers last, so that its function is
  called with the user of the second, or none if it registers
  null; its `auto_focus` throws a callback of the second away;
  and its `stop_preview` blocks one.
-/
theorem cameras_disturbed :
    (∃ s,
      (camerasSystem 24).run
          (bothOpenRun ++ registerRun 24 51 ++
            registerRun 8 41 ++ [secondRaises] ++
            executeRun) = some s ∧
      s.1.devices = [8, 24] ∧
      s.2.registered = [⟨51, 0⟩] ∧
      s.2.executed =
        [secondExecuted (some (.notify 41 4 1 0 24))] ∧
      ¬ Undisturbed s.2) ∧
    (∃ s,
      (camerasSystem 24).run
          (bothOpenRun ++ registerRun 24 51 ++
            registerRun 8 0 ++ [secondRaises] ++
            executeRun) = some s ∧
      s.1.devices = [8, 24] ∧
      s.2.registered = [⟨51, 0⟩] ∧
      s.2.executed = [secondExecuted none] ∧
      ¬ Undisturbed s.2) ∧
    (∃ s msg,
      (camerasSystem 24).run
          (bothOpenRun ++ registerRun 24 51 ++
            [secondRaises] ++
            unlabelled
              [.post 0 0, .call 8 .autoFocus
              , .advance 0 0 0]) = some s ∧
      s.1.devices = [8, 24] ∧
      s.2.discarded = [msg] ∧
      ¬ Undisturbed s.2) ∧
    (∃ s,
      (camerasSystem 24).run
          (bothOpenRun ++ registerRun 24 51 ++
            unlabelled [.call 8 .stopPreview, .advance 0 0 0] ++
            [secondRaises]) = some s ∧
      s.1.devices = [8, 24] ∧
      s.2.blocked = [.notify 4 1 0 24] ∧
      ¬ Undisturbed s.2) := by
  have hForeign :
      ∀ (g : Interference) (call : Option UserCall),
        g.registered = [⟨51, 0⟩] →
        g.executed = [secondExecuted call] →
        call ≠ some (.notify 51 4 1 0 24) →
        ¬ Undisturbed g := by
    intro g call hRegistered hExecuted hOther hNone
    have hOwn := hNone.own (secondExecuted call)
      (by rw [hExecuted]; exact List.mem_singleton_self _)
      Nat.one_pos
    rw [hRegistered] at hOwn
    rcases hOwn with ⟨own, hMem, hCall⟩
    rw [List.mem_singleton.mp hMem] at hCall
    exact hOther hCall
  refine ⟨⟨_, rfl, rfl, rfl, rfl, ?_⟩,
    ⟨_, rfl, rfl, rfl, rfl, ?_⟩,
    ⟨_, _, rfl, rfl, rfl, ?_⟩, ⟨_, rfl, rfl, rfl, ?_⟩⟩
  · exact hForeign _ _ rfl rfl (by decide)
  · exact hForeign _ _ rfl rfl (by decide)
  · intro hNone
    cases hNone.discarded
  · intro hNone
    cases hNone.blocked

end Camera

end Universal7420
