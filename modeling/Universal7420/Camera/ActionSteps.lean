import Universal7420.Camera.Camera2Wrapper

/-
  What the steps of the wrapper do to its worker.

  A post appends one message, a clear empties the queue, and
  the other actions leave both alone.  Later modules follow
  single callbacks through the queue and need no more than
  this.

  Main declarations:
    * `Universal7420.Camera.enqueue`
    * `Universal7420.Camera.Performed`
    * `Universal7420.Camera.WorkerEffect`
    * `Universal7420.Camera.Advanced`
    * `Universal7420.Camera.pending`
    * `Universal7420.Camera.calledMessage`
-/

------------------------------------------------------------
-- Posting And Clearing
------------------------------------------------------------

namespace Universal7420

namespace Camera

/- The worker with one more message. -/
def enqueue
    (w : WorkerState)
    (payload : Payload)
    (now : Int) : WorkerState :=
  { w with
    mQueue :=
      w.mQueue ++ [⟨w.log.pushed.length, payload, now⟩]
    joining :=
      if payload = .exitThread then w.joining + 1
      else w.joining
    log := { w.log with
      pushed :=
        w.log.pushed ++
          [⟨w.log.pushed.length, payload, now⟩] } }

/- A post needs a worker and appends its message. -/
theorem postMessage_eq_some
    {w w' : WorkerState}
    {payload : Payload}
    {now : Int}
    (hPost : postMessage w payload now = some w') :
    w.mThread = true ∧ w' = enqueue w payload now := by
  rcases Option.bind_eq_some_iff.mp hPost with
    ⟨middle, hBegin, hPush⟩
  unfold beginPost at hBegin
  split at hBegin
  · rename_i hThread
    cases hBegin
    refine ⟨hThread, ?_⟩
    have hCall :
        (w.posting ++ [⟨payload, now⟩])[w.posting.length]? =
          some (⟨payload, now⟩ : Posting) := by
      simp
    have hErase :
        (w.posting ++ [(⟨payload, now⟩ : Posting)]).eraseIdx
            w.posting.length =
          w.posting := by
      simp [List.eraseIdx_append_of_length_le]
    unfold pushMessage at hPush
    rw [hCall] at hPush
    simp only [hErase, Option.some.injEq] at hPush
    exact hPush.symm
  · cases hBegin

/- A clear needs a worker and empties its queue. -/
theorem clearMessages_eq_some
    {w w' : WorkerState}
    (hClear : clearMessages w = some w') :
    w.mThread = true ∧ w' = discardQueue w := by
  rcases Option.bind_eq_some_iff.mp hClear with
    ⟨middle, hFirst, hSecond⟩
  cases workerStep_transition hFirst with
  | posting hThread hCall =>
      cases hCall
  | clearing hThread =>
      refine ⟨hThread, ?_⟩
      cases workerStep_transition hSecond with
      | posting hThread hCall =>
          cases hCall
      | cleared hClearing =>
          simp only [discardQueue, Nat.add_sub_cancel]

end Camera

end Universal7420

------------------------------------------------------------
-- Actions
------------------------------------------------------------

namespace Universal7420

namespace Camera

/- The action that a call performs next. -/
def nextAction
    (s : WrapperState)
    (index : Nat) : Option Action :=
  s.calls[index]?.bind (fun call => call.remaining.head?)

/- What an action of a call can do. -/
inductive Performed
    (s : WrapperState)
    (call : Call)
    (now : Int)
    (answer : Int32) :
    Action → WrapperState → Flow → Prop where
| blocked
    {value : Int32} :
    Performed s call now answer (.setBlockCbs value)
      { s with blockCbs := value } (.continues call.ret)
| cleared
    {w : WorkerState}
    (hClear : clearMessages s.cbThread = some w) :
    Performed s call now answer .clearCallbacks
      { s with cbThread := w } (.continues call.ret)
| updated
    {data : CallbackData}
    {w : WorkerState}
    (hPost :
      postMessage s.cbThread (.updateCallbacks data) now =
        some w) :
    Performed s call now answer (.setCallbacks data)
      { s with cbThread := w } (.continues call.ret)
| asked
    {func : VendorCall} :
    Performed s call now answer (.vendorCall func)
      { s with
        vendorCalls :=
          s.vendorCalls ++ [(call.device, func)] }
      (.continues
        (if func.returnsInt then some answer else call.ret))
| armed :
    Performed s call now answer .armTimeGuard
      { s with cancelAFTimeGuard := now + 500 }
      (.continues call.ret)
| guarded
    (hActive : now < s.cancelAFTimeGuard) :
    Performed s call now answer .checkTimeGuard s
      (.returns (some 0))
| expired
    (hExpired : s.cancelAFTimeGuard ≤ now) :
    Performed s call now answer .checkTimeGuard s
      (.continues call.ret)
| freed :
    Performed s call now answer .freeDevice
      { s with devices := s.devices.erase call.device }
      (.continues call.ret)
| exiting
    {w : WorkerState}
    (hPost :
      postMessage s.cbThread .exitThread now = some w) :
    Performed s call now answer .exitThread
      { s with cbThread := w } (.continues call.ret)
| absent
    (hThread : s.cbThread.mThread = false) :
    Performed s call now answer .exitThread s
      (.returns call.ret)
| joined
    {w : WorkerState}
    (hJoin : workerStep s.cbThread .join = some w) :
    Performed s call now answer .joinThread
      { s with cbThread := w } (.continues call.ret)

theorem performAction_cases
    {s s' : WrapperState}
    {call : Call}
    {now : Int}
    {answer : Int32}
    {action : Action}
    {flow : Flow}
    (hStep :
      performAction s call now answer action =
        some (s', flow)) :
    Performed s call now answer action s' flow := by
  cases action with
  | setBlockCbs value =>
      cases hStep
      exact .blocked
  | clearCallbacks =>
      rcases Option.map_eq_some_iff.mp hStep with
        ⟨w, hClear, hPair⟩
      cases hPair
      exact .cleared hClear
  | setCallbacks data =>
      rcases Option.map_eq_some_iff.mp hStep with
        ⟨w, hPost, hPair⟩
      cases hPair
      exact .updated hPost
  | vendorCall func =>
      cases hStep
      exact .asked
  | armTimeGuard =>
      cases hStep
      exact .armed
  | checkTimeGuard =>
      simp only [performAction] at hStep
      split at hStep
      · rename_i hActive
        cases hStep
        exact .guarded (by omega)
      · rename_i hActive
        cases hStep
        exact .expired (by omega)
  | freeDevice =>
      cases hStep
      exact .freed
  | exitThread =>
      simp only [performAction] at hStep
      split at hStep
      · rcases Option.map_eq_some_iff.mp hStep with
          ⟨w, hPost, hPair⟩
        cases hPair
        exact .exiting hPost
      · rename_i hThread
        cases hStep
        exact .absent (by simpa using hThread)
  | joinThread =>
      rcases Option.map_eq_some_iff.mp hStep with
        ⟨w, hJoin, hPair⟩
      cases hPair
      exact .joined hJoin

/- The worker after an action of some call. -/
inductive WorkerEffect
    (w : WorkerState) :
    Action → WorkerState → Prop where
| kept
    {action : Action}
    (hClear : action ≠ .clearCallbacks)
    (hUpdate : ∀ data, action ≠ .setCallbacks data) :
    WorkerEffect w action w
| cleared
    (hThread : w.mThread = true) :
    WorkerEffect w .clearCallbacks (discardQueue w)
| updated
    {data : CallbackData}
    {now : Int}
    (hThread : w.mThread = true) :
    WorkerEffect w (.setCallbacks data)
      (enqueue w (.updateCallbacks data) now)
| exiting
    {now : Int}
    (hThread : w.mThread = true) :
    WorkerEffect w .exitThread (enqueue w .exitThread now)
| joined
    (hJoining : 0 < w.joining) :
    WorkerEffect w .joinThread
      { w with
        mThread := false
        joining := w.joining - 1 }

theorem WorkerEffect.of_clear
    {w w' : WorkerState}
    (hEffect : WorkerEffect w .clearCallbacks w') :
    w' = discardQueue w := by
  cases hEffect with
  | kept hClear hUpdate =>
      exact absurd rfl hClear
  | cleared hThread =>
      rfl

/- The callbacks on their way to the queue stay there. -/
theorem performAction_worker_effect
    {s s' : WrapperState}
    {call : Call}
    {now : Int}
    {answer : Int32}
    {action : Action}
    {flow : Flow}
    (hStep :
      performAction s call now answer action =
        some (s', flow)) :
    WorkerEffect s.cbThread action s'.cbThread ∧
      s'.raised = s.raised := by
  cases performAction_cases hStep with
  | cleared hClear =>
      rcases clearMessages_eq_some hClear with
        ⟨hThread, rfl⟩
      exact ⟨.cleared hThread, rfl⟩
  | updated hPost =>
      rcases postMessage_eq_some hPost with ⟨hThread, rfl⟩
      exact ⟨.updated hThread, rfl⟩
  | exiting hPost =>
      rcases postMessage_eq_some hPost with ⟨hThread, rfl⟩
      exact ⟨.exiting hThread, rfl⟩
  | joined hJoin =>
      cases workerStep_transition hJoin with
      | posting hThread hCall =>
          cases hCall
      | joined hJoining hPhase =>
          exact ⟨.joined hJoining, rfl⟩
  | _ =>
      exact ⟨.kept (by simp) (by simp), rfl⟩

/- What the next step of a call can be. -/
inductive Advanced
    (s : WrapperState)
    (index : Nat)
    (now : Int)
    (answer : Int32) :
    WrapperState → Prop where
| returned
    {call : Call}
    (hCall : s.calls[index]? = some call)
    (hDone : call.remaining = []) :
    Advanced s index now answer
      (returnFrom s index call call.ret)
| continued
    {call : Call}
    {action : Action}
    {rest : List Action}
    {t : WrapperState}
    {ret : Option Int32}
    (hCall : s.calls[index]? = some call)
    (hNext : call.remaining = action :: rest)
    (hAction :
      performAction s call now answer action =
        some (t, .continues ret)) :
    Advanced s index now answer
      { t with
        calls := t.calls.set index
          { call with
            remaining := rest
            ret := ret } }
| stopped
    {call : Call}
    {action : Action}
    {rest : List Action}
    {t : WrapperState}
    {ret : Option Int32}
    (hCall : s.calls[index]? = some call)
    (hNext : call.remaining = action :: rest)
    (hAction :
      performAction s call now answer action =
        some (t, .returns ret)) :
    Advanced s index now answer
      (returnFrom t index call ret)

theorem advance_cases
    {s s' : WrapperState}
    {index : Nat}
    {now : Int}
    {answer : Int32}
    (hStep : advance s index now answer = some s') :
    Advanced s index now answer s' := by
  unfold advance at hStep
  split at hStep
  · cases hStep
  · rename_i call hCall
    split at hStep
    · rename_i hDone
      cases hStep
      exact .returned hCall hDone
    · rename_i action rest hNext
      split at hStep
      · cases hStep
      · rename_i t ret hAction
        cases hStep
        exact .continued hCall hNext hAction
      · rename_i t ret hAction
        cases hStep
        exact .stopped hCall hNext hAction

/- A step of a call does what its next action does. -/
theorem advance_worker_effect
    {s s' : WrapperState}
    {index : Nat}
    {now : Int}
    {answer : Int32}
    (hStep : advance s index now answer = some s') :
    s'.raised = s.raised ∧
      ((nextAction s index = none ∧
          s'.cbThread = s.cbThread) ∨
        ∃ action,
          nextAction s index = some action ∧
          WorkerEffect s.cbThread action s'.cbThread) := by
  have hNextAction :
      ∀ {call action rest},
        s.calls[index]? = some call →
        call.remaining = action :: rest →
        nextAction s index = some action := by
    intro call action rest hCall hNext
    simp [nextAction, hCall, hNext]
  cases advance_cases hStep with
  | returned hCall hDone =>
      refine ⟨rfl, Or.inl ⟨?_, rfl⟩⟩
      simp [nextAction, hCall, hDone]
  | continued hCall hNext hAction =>
      rcases performAction_worker_effect hAction with
        ⟨hEffect, hRaised⟩
      exact ⟨hRaised,
        Or.inr ⟨_, hNextAction hCall hNext, hEffect⟩⟩
  | stopped hCall hNext hAction =>
      rcases performAction_worker_effect hAction with
        ⟨hEffect, hRaised⟩
      exact ⟨hRaised,
        Or.inr ⟨_, hNextAction hCall hNext, hEffect⟩⟩

end Camera

end Universal7420

------------------------------------------------------------
-- Pending Messages
------------------------------------------------------------

namespace Universal7420

namespace Camera

/- The messages that the worker has still to handle. -/
def pending (w : WorkerState) : List ThreadMsg :=
  w.phase.hand ++ w.mQueue

theorem pending_enqueue
    (w : WorkerState)
    (payload : Payload)
    (now : Int) :
    pending (enqueue w payload now) =
      pending w ++
        [⟨w.log.pushed.length, payload, now⟩] := by
  simp only [pending, enqueue, List.append_assoc]

theorem pending_discardQueue
    (w : WorkerState) :
    pending (discardQueue w) = w.phase.hand :=
  List.append_nil _

/- The first pending message moves into the worker's hands. -/
theorem pending_dequeue
    {w w' : WorkerState}
    (hStep : workerStep w .dequeue = some w') :
    pending w' = pending w ∧ w'.userCbs = w.userCbs ∧
      w'.mThread = w.mThread ∧
      w'.log.pushed = w.log.pushed := by
  cases workerStep_transition hStep with
  | posting hThread hCall =>
      cases hCall
  | dequeued hPhase hQueue =>
      refine ⟨?_, rfl, rfl, rfl⟩
      rw [pending, pending, hPhase, hQueue]
      rfl

/- A message that is not an exit leaves the others. -/
theorem pending_handleMessage
    {w : WorkerState}
    {msg : ThreadMsg}
    (hPhase : w.phase = .holding msg)
    (now : Int) :
    pending w = msg :: w.mQueue ∧
      (pending (handleMessage w msg now) = w.mQueue ∧
          (handleMessage w msg now).userCbs =
            msg.update?.getD w.userCbs ∨
        pending (handleMessage w msg now) = []) ∧
      (handleMessage w msg now).mThread = w.mThread ∧
      (handleMessage w msg now).log.pushed =
        w.log.pushed := by
  refine ⟨?_, ?_⟩
  · rw [pending, hPhase]
    rfl
  · unfold handleMessage ThreadMsg.update?
    cases msg.payload with
    | exitThread =>
        exact ⟨Or.inr rfl, rfl, rfl⟩
    | updateCallbacks data =>
        exact ⟨Or.inl ⟨rfl, rfl⟩, rfl, rfl⟩
    | executeCallback data =>
        dsimp only
        unfold executeCallback
        split
        · exact ⟨Or.inl ⟨rfl, rfl⟩, rfl, rfl⟩
        · exact ⟨Or.inl ⟨rfl, rfl⟩, rfl, rfl⟩

/- An open only creates a worker. -/
theorem camera2DeviceOpen_creates
    {s s' : WrapperState}
    {name : Option String}
    {answers : OpenAnswers}
    (hOpen : camera2DeviceOpen s name answers = some s') :
    workerStep s.cbThread .createThread =
        some s'.cbThread ∧
      s'.raised = s.raised ∧
      s'.blockCbs = 0 := by
  unfold camera2DeviceOpen at hOpen
  split at hOpen
  · cases hOpen
  · rcases Option.map_eq_some_iff.mp hOpen with
      ⟨w, hCreate, hState⟩
    rw [← hState]
    cases name with
    | none =>
        exact ⟨hCreate, rfl, rfl⟩
    | some name =>
        dsimp only
        split
        · exact ⟨hCreate, rfl, rfl⟩
        · exact ⟨hCreate, rfl, rfl⟩

end Camera

end Universal7420

------------------------------------------------------------
-- Executed Callbacks
------------------------------------------------------------

namespace Universal7420

namespace Camera

/- The message whose callback the worker calls, if it does. -/
def calledMessage
    (w : WorkerState)
    (now : Int) : Option (ThreadMsg × UserCall) :=
  match w.phase with
  | .holding msg =>
      match msg.payload with
      | .executeCallback data =>
          if now - msg.callerTS < 5 then
            (userCall w.userCbs data).map
              (fun call => (msg, call))
          else
            none
      | _ => none
  | _ => none

/- It is the call that handling the message logs. -/
theorem calledMessage_executed
    {w : WorkerState}
    {msg : ThreadMsg}
    (hPhase : w.phase = .holding msg)
    (now : Int) :
    (handleMessage w msg now).log.executed =
      w.log.executed ++
        ((calledMessage w now).map Prod.snd).toList := by
  unfold handleMessage calledMessage
  rw [hPhase]
  dsimp only
  cases msg.payload with
  | exitThread =>
      exact (List.append_nil _).symm
  | updateCallbacks data =>
      exact (List.append_nil _).symm
  | executeCallback data =>
      dsimp only
      unfold executeCallback
      split
      · cases userCall w.userCbs data with
        | none =>
            rfl
        | some call =>
            rfl
      · exact (List.append_nil _).symm

/- A message that is called is in the worker's hands. -/
theorem calledMessage_eq_some
    {w : WorkerState}
    {now : Int}
    {msg : ThreadMsg}
    {call : UserCall}
    (hCalled : calledMessage w now = some (msg, call)) :
    w.phase = .holding msg ∧
      ∃ data,
        msg.payload = .executeCallback data ∧
        userCall w.userCbs data = some call := by
  unfold calledMessage at hCalled
  split at hCalled
  · rename_i held hPhase
    split at hCalled
    · rename_i data hPayload
      split at hCalled
      · rcases Option.map_eq_some_iff.mp hCalled with
          ⟨made, hCall, hPair⟩
        cases hPair
        exact ⟨hPhase, data, hPayload, hCall⟩
      · cases hCalled
    · cases hCalled
  · cases hCalled

end Camera

end Universal7420
