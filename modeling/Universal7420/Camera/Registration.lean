import Universal7420.Camera.QueueDiscipline

/-
  Registrations of user callbacks.

  New pointers travel through the queue that `ClearCallbacks`
  empties.  The worker ends up with the pointers of the last
  registration exactly in the runs in which no clear throws
  away an update that still makes a difference.

  Main declarations:
    * `Universal7420.Camera.registrationSystem`
    * `Universal7420.Camera.SettlesOnRegistration`
    * `Universal7420.Camera.KeepsRegistration`
    * `Universal7420.Camera.registration_settles_iff`
-/

------------------------------------------------------------
-- Registrations
------------------------------------------------------------

namespace Universal7420

namespace Camera

/- A worker that has just been created. -/
def WorkerState.started : WorkerState :=
  { WorkerState.initial with
    mThread := true
    phase := .waiting }

theorem started_eq :
    workerStep WorkerState.initial .createThread =
      some WorkerState.started :=
  rfl

/- The steps of registering, posting, clearing and handling. -/
def WorkerEvent.isRegistration : WorkerEvent → Bool
| .addCallback _ _ | .setCallbacks _ _ | .clearCallbacks
| .push _ | .clear | .dequeue | .handle _ => true
| .createThread | .exitThread _ | .join => false

/- The steps of the worker alone. -/
def WorkerEvent.isWorker : WorkerEvent → Bool
| .dequeue | .handle _ => true
| _ => false

/- One lifetime of a worker, without its end. -/
def registrationSystem :
    EventSystem WorkerState WorkerEvent where
  init := WorkerState.started
  step := fun s e =>
    if e.isRegistration then workerStep s e else none

/- The queue is empty and the worker holds no message. -/
def Quiet (s : WorkerState) : Prop :=
  s.mQueue = [] ∧ s.phase.hand = []

/- The worker has the pointers of the last registration. -/
def Registered (s : WorkerState) : Prop :=
  ∀ cbs, lastUpdate s.log.pushed = some cbs →
    s.userCbs = cbs

/-
  If only the worker goes on, it has the pointers of the last
  registration whenever nothing is left to do.
-/
def SettlesOnRegistration (s : WorkerState) : Prop :=
  ∀ es t,
    (∀ e ∈ es, WorkerEvent.isWorker e = true) →
    registrationSystem.runFrom s es = some t →
    Quiet t →
    Registered t

/- The pointers after the message in hand. -/
def afterHand (s : WorkerState) : CallbackData :=
  (lastUpdate s.phase.hand).getD s.userCbs

/- The pointers after all messages. -/
def eventual (s : WorkerState) : CallbackData :=
  (lastUpdate (s.phase.hand ++ s.mQueue)).getD s.userCbs

/-
  A clear finds no update in the queue, or the last one brings
  pointers that the worker has anyway after its message.
-/
def KeepsRegistration
    (s : WorkerState)
    (e : WorkerEvent) : Prop :=
  e = .clear →
    ∀ cbs, lastUpdate s.mQueue = some cbs →
      afterHand s = cbs

end Camera

end Universal7420

------------------------------------------------------------
-- The Invariant
------------------------------------------------------------

namespace Universal7420

namespace Camera

/- The last registration is still on its way, or has arrived. -/
structure OnItsWay (s : WorkerState) : Prop where
  discipline : Discipline s
  running : s.phase ≠ .absent
  noExit :
    ∀ msg ∈ s.phase.hand ++ s.mQueue,
      msg.payload ≠ .exitThread
  noExitPosted :
    ∀ call ∈ s.posting, call.payload ≠ .exitThread
  arrives :
    ∀ cbs, lastUpdate s.log.pushed = some cbs →
      eventual s = cbs

theorem onItsWay_started :
    OnItsWay WorkerState.started where
  discipline := discipline_initial.step started_eq
  running := by
    intro hAbsent
    cases hAbsent
  noExit := by
    intro msg hMsg
    cases hMsg
  noExitPosted := by
    intro call hCall
    cases hCall
  arrives := by
    intro cbs hCbs
    cases hCbs

theorem eventual_eq
    (s : WorkerState) :
    eventual s =
      (lastUpdate s.mQueue).getD (afterHand s) := by
  unfold eventual afterHand
  rw [lastUpdate_append]
  cases lastUpdate s.mQueue with
  | none =>
      rfl
  | some cbs =>
      rfl

/- Without a change of messages and pointers all stays. -/
theorem OnItsWay.of_same
    {s s' : WorkerState}
    (hInv : OnItsWay s)
    (hDiscipline : Discipline s')
    (hQueue : s'.mQueue = s.mQueue)
    (hPhase : s'.phase = s.phase)
    (hCbs : s'.userCbs = s.userCbs)
    (hPushed : s'.log.pushed = s.log.pushed)
    (hPosting :
      ∀ call ∈ s'.posting, call.payload ≠ .exitThread) :
    OnItsWay s' where
  discipline := hDiscipline
  running := by
    rw [hPhase]
    exact hInv.running
  noExit := by
    rw [hPhase, hQueue]
    exact hInv.noExit
  noExitPosted := hPosting
  arrives := by
    unfold eventual
    rw [hPushed, hPhase, hQueue, hCbs]
    exact hInv.arrives

theorem OnItsWay.posting
    {s : WorkerState}
    {e : WorkerEvent}
    {call : Posting}
    (hInv : OnItsWay s)
    (hEvent : e.isRegistration = true)
    (hCall : e.posting? = some call)
    (hDiscipline :
      Discipline
        { s with posting := s.posting ++ [call] }) :
    OnItsWay { s with posting := s.posting ++ [call] } := by
  have hPayload : call.payload ≠ .exitThread := by
    cases e with
    | addCallback data now =>
        cases hCall
        simp
    | setCallbacks data now =>
        cases hCall
        simp
    | exitThread now =>
        cases hEvent
    | _ =>
        cases hCall
  refine hInv.of_same hDiscipline rfl rfl rfl rfl ?_
  intro other hOther
  rcases List.mem_append.mp hOther with hOld | hNew
  · exact hInv.noExitPosted other hOld
  · rw [List.mem_singleton.mp hNew]
    exact hPayload

/- A pushed registration is the last one on its way. -/
theorem OnItsWay.push
    {s s' : WorkerState}
    {index : Nat}
    (hInv : OnItsWay s)
    (hPush : pushMessage s index = some s') :
    OnItsWay s' := by
  have hDiscipline := hInv.discipline.push hPush
  unfold pushMessage at hPush
  split at hPush
  · cases hPush
  · rename_i call hCall
    have hPayload : call.payload ≠ .exitThread :=
      hInv.noExitPosted call (List.mem_of_getElem? hCall)
    cases hPush
    refine ⟨hDiscipline, hInv.running, ?_, ?_, ?_⟩
    · intro msg hMsg
      rw [← List.append_assoc] at hMsg
      rcases List.mem_append.mp hMsg with hOld | hNew
      · exact hInv.noExit msg hOld
      · rw [List.mem_singleton.mp hNew]
        exact hPayload
    · intro other hOther
      exact hInv.noExitPosted other
        (List.mem_of_mem_eraseIdx hOther)
    · intro cbs hCbs
      unfold eventual
      rw [lastUpdate_append] at hCbs
      rw [← List.append_assoc, lastUpdate_append]
      cases hNew : lastUpdate
          [⟨s.log.pushed.length, call.payload,
            call.callerTS⟩] with
      | none =>
          rw [hNew, Option.none_or] at hCbs
          rw [Option.none_or]
          exact hInv.arrives cbs hCbs
      | some new =>
          rw [hNew, Option.some_or] at hCbs
          cases hCbs
          rfl

/- After a clear, only the message in hand is left. -/
theorem workerStep_clear
    {s s' : WorkerState}
    (hClear : workerStep s .clear = some s') :
    s'.phase = s.phase ∧
      s'.mQueue = [] ∧
      s'.posting = s.posting ∧
      s'.log.pushed = s.log.pushed ∧
      eventual s' = afterHand s := by
  cases workerStep_transition hClear with
  | posting hThread hCall =>
      cases hCall
  | cleared hClearing =>
      refine ⟨rfl, rfl, rfl, rfl, ?_⟩
      rw [eventual_eq]
      rfl

/- A clear leaves a worker that goes on. -/
theorem OnItsWay.running_after_clear
    {s s' : WorkerState}
    (hInv : OnItsWay s)
    (hClear : workerStep s .clear = some s') :
    s'.phase ≠ .absent ∧
      ∀ msg ∈ s'.phase.hand ++ s'.mQueue,
        msg.payload ≠ .exitThread := by
  rcases workerStep_clear hClear with
    ⟨hPhase, hQueue, _, _, _⟩
  rw [hPhase, hQueue, List.append_nil]
  refine ⟨hInv.running, ?_⟩
  intro msg hMsg
  exact hInv.noExit msg (List.mem_append_left _ hMsg)

/- A clear that loses nothing keeps the registration. -/
theorem OnItsWay.clear
    {s s' : WorkerState}
    (hInv : OnItsWay s)
    (hKeeps :
      ∀ cbs, lastUpdate s.mQueue = some cbs →
        afterHand s = cbs)
    (hClear : workerStep s .clear = some s') :
    OnItsWay s' := by
  rcases workerStep_clear hClear with
    ⟨_, _, hPosting, hPushed, hEventual⟩
  rcases hInv.running_after_clear hClear with
    ⟨hRunning, hNoExit⟩
  refine ⟨hInv.discipline.step hClear, hRunning, hNoExit,
    ?_, ?_⟩
  · rw [hPosting]
    exact hInv.noExitPosted
  · rw [hPushed, hEventual]
    intro cbs hCbs
    have hOld := hInv.arrives cbs hCbs
    rw [eventual_eq] at hOld
    cases hQueue : lastUpdate s.mQueue with
    | none =>
        rw [hQueue] at hOld
        exact hOld
    | some queued =>
        rw [hQueue] at hOld
        rw [hKeeps queued hQueue]
        exact hOld

/- A worker with a message and no exit goes on waiting. -/
theorem handleMessage_running
    (s : WorkerState)
    {msg : ThreadMsg}
    (hPayload : msg.payload ≠ .exitThread)
    (now : Int) :
    (handleMessage s msg now).phase = .waiting ∧
      (handleMessage s msg now).mQueue = s.mQueue ∧
      (handleMessage s msg now).posting = s.posting ∧
      (handleMessage s msg now).log.pushed =
        s.log.pushed ∧
      (handleMessage s msg now).userCbs =
        msg.update?.getD s.userCbs := by
  unfold handleMessage ThreadMsg.update?
  cases hCase : msg.payload with
  | exitThread =>
      exact absurd hCase hPayload
  | updateCallbacks data =>
      exact ⟨rfl, rfl, rfl, rfl, rfl⟩
  | executeCallback data =>
      dsimp only
      unfold executeCallback
      split
      · exact ⟨rfl, rfl, rfl, rfl, rfl⟩
      · exact ⟨rfl, rfl, rfl, rfl, rfl⟩

/- Handling a message brings the registration nearer. -/
theorem OnItsWay.handle
    {s : WorkerState}
    {msg : ThreadMsg}
    (hInv : OnItsWay s)
    (hPhase : s.phase = .holding msg)
    (now : Int) :
    OnItsWay (handleMessage s msg now) := by
  have hPayload : msg.payload ≠ .exitThread := by
    apply hInv.noExit
    rw [hPhase]
    simp [Phase.hand]
  rcases handleMessage_running s hPayload now with
    ⟨hWaiting, hQueue, hPosting, hPushed, hCbs⟩
  refine ⟨hInv.discipline.handle hPhase now, ?_, ?_, ?_, ?_⟩
  · rw [hWaiting]
    intro hAbsent
    cases hAbsent
  · intro other hOther
    rw [hWaiting, hQueue] at hOther
    exact hInv.noExit other
      (List.mem_append_right _ hOther)
  · rw [hPosting]
    exact hInv.noExitPosted
  · rw [hPushed]
    intro cbs hLast
    have hOld := hInv.arrives cbs hLast
    rw [eventual_eq, afterHand, hPhase] at hOld
    rw [eventual_eq, afterHand, hWaiting, hQueue, hCbs]
    simp only [Phase.hand, lastUpdate_singleton] at hOld
    exact hOld

/- Every step that keeps the registration keeps it on its way. -/
theorem OnItsWay.step
    {s s' : WorkerState}
    {e : WorkerEvent}
    (hInv : OnItsWay s)
    (hKeeps : KeepsRegistration s e)
    (hStep : registrationSystem.step s e = some s') :
    OnItsWay s' := by
  simp only [registrationSystem] at hStep
  split at hStep
  · rename_i hEvent
    have hDiscipline := hInv.discipline.step hStep
    cases workerStep_transition hStep with
    | present hThread =>
        cases hEvent
    | created hThread =>
        cases hEvent
    | absent hThread =>
        cases hEvent
    | joined hJoining hPhase =>
        cases hEvent
    | posting hThread hCall =>
        exact hInv.posting hEvent hCall hDiscipline
    | clearing hThread =>
        exact hInv.of_same hDiscipline rfl rfl rfl rfl
          hInv.noExitPosted
    | pushed hPush =>
        exact hInv.push hPush
    | cleared hClearing =>
        exact hInv.clear (hKeeps rfl) hStep
    | dequeued hPhase hQueue =>
        have hNoExit := hInv.noExit
        have hArrives := hInv.arrives
        unfold eventual at hArrives
        rw [hPhase, hQueue] at hNoExit hArrives
        refine ⟨hDiscipline, ?_, hNoExit,
          hInv.noExitPosted, hArrives⟩
        intro hAbsent
        cases hAbsent
    | handled hPhase =>
        exact hInv.handle hPhase _
  · cases hStep

end Camera

end Universal7420

------------------------------------------------------------
-- Letting The Worker Finish
------------------------------------------------------------

namespace Universal7420

namespace Camera

/- What a quiet worker ends up with, it has. -/
theorem eventual_of_quiet
    {s : WorkerState}
    (hQuiet : Quiet s) :
    eventual s = s.userCbs := by
  unfold eventual
  rw [hQuiet.1, hQuiet.2]
  rfl

/- A registration on its way is what the worker settles on. -/
theorem OnItsWay.settles
    {s : WorkerState}
    (hInv : OnItsWay s) :
    SettlesOnRegistration s := by
  intro es t hWorker hRun hQuiet cbs hLast
  have hKeep :
      ∀ u e v, OnItsWay u → e.isWorker = true →
        registrationSystem.step u e = some v →
        OnItsWay v := by
    intro u e v hOld hEvent hStep
    apply hOld.step _ hStep
    intro hClear
    rw [hClear] at hEvent
    cases hEvent
  have hGuard :=
    registrationSystem.guarded_of_forall
      (G := fun _ e => e.isWorker = true)
      (fun e he _ => hWorker e he) s
  have hEnd : OnItsWay t :=
    registrationSystem.invariant_of_guarded hKeep hInv
      hGuard hRun
  rw [← eventual_of_quiet hQuiet]
  exact hEnd.arrives cbs hLast

/- A waiting worker can empty its queue. -/
theorem waiting_can_finish
    {s : WorkerState}
    (hPhase : s.phase = .waiting)
    (hNoExit :
      ∀ msg ∈ s.mQueue, msg.payload ≠ .exitThread) :
    ∃ t,
      registrationSystem.ReachesBy
          (fun e => e.isWorker = true) s t ∧
      Quiet t ∧
      t.log.pushed = s.log.pushed ∧
      t.userCbs = (lastUpdate s.mQueue).getD s.userCbs := by
  generalize hQueue : s.mQueue = queue
  induction queue generalizing s with
  | nil =>
      refine ⟨s, EventSystem.ReachesBy.refl _ _ s,
        ⟨hQueue, ?_⟩, rfl, rfl⟩
      rw [hPhase]
      rfl
  | cons msg rest ih =>
      let held : WorkerState :=
        { s with mQueue := rest, phase := .holding msg }
      have hTake :
          registrationSystem.step s .dequeue =
            some held := by
        simp [registrationSystem,
          WorkerEvent.isRegistration, workerStep, hPhase,
          hQueue, held]
      have hHandle :
          registrationSystem.step held (.handle 0) =
            some (handleMessage held msg 0) := by
        rfl
      have hPayload : msg.payload ≠ .exitThread := by
        apply hNoExit
        simp [hQueue]
      rcases handleMessage_running held hPayload 0 with
        ⟨hWaiting, hRest, _, hPushed, hCbs⟩
      have hRestNoExit :
          ∀ other ∈ (handleMessage held msg 0).mQueue,
            other.payload ≠ .exitThread := by
        intro other hOther
        rw [hRest] at hOther
        apply hNoExit
        rw [hQueue]
        exact List.mem_cons_of_mem _ hOther
      rcases ih hWaiting hRestNoExit hRest with
        ⟨t, hReaches, hQuiet, hLog, hEnd⟩
      refine ⟨t,
        (hReaches.head hHandle rfl).head hTake rfl,
        hQuiet, ?_, ?_⟩
      · rw [hLog, hPushed]
      · rw [hEnd, hCbs,
          show msg :: rest = [msg] ++ rest from rfl,
          lastUpdate_append, lastUpdate_singleton]
        cases lastUpdate rest with
        | none =>
            rfl
        | some cbs =>
            rfl

/- The worker can finish, with the pointers to be expected. -/
theorem worker_can_finish
    {s : WorkerState}
    (hRunning : s.phase ≠ .absent)
    (hNoExit :
      ∀ msg ∈ s.phase.hand ++ s.mQueue,
        msg.payload ≠ .exitThread) :
    ∃ t,
      registrationSystem.ReachesBy
          (fun e => e.isWorker = true) s t ∧
      Quiet t ∧
      t.log.pushed = s.log.pushed ∧
      t.userCbs = eventual s := by
  cases hPhase : s.phase with
  | absent =>
      exact absurd hPhase hRunning
  | waiting =>
      rcases waiting_can_finish hPhase
          (fun msg hMsg =>
            hNoExit msg (List.mem_append_right _ hMsg)) with
        ⟨t, hReaches, hQuiet, hLog, hEnd⟩
      refine ⟨t, hReaches, hQuiet, hLog, ?_⟩
      rw [hEnd, eventual_eq, afterHand, hPhase]
      rfl
  | holding msg =>
      have hHandle :
          registrationSystem.step s (.handle 0) =
            some (handleMessage s msg 0) := by
        simp [registrationSystem,
          WorkerEvent.isRegistration, workerStep, hPhase]
      have hPayload : msg.payload ≠ .exitThread := by
        apply hNoExit
        simp [hPhase, Phase.hand]
      rcases handleMessage_running s hPayload 0 with
        ⟨hWaiting, hRest, _, hPushed, hCbs⟩
      have hRestNoExit :
          ∀ other ∈ (handleMessage s msg 0).mQueue,
            other.payload ≠ .exitThread := by
        intro other hOther
        rw [hRest] at hOther
        exact hNoExit other
          (List.mem_append_right _ hOther)
      rcases waiting_can_finish hWaiting hRestNoExit with
        ⟨t, hReaches, hQuiet, hLog, hEnd⟩
      refine ⟨t, hReaches.head hHandle rfl, hQuiet,
        ?_, ?_⟩
      · rw [hLog, hPushed]
      · rw [hEnd, hCbs, hRest, eventual_eq, afterHand,
          hPhase]
        simp only [Phase.hand, lastUpdate_singleton]

end Camera

end Universal7420

------------------------------------------------------------
-- Clears
------------------------------------------------------------

namespace Universal7420

namespace Camera

theorem lastUpdate_isSome_of_sublist
    {msgs all : List ThreadMsg}
    {cbs : CallbackData}
    (hSublist : msgs.Sublist all)
    (hLast : lastUpdate msgs = some cbs) :
    ∃ last, lastUpdate all = some last := by
  unfold lastUpdate at hLast ⊢
  have hMem :
      cbs ∈ all.filterMap ThreadMsg.update? :=
    (hSublist.filterMap _).mem
      (List.mem_of_getLast? hLast)
  cases hAll :
      (all.filterMap ThreadMsg.update?).getLast? with
  | none =>
      rw [List.getLast?_eq_none_iff] at hAll
      rw [hAll] at hMem
      cases hMem
  | some last =>
      exact ⟨last, rfl⟩

/- What is queued last is the last registration. -/
theorem OnItsWay.queued_last
    {s : WorkerState}
    {cbs : CallbackData}
    (hInv : OnItsWay s)
    (hQueued : lastUpdate s.mQueue = some cbs) :
    lastUpdate s.log.pushed = some cbs := by
  have hSublist :
      s.mQueue.Sublist s.log.pushed := by
    refine List.Sublist.trans ?_ hInv.discipline.ordered
    rw [← List.append_assoc]
    exact List.sublist_append_right _ _
  rcases lastUpdate_isSome_of_sublist hSublist hQueued with
    ⟨last, hLast⟩
  have hEnd := hInv.arrives last hLast
  rw [eventual_eq, hQueued] at hEnd
  rw [hLast, ← hEnd]
  rfl

/-
  Where the last registration is on its way, a step may only
  lead to a state that settles on it if the step keeps it.
-/
theorem OnItsWay.step_settles_iff
    {s s' : WorkerState}
    {e : WorkerEvent}
    (hInv : OnItsWay s)
    (hStep : registrationSystem.step s e = some s') :
    SettlesOnRegistration s' ↔ KeepsRegistration s e := by
  constructor
  · intro hSettles hClear cbs hQueued
    rw [hClear] at hStep
    rcases workerStep_clear hStep with
      ⟨_, _, _, hPushed, hEventual⟩
    rcases hInv.running_after_clear hStep with
      ⟨hRunning, hNoExit⟩
    rcases worker_can_finish hRunning hNoExit with
      ⟨t, ⟨es, hWorker, hRun⟩, hQuiet, hLog, hEnd⟩
    have hLast : lastUpdate t.log.pushed = some cbs := by
      rw [hLog, hPushed]
      exact hInv.queued_last hQueued
    calc
      afterHand s = eventual s' := hEventual.symm
      _ = t.userCbs := hEnd.symm
      _ = cbs := hSettles es t hWorker hRun hQuiet cbs hLast
  · intro hKeeps
    exact (hInv.step hKeeps hStep).settles

end Camera

end Universal7420

------------------------------------------------------------
-- No Registration Is Lost
------------------------------------------------------------

namespace Universal7420

namespace Camera

/-
  In every state of a run the worker settles on the last
  registration, if and only if no clear of the run throws away
  an update that still makes a difference.
-/
theorem registration_settles_iff
    {es : List WorkerEvent}
    {final : WorkerState}
    (hRun : registrationSystem.run es = some final) :
    (∀ pre s, pre <+: es →
        registrationSystem.run pre = some s →
        SettlesOnRegistration s) ↔
      registrationSystem.Guarded KeepsRegistration
        WorkerState.started es := by
  refine registrationSystem.forall_prefix_iff_guarded
    ?_ ?_ ?_ onItsWay_started hRun
  · intro s hInv
    exact hInv.settles
  · intro s e s' hInv hStep
    exact hInv.step_settles_iff hStep
  · intro s e s' hInv hKeeps hStep
    exact hInv.step hKeeps hStep

/- The pointers of a client. -/
def clientCallbacks : CallbackData where
  newUserNotifyCb := 16
  newUserDataCb := 32

/- A clear after the worker has taken the update. -/
def lateClearRun : List WorkerEvent :=
  [.setCallbacks clientCallbacks 0, .push 0, .dequeue,
    .clearCallbacks, .clear, .handle 1]

theorem registration_settles_lateClearRun :
    ∃ final,
      registrationSystem.run lateClearRun = some final ∧
      Quiet final ∧
      final.userCbs = clientCallbacks ∧
      ∀ pre s, pre <+: lateClearRun →
        registrationSystem.run pre = some s →
        SettlesOnRegistration s := by
  refine ⟨_, rfl, ⟨rfl, rfl⟩, rfl, ?_⟩
  apply (registration_settles_iff rfl).mpr
  refine ⟨?_, fun s₁ hStep₁ => ?_⟩
  · intro hClear
    cases hClear
  cases hStep₁
  refine ⟨?_, fun s₂ hStep₂ => ?_⟩
  · intro hClear
    cases hClear
  cases hStep₂
  refine ⟨?_, fun s₃ hStep₃ => ?_⟩
  · intro hClear
    cases hClear
  cases hStep₃
  refine ⟨?_, fun s₄ hStep₄ => ?_⟩
  · intro hClear
    cases hClear
  cases hStep₄
  refine ⟨?_, fun s₅ hStep₅ => ⟨?_, fun _ _ => trivial⟩⟩
  · intro _ cbs hQueued
    cases hQueued
  · intro hClear
    cases hClear

/-
  A registration followed by `auto_focus`, before the worker
  has taken its message: the worker stays without pointers.
-/
theorem registration_lost :
    ∃ s,
      registrationSystem.run
          [.setCallbacks clientCallbacks 0, .push 0,
            .clearCallbacks, .clear] =
        some s ∧
      Quiet s ∧
      lastUpdate s.log.pushed = some clientCallbacks ∧
      s.userCbs = CallbackData.null ∧
      s.userCbs ≠ clientCallbacks := by
  refine ⟨_, rfl, ⟨rfl, rfl⟩, rfl, rfl, ?_⟩
  decide

end Camera

end Universal7420
