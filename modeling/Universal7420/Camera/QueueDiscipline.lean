import Universal7420.Camera.CallbackWorker

/-
  The discipline of the callback queue.

  One invariant ties the queue, the worker's hands and the log
  together: every message has one place, places change in push
  order, and the worker's pointers are those of the last
  update it has handled.

  Main declarations:
    * `Universal7420.Camera.lastUpdate`
    * `Universal7420.Camera.Discipline`
    * `Universal7420.Camera.Discipline.step`
    * `Universal7420.Camera.Discipline.executed_step`
    * `Universal7420.Camera.queue_discipline`
-/

------------------------------------------------------------
-- The Invariant
------------------------------------------------------------

namespace Universal7420

namespace Camera

/- The pointers of the last update among some messages. -/
def lastUpdate
    (msgs : List ThreadMsg) : Option CallbackData :=
  (msgs.filterMap ThreadMsg.update?).getLast?

theorem lastUpdate_append
    (msgs later : List ThreadMsg) :
    lastUpdate (msgs ++ later) =
      (lastUpdate later).or (lastUpdate msgs) := by
  simp [lastUpdate, List.getLast?_append]

theorem lastUpdate_singleton
    (msg : ThreadMsg) :
    lastUpdate [msg] = msg.update? := by
  unfold lastUpdate
  cases hUpdate : msg.update? with
  | none =>
      simp [hUpdate]
  | some data =>
      simp [hUpdate]

structure Discipline (s : WorkerState) : Prop where
  serials :
    s.log.pushed.map ThreadMsg.serial =
      List.range s.log.pushed.length
  ordered :
    (s.log.handled ++ (s.phase.hand ++ s.mQueue)).Sublist
      s.log.pushed
  placed :
    s.log.pushed.Perm
      (s.mQueue ++ (s.phase.hand ++
        (s.log.handled ++ s.log.discarded)))
  idle : s.mThread = false → s.phase = .absent
  pointers :
    s.userCbs =
      (lastUpdate s.log.lifetime).getD CallbackData.null

theorem discipline_initial :
    Discipline WorkerState.initial where
  serials := rfl
  ordered := List.Sublist.refl _
  placed := List.Perm.refl _
  idle := fun _ => rfl
  pointers := rfl

/- No message is pushed twice. -/
theorem Discipline.nodup
    {s : WorkerState}
    (hInv : Discipline s) :
    s.log.pushed.Nodup := by
  have hSerials :
      (s.log.pushed.map ThreadMsg.serial).Nodup := by
    rw [hInv.serials]
    exact List.nodup_range
  exact List.Nodup.of_map _ hSerials

end Camera

end Universal7420

------------------------------------------------------------
-- Steps
------------------------------------------------------------

namespace Universal7420

namespace Camera

/- A call that begins or ends moves no message. -/
theorem Discipline.of_same
    {s s' : WorkerState}
    (hInv : Discipline s)
    (hThread : s'.mThread = false → s'.phase = .absent)
    (hQueue : s'.mQueue = s.mQueue)
    (hPhase : s'.phase = s.phase)
    (hCbs : s'.userCbs = s.userCbs)
    (hLog : s'.log = s.log) :
    Discipline s' where
  serials := by
    rw [hLog]
    exact hInv.serials
  ordered := by
    rw [hLog, hPhase, hQueue]
    exact hInv.ordered
  placed := by
    rw [hLog, hPhase, hQueue]
    exact hInv.placed
  idle := hThread
  pointers := by
    rw [hLog, hCbs]
    exact hInv.pointers

/- A pushed message gets the next number and a place. -/
theorem Discipline.push
    {s s' : WorkerState}
    {index : Nat}
    (hInv : Discipline s)
    (hPush : pushMessage s index = some s') :
    Discipline s' := by
  unfold pushMessage at hPush
  split at hPush
  · cases hPush
  · rename_i call hCall
    cases hPush
    refine ⟨?_, ?_, ?_, hInv.idle, hInv.pointers⟩
    · simp [hInv.serials, List.range_succ]
    · simp only [← List.append_assoc]
      apply List.Sublist.append
      · simpa using hInv.ordered
      · exact List.Sublist.refl _
    · refine (hInv.placed.append_right _).trans ?_
      simp only [List.append_assoc]
      apply List.Perm.append_left
      have hLast :
          ∀ msg : ThreadMsg,
            ((s.phase.hand ++
                (s.log.handled ++ s.log.discarded)) ++
              [msg]).Perm
            ([msg] ++
              (s.phase.hand ++
                (s.log.handled ++ s.log.discarded))) := by
        intro msg
        exact List.perm_append_comm
      simpa only [List.append_assoc] using hLast _

/- A cleared queue is discarded. -/
theorem Discipline.discard
    {s : WorkerState}
    (hInv : Discipline s) :
    Discipline (discardQueue s) := by
  refine ⟨hInv.serials, ?_, ?_, hInv.idle, hInv.pointers⟩
  · have hPart :
        (s.log.handled ++ (s.phase.hand ++ [])).Sublist
          (s.log.handled ++ (s.phase.hand ++ s.mQueue)) := by
      apply List.Sublist.append_left
      apply List.Sublist.append_left
      exact List.nil_sublist _
    exact hPart.trans hInv.ordered
  · refine hInv.placed.trans ?_
    refine List.perm_append_comm.trans ?_
    simp only [discardQueue, List.nil_append,
      List.append_assoc]
    exact List.Perm.refl _

/- A message in hand becomes a handled one. -/
theorem Discipline.finish
    {s : WorkerState}
    {msg : ThreadMsg}
    (hInv : Discipline s)
    (hPhase : s.phase = .holding msg)
    {s' : WorkerState}
    (hThread : s'.mThread = s.mThread)
    (hQueue : s'.mQueue = s.mQueue)
    (hHand : s'.phase.hand = [])
    (hPushed : s'.log.pushed = s.log.pushed)
    (hHandled : s'.log.handled = s.log.handled ++ [msg])
    (hLifetime : s'.log.lifetime = s.log.lifetime ++ [msg])
    (hDiscarded : s'.log.discarded = s.log.discarded)
    (hCbs : s'.userCbs = msg.update?.getD s.userCbs) :
    Discipline s' where
  serials := by
    rw [hPushed]
    exact hInv.serials
  ordered := by
    have hOld := hInv.ordered
    rw [hPhase] at hOld
    rw [hPushed, hHandled, hHand, hQueue]
    simpa [Phase.hand] using hOld
  placed := by
    have hOld := hInv.placed
    rw [hPhase] at hOld
    rw [hPushed, hHandled, hHand, hQueue, hDiscarded]
    refine hOld.trans ?_
    apply List.Perm.append_left
    simp only [Phase.hand, List.nil_append,
      List.append_assoc, List.singleton_append]
    exact List.perm_middle.symm
  idle := by
    intro hNone
    rw [hThread] at hNone
    have hAbsent := hInv.idle hNone
    rw [hPhase] at hAbsent
    cases hAbsent
  pointers := by
    rw [hCbs, hLifetime, lastUpdate_append,
      lastUpdate_singleton, hInv.pointers]
    cases msg.update? with
    | none =>
        rfl
    | some data =>
        rfl

/- Handling a message keeps the discipline. -/
theorem Discipline.handle
    {s : WorkerState}
    {msg : ThreadMsg}
    (hInv : Discipline s)
    (hPhase : s.phase = .holding msg)
    (now : Int) :
    Discipline (handleMessage s msg now) := by
  unfold handleMessage
  cases hPayload : msg.payload with
  | executeCallback data =>
      have hUpdate : msg.update? = none := by
        simp [ThreadMsg.update?, hPayload]
      dsimp only
      unfold executeCallback
      split
      · exact hInv.finish hPhase rfl rfl rfl rfl rfl
          rfl rfl (by rw [hUpdate]; rfl)
      · exact hInv.finish hPhase rfl rfl rfl rfl rfl
          rfl rfl (by rw [hUpdate]; rfl)
  | updateCallbacks data =>
      have hUpdate : msg.update? = some data := by
        simp [ThreadMsg.update?, hPayload]
      exact hInv.finish hPhase rfl rfl rfl rfl rfl rfl
        rfl (by rw [hUpdate]; rfl)
  | exitThread =>
      have hUpdate : msg.update? = none := by
        simp [ThreadMsg.update?, hPayload]
      exact hInv.discard.finish hPhase rfl rfl
        rfl rfl rfl rfl rfl (by rw [hUpdate]; rfl)

/- Every step of every party keeps the discipline. -/
theorem Discipline.step
    {s s' : WorkerState}
    {e : WorkerEvent}
    (hInv : Discipline s)
    (hStep : workerStep s e = some s') :
    Discipline s' := by
  cases workerStep_transition hStep with
  | present hThread =>
      exact hInv
  | created hThread =>
      have hAbsent := hInv.idle hThread
      refine ⟨hInv.serials, ?_, ?_, ?_, rfl⟩
      · have hOld := hInv.ordered
        rw [hAbsent] at hOld
        exact hOld
      · have hOld := hInv.placed
        rw [hAbsent] at hOld
        exact hOld
      · intro hFalse
        cases hFalse
  | posting hThread hCall =>
      exact hInv.of_same hInv.idle rfl rfl rfl rfl
  | absent hThread =>
      exact hInv
  | clearing hThread =>
      exact hInv.of_same hInv.idle rfl rfl rfl rfl
  | pushed hPush =>
      exact hInv.push hPush
  | cleared hClearing =>
      apply Discipline.discard
      exact hInv.of_same hInv.idle rfl rfl rfl rfl
  | joined hJoining hPhase =>
      exact hInv.of_same (fun _ => hPhase) rfl rfl rfl rfl
  | dequeued hPhase hQueue =>
      refine ⟨hInv.serials, ?_, ?_, ?_, hInv.pointers⟩
      · have hOld := hInv.ordered
        rw [hPhase, hQueue] at hOld
        exact hOld
      · have hOld := hInv.placed
        rw [hPhase, hQueue] at hOld
        refine hOld.trans ?_
        exact List.perm_middle.symm
      · intro hNone
        have hAbsent := hInv.idle hNone
        rw [hPhase] at hAbsent
        cases hAbsent
  | handled hPhase =>
      exact hInv.handle hPhase _

end Camera

end Universal7420

------------------------------------------------------------
-- Executed Callbacks
------------------------------------------------------------

namespace Universal7420

namespace Camera

/-
  A step that calls a user callback handles a fresh message
  and makes its call through the last handled update.
-/
structure Executes
    (s : WorkerState)
    (e : WorkerEvent)
    (call : UserCall) : Prop where
  origin :
    ∃ now msg data cbs,
      e = .handle now ∧
      s.phase = .holding msg ∧
      msg.payload = .executeCallback data ∧
      now - msg.callerTS < 5 ∧
      lastUpdate s.log.lifetime = some cbs ∧
      userCall cbs data = some call

/- Null pointers are never called. -/
theorem userCall_null
    (data : WorkerMessage) :
    userCall CallbackData.null data = none := by
  simp [userCall, CallbackData.null]

/- Only the worker calls user callbacks. -/
theorem executed_of_not_handle
    {s s' : WorkerState}
    {e : WorkerEvent}
    (hOther : ∀ now, e ≠ .handle now)
    (hStep : workerStep s e = some s') :
    s'.log.executed = s.log.executed := by
  cases workerStep_transition hStep with
  | pushed hPush =>
      simp only [pushMessage] at hPush
      split at hPush
      · cases hPush
      · cases hPush
        rfl
  | handled hPhase =>
      exact absurd rfl (hOther _)
  | _ =>
      rfl

/- The calls that handling a message makes. -/
theorem handleMessage_executed
    (s : WorkerState)
    (msg : ThreadMsg)
    (now : Int) :
    (handleMessage s msg now).log.executed =
        s.log.executed ∨
      ∃ data call,
        msg.payload = .executeCallback data ∧
        now - msg.callerTS < 5 ∧
        userCall s.userCbs data = some call ∧
        (handleMessage s msg now).log.executed =
          s.log.executed ++ [call] := by
  unfold handleMessage
  cases hPayload : msg.payload with
  | exitThread =>
      exact Or.inl rfl
  | updateCallbacks data =>
      exact Or.inl rfl
  | executeCallback data =>
      dsimp only
      unfold executeCallback
      by_cases hFresh : now - msg.callerTS < 5
      · rw [if_pos hFresh]
        cases hCall : userCall s.userCbs data with
        | none =>
            left
            simp [finishMessage]
        | some call =>
            right
            exact ⟨data, call, rfl, hFresh, hCall, rfl⟩
      · rw [if_neg hFresh]
        exact Or.inl rfl

/- A call goes through pointers of a handled update. -/
theorem Discipline.call_of_update
    {s : WorkerState}
    (hInv : Discipline s)
    {data : WorkerMessage}
    {call : UserCall}
    (hCall : userCall s.userCbs data = some call) :
    ∃ cbs, lastUpdate s.log.lifetime = some cbs ∧
      userCall cbs data = some call := by
  rw [hInv.pointers] at hCall
  cases hLast : lastUpdate s.log.lifetime with
  | none =>
      rw [hLast, Option.getD_none, userCall_null] at hCall
      cases hCall
  | some cbs =>
      rw [hLast] at hCall
      exact ⟨cbs, rfl, hCall⟩

/- What a step adds to the calls. -/
theorem Discipline.executed_step
    {s s' : WorkerState}
    {e : WorkerEvent}
    (hInv : Discipline s)
    (hStep : workerStep s e = some s') :
    s'.log.executed = s.log.executed ∨
      ∃ call, s'.log.executed = s.log.executed ++ [call] ∧
        Executes s e call := by
  by_cases hHandle : ∃ now, e = .handle now
  · rcases hHandle with ⟨now, hEvent⟩
    rw [hEvent] at hStep
    simp only [workerStep] at hStep
    split at hStep
    · rename_i msg hPhase
      cases hStep
      rcases handleMessage_executed s msg now with
        hSame | ⟨data, call, hPayload, hFresh, hCall, hLog⟩
      · exact Or.inl hSame
      · rcases hInv.call_of_update hCall with
          ⟨cbs, hLast, hCbs⟩
        refine Or.inr ⟨call, hLog, ?_⟩
        exact ⟨now, msg, data, cbs, hEvent, hPhase,
          hPayload, hFresh, hLast, hCbs⟩
    · cases hStep
  · left
    apply executed_of_not_handle _ hStep
    intro now hEvent
    exact hHandle ⟨now, hEvent⟩

/-
  In every reachable state each pushed message has exactly one
  place, the handled messages are a subsequence of the pushed
  ones without repetition, and the next step calls a user
  callback only as its message and the last handled update
  say, and only in time.
-/
theorem queue_discipline
    {es : List WorkerEvent}
    {s : WorkerState}
    (hRun :
      (workerSystem WorkerState.initial).run es = some s) :
    s.log.pushed.Nodup ∧
      s.log.pushed.Perm
        (s.mQueue ++ (s.phase.hand ++
          (s.log.handled ++ s.log.discarded))) ∧
      s.log.handled.Sublist s.log.pushed ∧
      s.log.handled.Nodup ∧
      ∀ e s', workerStep s e = some s' →
        s'.log.executed = s.log.executed ∨
          ∃ call,
            s'.log.executed = s.log.executed ++ [call] ∧
              Executes s e call := by
  have hInv : Discipline s :=
    (workerSystem WorkerState.initial).invariant_of_step
      (fun _ _ _ hOld hStep => hOld.step hStep)
      discipline_initial hRun
  have hHandled : s.log.handled.Sublist s.log.pushed :=
    (List.sublist_append_left _ _).trans hInv.ordered
  refine ⟨hInv.nodup, hInv.placed, hHandled,
    hInv.nodup.sublist hHandled, ?_⟩
  intro e s' hStep
  exact hInv.executed_step hStep

/- A notification through pointers that have been set. -/
def notifyMessage : WorkerMessage where
  cbType := cbTypeNotify
  msgType := 4
  data := 0
  index := 0
  metadata := 0
  user := 64
  ext1 := 1
  ext2 := 0

/- A worker that has the pointers and one message in hand. -/
def notifyRun : List WorkerEvent :=
  [.createThread, .setCallbacks ⟨16, 32⟩ 100, .push 0,
    .addCallback notifyMessage 101, .push 0,
    .dequeue, .handle 102, .dequeue]

theorem queue_discipline_notifyRun :
    ∃ s,
      (workerSystem WorkerState.initial).run notifyRun =
          some s ∧
        s.log.pushed.Nodup ∧
        s.log.pushed.Perm
          (s.mQueue ++ (s.phase.hand ++
            (s.log.handled ++ s.log.discarded))) ∧
        s.log.handled.Sublist s.log.pushed ∧
        s.log.handled.Nodup ∧
        ∀ e s', workerStep s e = some s' →
          s'.log.executed = s.log.executed ∨
            ∃ call,
              s'.log.executed = s.log.executed ++ [call] ∧
                Executes s e call := by
  have hRuns :
      ((workerSystem WorkerState.initial).run
        notifyRun).isSome = true := by
    decide
  rcases Option.isSome_iff_exists.mp hRuns with ⟨s, hRun⟩
  exact ⟨s, hRun, queue_discipline hRun⟩

/- Its next step calls the notify callback. -/
example :
    ((workerSystem WorkerState.initial).run
        (notifyRun ++ [.handle 104])).map
      (fun s => s.log.executed) =
    some [.notify 16 4 1 0 64] := by
  decide

end Camera

end Universal7420
