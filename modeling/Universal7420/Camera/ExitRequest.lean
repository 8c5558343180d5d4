import Universal7420.Camera.Registration

/-
  The request to exit.

  `ExitThread` puts its request into the queue that
  `ClearCallbacks` empties, and then waits for the worker.  The
  request arrives in every run in which no clear finds it in
  the queue, and nothing stays behind in the queue if nobody
  pushes after the worker has left.

  Main declarations:
    * `Universal7420.Camera.exitSystem`
    * `Universal7420.Camera.ExitArrives`
    * `Universal7420.Camera.KeepsExit`
    * `Universal7420.Camera.exit_request_arrives`
-/

------------------------------------------------------------
-- One Lifetime Of A Worker
------------------------------------------------------------

namespace Universal7420

namespace Camera

/- The worker and its callers until nobody creates it again. -/
def exitSystem : EventSystem WorkerState WorkerEvent :=
  (workerSystem WorkerState.started).restrict
    (fun _ e => e ≠ .createThread)

/- Some of the messages is an exit request. -/
def HasExit (msgs : List ThreadMsg) : Prop :=
  ∃ msg ∈ msgs, msg.payload = .exitThread

instance (msgs : List ThreadMsg) :
    Decidable (HasExit msgs) := by
  unfold HasExit
  infer_instance

/-
  While a caller waits for the worker, the worker has left or
  will find an exit request; and when the last caller is back,
  the queue is empty.
-/
structure ExitArrives (s : WorkerState) : Prop where
  request :
    0 < s.joining →
      s.phase = .absent ∨
        HasExit (s.phase.hand ++ s.mQueue)
  drained :
    s.mThread = false →
    s.posting = [] →
    s.clearing = 0 →
    s.joining = 0 →
      s.mQueue = []

/-
  No clear takes the request away from a waiting caller, and
  after the worker has left, messages are only pushed while a
  clear is still to come.
-/
def KeepsExit
    (s : WorkerState) :
    WorkerEvent → Prop
| .clear =>
    0 < s.joining →
      s.phase = .absent ∨ HasExit s.phase.hand
| .push _ => s.phase = .absent → 0 < s.clearing
| _ => True

instance decidableKeepsExit
    (s : WorkerState)
    (e : WorkerEvent) :
    Decidable (KeepsExit s e) := by
  unfold KeepsExit
  split <;> infer_instance

/- The invariant behind it. -/
structure ExitTracked (s : WorkerState) : Prop where
  request :
    0 < s.joining →
      s.phase = .absent ∨
        HasExit (s.phase.hand ++ s.mQueue)
  left : s.mThread = false → s.phase = .absent
  empty : s.phase = .absent → s.mQueue = [] ∨ 0 < s.clearing

theorem exitTracked_started :
    ExitTracked WorkerState.started where
  request := by
    intro hJoining
    cases hJoining
  left := by
    intro hThread
    cases hThread
  empty := by
    intro hPhase
    cases hPhase

theorem ExitTracked.arrives
    {s : WorkerState}
    (hInv : ExitTracked s) :
    ExitArrives s where
  request := hInv.request
  drained := by
    intro hThread _ hClearing _
    rcases hInv.empty (hInv.left hThread) with
      hEmpty | hWaiting
    · exact hEmpty
    · omega

theorem hasExit_append
    {msgs later : List ThreadMsg} :
    HasExit (msgs ++ later) ↔
      HasExit msgs ∨ HasExit later := by
  unfold HasExit
  simp only [List.mem_append, or_and_right, exists_or]

end Camera

end Universal7420

------------------------------------------------------------
-- Steps
------------------------------------------------------------

namespace Universal7420

namespace Camera

/- A pushed exit request is in the queue. -/
theorem ExitTracked.push
    {s s' : WorkerState}
    {index : Nat}
    (hInv : ExitTracked s)
    (hRoom : s.phase = .absent → 0 < s.clearing)
    (hPush : pushMessage s index = some s') :
    ExitTracked s' := by
  unfold pushMessage at hPush
  split at hPush
  · cases hPush
  · rename_i call hCall
    cases hPush
    refine ⟨?_, hInv.left, ?_⟩
    · intro hJoining
      by_cases hExit : call.payload = .exitThread
      · right
        refine hasExit_append.mpr (Or.inr ?_)
        refine hasExit_append.mpr (Or.inr ?_)
        exact ⟨_, List.mem_singleton_self _, hExit⟩
      · rw [if_neg hExit] at hJoining
        rcases hInv.request hJoining with hLeft | hFound
        · exact Or.inl hLeft
        · right
          change HasExit
            (s.phase.hand ++ (s.mQueue ++ [_]))
          rw [← List.append_assoc]
          exact hasExit_append.mpr (Or.inl hFound)
    · intro hLeft
      exact Or.inr (hRoom hLeft)

/- The worker goes on, and the request is in the queue. -/
theorem ExitTracked.finish
    {s : WorkerState}
    (hThread : s.mThread ≠ false)
    (hQueued : 0 < s.joining → HasExit s.mQueue)
    (msg : ThreadMsg) :
    ExitTracked (finishMessage s msg) where
  request := fun hJoining => Or.inr (hQueued hJoining)
  left := fun hNone => absurd hNone hThread
  empty := by
    intro hLeft
    cases hLeft

/- A handled message was the request, or it is not lost. -/
theorem ExitTracked.handle
    {s : WorkerState}
    {msg : ThreadMsg}
    (hInv : ExitTracked s)
    (hPhase : s.phase = .holding msg)
    (now : Int) :
    ExitTracked (handleMessage s msg now) := by
  have hThread : s.mThread ≠ false := by
    intro hNone
    rw [hInv.left hNone] at hPhase
    cases hPhase
  have hQueued :
      msg.payload ≠ .exitThread → 0 < s.joining →
        HasExit s.mQueue := by
    intro hOther hJoining
    rcases hInv.request hJoining with hLeft | hFound
    · rw [hLeft] at hPhase
      cases hPhase
    · rw [hPhase] at hFound
      rcases hasExit_append.mp hFound with hHand | hQueue
      · rcases hHand with ⟨other, hMem, hExit⟩
        rw [List.mem_singleton.mp hMem] at hExit
        exact absurd hExit hOther
      · exact hQueue
  unfold handleMessage
  cases hPayload : msg.payload with
  | exitThread =>
      refine ⟨fun _ => Or.inl rfl, fun _ => rfl, ?_⟩
      intro _
      exact Or.inl rfl
  | executeCallback data =>
      have hFound := hQueued (by rw [hPayload]; simp)
      simp only
      unfold executeCallback
      split
      · refine ExitTracked.finish ?_ ?_ msg
        · exact hThread
        · exact hFound
      · exact ExitTracked.finish hThread hFound msg
  | updateCallbacks data =>
      have hFound := hQueued (by rw [hPayload]; simp)
      refine ExitTracked.finish ?_ ?_ msg
      · exact hThread
      · exact hFound

/- Every step that keeps the request keeps the invariant. -/
theorem ExitTracked.step
    {s s' : WorkerState}
    {e : WorkerEvent}
    (hInv : ExitTracked s)
    (hKeeps : KeepsExit s e)
    (hStep : exitSystem.step s e = some s') :
    ExitTracked s' := by
  rcases EventSystem.restrict_step_eq_some_iff _ |>.mp hStep
    with ⟨hOther, hWorker⟩
  cases workerStep_transition hWorker with
  | present hThread =>
      exact hInv
  | created hThread =>
      exact absurd rfl hOther
  | posting hThread hCall =>
      exact ⟨hInv.request, hInv.left, hInv.empty⟩
  | absent hThread =>
      exact hInv
  | clearing hThread =>
      refine ⟨hInv.request, hInv.left, ?_⟩
      intro _
      exact Or.inr (Nat.succ_pos _)
  | pushed hPush =>
      exact hInv.push hKeeps hPush
  | cleared hClearing =>
      refine ⟨?_, hInv.left, fun _ => Or.inl rfl⟩
      intro hJoining
      rcases hKeeps hJoining with hLeft | hHand
      · exact Or.inl hLeft
      · exact Or.inr (hasExit_append.mpr (Or.inl hHand))
  | joined hJoining hPhase =>
      refine ⟨fun _ => Or.inl hPhase, fun _ => hPhase, ?_⟩
      exact hInv.empty
  | dequeued hPhase hQueue =>
      rename_i msg rest
      refine ⟨?_, ?_, ?_⟩
      · intro hJoining
        rcases hInv.request hJoining with hLeft | hFound
        · rw [hPhase] at hLeft
          cases hLeft
        · right
          rw [hPhase, hQueue] at hFound
          exact hFound
      · intro hNone
        rw [hInv.left hNone] at hPhase
        cases hPhase
      · intro hLeft
        cases hLeft
  | handled hPhase =>
      exact hInv.handle hPhase _

/-
  In every run in which the request is kept, it arrives, and
  nothing is left in the queue when its caller is back.
-/
theorem exit_request_arrives
    {es : List WorkerEvent}
    {s : WorkerState}
    (hKeeps :
      exitSystem.Guarded KeepsExit WorkerState.started es)
    (hRun : exitSystem.run es = some s) :
    ExitArrives s := by
  have hStep :
      ∀ t e t', ExitTracked t → KeepsExit t e →
        exitSystem.step t e = some t' → ExitTracked t' := by
    intro t e t' hInv hGuard hNext
    exact hInv.step hGuard hNext
  have hEnd : ExitTracked s :=
    exitSystem.invariant_of_guarded hStep
      exitTracked_started hKeeps hRun
  exact hEnd.arrives

/- A clear before the request, and a message after it. -/
def exitRun : List WorkerEvent :=
  [ .clearCallbacks, .clear
  , .exitThread 0, .push 0
  , .setCallbacks CallbackData.null 0, .push 0
  , .dequeue, .handle 0, .join ]

theorem exit_request_arrives_exitRun :
    ∃ s,
      exitSystem.run exitRun = some s ∧
      s.mThread = false ∧
      ExitArrives s := by
  have hKeeps :
      exitSystem.Guarded KeepsExit WorkerState.started
        exitRun := by
    decide
  exact ⟨_, rfl, rfl, exit_request_arrives hKeeps rfl⟩

/-
  A clear that has begun earlier takes the lock after the
  request was pushed: the caller waits for ever.
-/
theorem exit_request_lost :
    ∃ s,
      exitSystem.run
          [ .clearCallbacks, .exitThread 0, .push 0
          , .clear ] = some s ∧
      s.joining = 1 ∧
      s.phase = .waiting ∧
      s.mQueue = [] ∧
      ¬ ExitArrives s := by
  refine ⟨_, rfl, rfl, rfl, rfl, ?_⟩
  intro hArrives
  rcases hArrives.request Nat.one_pos with hLeft | hFound
  · cases hLeft
  · rcases hFound with ⟨msg, hMem, _⟩
    cases hMem

end Camera

end Universal7420
