import Universal7420.Camera.QueueDiscipline
import Universal7420.Camera.ActionSteps

/-
  The worker inside the wrapper.

  The wrapper uses its worker only through the worker's own
  steps, so that every run of the wrapper contains a run of
  the worker, and the discipline of the queue holds in it.

  Main declarations:
    * `Universal7420.Camera.WorkerReaches`
    * `Universal7420.Camera.wrapperStep_worker`
    * `Universal7420.Camera.wrapper_discipline`
-/

------------------------------------------------------------
-- Runs Of The Worker
------------------------------------------------------------

namespace Universal7420

namespace Camera

/- The worker can get from one state to another. -/
def WorkerReaches
    (w w' : WorkerState) : Prop :=
  ∃ es,
    (workerSystem WorkerState.initial).runFrom w es =
      some w'

theorem WorkerReaches.refl
    (w : WorkerState) :
    WorkerReaches w w :=
  ⟨[], rfl⟩

theorem WorkerReaches.of_step
    {w w' : WorkerState}
    {e : WorkerEvent}
    (hStep : workerStep w e = some w') :
    WorkerReaches w w' := by
  refine ⟨[e], ?_⟩
  apply EventSystem.runFrom_cons_eq_some_iff _ |>.mpr
  exact ⟨w', hStep, rfl⟩

theorem WorkerReaches.of_steps
    {w w₁ w₂ : WorkerState}
    {e₁ e₂ : WorkerEvent}
    (hFirst : workerStep w e₁ = some w₁)
    (hSecond : workerStep w₁ e₂ = some w₂) :
    WorkerReaches w w₂ := by
  refine ⟨[e₁, e₂], ?_⟩
  apply EventSystem.runFrom_cons_eq_some_iff _ |>.mpr
  refine ⟨w₁, hFirst, ?_⟩
  apply EventSystem.runFrom_cons_eq_some_iff _ |>.mpr
  exact ⟨w₂, hSecond, rfl⟩

/- Each kind of message has its own way to be posted. -/
theorem beginPost_step
    {w w' : WorkerState}
    {payload : Payload}
    {now : Int}
    (hPost : beginPost w payload now = some w') :
    ∃ e, workerStep w e = some w' := by
  cases payload with
  | executeCallback data =>
      exact ⟨.addCallback data now, hPost⟩
  | updateCallbacks data =>
      exact ⟨.setCallbacks data now, hPost⟩
  | exitThread =>
      refine ⟨.exitThread now, ?_⟩
      have hThread : w.mThread = true := by
        unfold beginPost at hPost
        split at hPost
        · assumption
        · cases hPost
      simp only [workerStep]
      rw [if_pos hThread]
      exact hPost

theorem WorkerReaches.of_postMessage
    {w w' : WorkerState}
    {payload : Payload}
    {now : Int}
    (hPost : postMessage w payload now = some w') :
    WorkerReaches w w' := by
  rcases Option.bind_eq_some_iff.mp hPost with
    ⟨middle, hBegin, hPush⟩
  rcases beginPost_step hBegin with ⟨e, hFirst⟩
  have hSecond :
      workerStep middle (.push w.posting.length) =
        some w' := hPush
  exact .of_steps hFirst hSecond

theorem WorkerReaches.of_clearMessages
    {w w' : WorkerState}
    (hClear : clearMessages w = some w') :
    WorkerReaches w w' := by
  rcases Option.bind_eq_some_iff.mp hClear with
    ⟨middle, hFirst, hSecond⟩
  exact .of_steps hFirst hSecond

end Camera

end Universal7420

------------------------------------------------------------
-- The Wrapper Is A Client Of The Worker
------------------------------------------------------------

namespace Universal7420

namespace Camera

theorem performAction_worker
    {s s' : WrapperState}
    {call : Call}
    {now : Int}
    {answer : Int32}
    {action : Action}
    {flow : Flow}
    (hStep :
      performAction s call now answer action =
        some (s', flow)) :
    WorkerReaches s.cbThread s'.cbThread := by
  cases performAction_cases hStep with
  | cleared hClear =>
      exact .of_clearMessages hClear
  | updated hPost =>
      exact .of_postMessage hPost
  | exiting hPost =>
      exact .of_postMessage hPost
  | joined hJoin =>
      exact .of_step hJoin
  | _ =>
      exact .refl _

theorem advance_worker
    {s s' : WrapperState}
    {index : Nat}
    {now : Int}
    {answer : Int32}
    (hStep : advance s index now answer = some s') :
    WorkerReaches s.cbThread s'.cbThread := by
  cases advance_cases hStep with
  | returned hCall hDone =>
      exact .refl _
  | continued hCall hNext hAction =>
      have hReaches := performAction_worker hAction
      exact hReaches
  | stopped hCall hNext hAction =>
      have hReaches := performAction_worker hAction
      exact hReaches

/- Every step of the wrapper is a run of its worker. -/
theorem wrapperStep_worker
    {s s' : WrapperState}
    {e : WrapperEvent}
    (hStep : wrapperStep s e = some s') :
    WorkerReaches s.cbThread s'.cbThread := by
  cases wrapperStep_transition hStep with
  | opened hOpen =>
      exact .of_step (camera2DeviceOpen_creates hOpen).1
  | closing hLock hDevice =>
      exact .refl _
  | calling hDevice =>
      exact .refl _
  | advanced hAdvance =>
      exact advance_worker hAdvance
  | dropped hBlock =>
      exact .refl _
  | raised hBlock =>
      exact .refl _
  | posted hMessage hPost =>
      exact .of_postMessage hPost
  | dequeued hWorker =>
      exact .of_step hWorker
  | handled hWorker =>
      exact .of_step hWorker

/- The wrapper with any number of operations at a time. -/
def wrapperSystem :
    EventSystem WrapperState WrapperEvent where
  init := WrapperState.initial
  step := wrapperStep

theorem Discipline.of_reaches
    {w w' : WorkerState}
    (hInv : Discipline w)
    (hReaches : WorkerReaches w w') :
    Discipline w' := by
  have hKeep :
      ∀ w e w', Discipline w →
        (workerSystem WorkerState.initial).step w e =
          some w' →
        Discipline w' := by
    intro w e w' hWorker hNext
    exact hWorker.step hNext
  rcases hReaches with ⟨ws, hWorker⟩
  exact (workerSystem WorkerState.initial).invariant_of_step
    hKeep hInv hWorker

/- The discipline of the queue holds in every run. -/
theorem wrapper_discipline
    {es : List WrapperEvent}
    {s : WrapperState}
    (hRun : wrapperSystem.run es = some s) :
    Discipline s.cbThread := by
  have hStep :
      ∀ t e t', wrapperSystem.step t e = some t' →
        WorkerReaches t.cbThread t'.cbThread := by
    intro t e t' hStep
    exact wrapperStep_worker hStep
  have hReaches :
      WorkerReaches WorkerState.initial s.cbThread :=
    wrapperSystem.runFrom_simulated
      (workerSystem WorkerState.initial)
      WrapperState.cbThread hStep hRun
  exact discipline_initial.of_reaches hReaches

end Camera

end Universal7420
