import Universal7420.Camera.QueueDiscipline

/-
  The objects that the callback worker owns.

  A message is two objects: the `ThreadMsg`, and the
  `WorkerMessage` or `CallbackData` that a caller handed over.
  The ledger records which of them have been deleted, each
  under the number of its push.  The worker deletes both parts
  of a message that it has handled; a clear and the drain at
  the exit delete the `ThreadMsg` only.

  Main declarations:
    * `Universal7420.Camera.Ledger`
    * `Universal7420.Camera.ledgerStep`
    * `Universal7420.Camera.threadMsgs_deleted_once`
    * `Universal7420.Camera.PayloadsReleased`
    * `Universal7420.Camera.DropsNoPayload`
    * `Universal7420.Camera.payloads_released_iff`
-/

------------------------------------------------------------
-- The Ledger
------------------------------------------------------------

namespace Universal7420

namespace Camera

/- Whether a message owns an object of its caller. -/
def ThreadMsg.Owning (msg : ThreadMsg) : Prop :=
  msg.payload ≠ .exitThread

instance (msg : ThreadMsg) : Decidable msg.Owning :=
  inferInstanceAs (Decidable (msg.payload ≠ .exitThread))

/- The deleted objects, in the order of their deletion. -/
structure Ledger where
  threadMsgs : List Nat
  payloads : List Nat
deriving DecidableEq, Repr

def Ledger.empty : Ledger where
  threadMsgs := []
  payloads := []

/- `delete msg` for each message of a list. -/
def Ledger.deleteMsgs
    (ledger : Ledger)
    (msgs : List ThreadMsg) : Ledger :=
  { ledger with
    threadMsgs :=
      ledger.threadMsgs ++ msgs.map ThreadMsg.serial }

/- `delete userData` and `delete callbackData` -/
def Ledger.deletePayload
    (ledger : Ledger)
    (msg : ThreadMsg) : Ledger :=
  { ledger with
    payloads := ledger.payloads ++ [msg.serial] }

/- What the switch of `Process` deletes. -/
def Ledger.handle
    (ledger : Ledger)
    (s : WorkerState)
    (msg : ThreadMsg) : Ledger :=
  match msg.payload with
  | .executeCallback _ | .updateCallbacks _ =>
      (ledger.deletePayload msg).deleteMsgs [msg]
  | .exitThread =>
      (ledger.deleteMsgs [msg]).deleteMsgs s.mQueue

/- What a step deletes. -/
def ledgerStep
    (ledger : Ledger)
    (s : WorkerState) :
    WorkerEvent → Ledger
| .clear => ledger.deleteMsgs s.mQueue
| .handle _ =>
    match s.phase with
    | .holding msg => ledger.handle s msg
    | .absent | .waiting => ledger
| .createThread | .addCallback _ _ | .setCallbacks _ _
| .clearCallbacks | .exitThread _ | .push _ | .join
| .dequeue => ledger

/- The worker and its callers with the ledger. -/
def ledgerSystem :
    EventSystem (WorkerState × Ledger) WorkerEvent :=
  (workerSystem WorkerState.initial).withGhost
    Ledger.empty ledgerStep

end Camera

end Universal7420

------------------------------------------------------------
-- Where Messages Go
------------------------------------------------------------

namespace Universal7420

namespace Camera

/- The message that a step finishes with. -/
def finishedBy
    (s : WorkerState) :
    WorkerEvent → List ThreadMsg
| .handle _ => s.phase.hand
| .createThread | .addCallback _ _ | .setCallbacks _ _
| .clearCallbacks | .exitThread _ | .push _ | .clear
| .join | .dequeue => []

/- The queue that a clear or an exit empties. -/
def droppedBy
    (s : WorkerState) :
    WorkerEvent → List ThreadMsg
| .clear => s.mQueue
| .handle _ =>
    if ∃ msg ∈ s.phase.hand, msg.payload = .exitThread then
      s.mQueue
    else
      []
| .createThread | .addCallback _ _ | .setCallbacks _ _
| .clearCallbacks | .exitThread _ | .push _ | .join
| .dequeue => []

theorem droppedBy_handle
    {s : WorkerState}
    {msg : ThreadMsg}
    (hPhase : s.phase = .holding msg)
    (now : Int) :
    droppedBy s (.handle now) =
      if msg.payload = .exitThread then s.mQueue else [] := by
  simp [droppedBy, hPhase, Phase.hand]

/- What a step records about the messages it is done with. -/
structure Leaves
    (s : WorkerState)
    (e : WorkerEvent)
    (s' : WorkerState) : Prop where
  handled :
    s'.log.handled = s.log.handled ++ finishedBy s e
  discarded :
    s'.log.discarded = s.log.discarded ++ droppedBy s e

theorem Leaves.of_same
    {s s' : WorkerState}
    {e : WorkerEvent}
    (hHandled : s'.log.handled = s.log.handled)
    (hDiscarded : s'.log.discarded = s.log.discarded)
    (hFinished : finishedBy s e = [])
    (hDropped : droppedBy s e = []) :
    Leaves s e s' where
  handled := by
    rw [hHandled, hFinished, List.append_nil]
  discarded := by
    rw [hDiscarded, hDropped, List.append_nil]

theorem Leaves.of_handle
    {s : WorkerState}
    {msg : ThreadMsg}
    (hPhase : s.phase = .holding msg)
    (now : Int) :
    Leaves s (.handle now) (handleMessage s msg now) := by
  have hFinished : finishedBy s (.handle now) = [msg] := by
    simp [finishedBy, hPhase, Phase.hand]
  have hDropped := droppedBy_handle hPhase now
  unfold handleMessage
  cases hPayload : msg.payload with
  | executeCallback data =>
      simp only [hPayload, reduceCtorEq, if_false] at hDropped
      refine ⟨?_, ?_⟩
      · rw [hFinished]
        simp only [finishMessage, executeCallback]
        split <;> rfl
      · rw [hDropped, List.append_nil]
        simp only [finishMessage, executeCallback]
        split <;> rfl
  | updateCallbacks data =>
      simp only [hPayload, reduceCtorEq, if_false] at hDropped
      refine ⟨?_, ?_⟩
      · rw [hFinished]
        rfl
      · rw [hDropped, List.append_nil]
        rfl
  | exitThread =>
      simp only [hPayload, if_true] at hDropped
      refine ⟨?_, ?_⟩
      · rw [hFinished]
        rfl
      · rw [hDropped]
        rfl

/- Messages leave by being handled or by being dropped. -/
theorem leaves_of_step
    {s s' : WorkerState}
    {e : WorkerEvent}
    (hStep : workerStep s e = some s') :
    Leaves s e s' := by
  cases workerStep_transition hStep with
  | present hThread =>
      exact .of_same rfl rfl rfl rfl
  | created hThread =>
      exact .of_same rfl rfl rfl rfl
  | posting hThread hCall =>
      refine Leaves.of_same ?_ ?_ ?_ ?_
      · rfl
      · rfl
      · cases e <;> first | rfl | cases hCall
      · cases e <;> first | rfl | cases hCall
  | absent hThread =>
      exact .of_same rfl rfl rfl rfl
  | clearing hThread =>
      exact .of_same rfl rfl rfl rfl
  | pushed hPush =>
      unfold pushMessage at hPush
      split at hPush
      · cases hPush
      · cases hPush
        exact .of_same rfl rfl rfl rfl
  | cleared hClearing =>
      refine ⟨?_, rfl⟩
      exact (List.append_nil _).symm
  | joined hJoining hPhase =>
      exact .of_same rfl rfl rfl rfl
  | dequeued hPhase hQueue =>
      exact .of_same rfl rfl rfl rfl
  | handled hPhase =>
      exact .of_handle hPhase _

/-
  A step deletes the `ThreadMsg` of every message it is done
  with, but the object only of one it has handled.
-/
theorem ledgerStep_eq
    (ledger : Ledger)
    (s : WorkerState)
    (e : WorkerEvent) :
    ledgerStep ledger s e =
      { threadMsgs :=
          ledger.threadMsgs ++
            (finishedBy s e ++ droppedBy s e).map
              ThreadMsg.serial
        payloads :=
          ledger.payloads ++
            ((finishedBy s e).filter
              (fun msg => msg.Owning)).map
                ThreadMsg.serial } := by
  cases e with
  | handle now =>
      cases hPhase : s.phase with
      | absent =>
          simp [ledgerStep, finishedBy, droppedBy, hPhase,
            Phase.hand]
      | waiting =>
          simp [ledgerStep, finishedBy, droppedBy, hPhase,
            Phase.hand]
      | holding msg =>
          rw [droppedBy_handle hPhase]
          cases hPayload : msg.payload with
          | executeCallback data =>
              simp [ledgerStep, finishedBy, hPhase,
                Phase.hand, Ledger.handle, hPayload,
                ThreadMsg.Owning, Ledger.deletePayload,
                Ledger.deleteMsgs]
          | updateCallbacks data =>
              simp [ledgerStep, finishedBy, hPhase,
                Phase.hand, Ledger.handle, hPayload,
                ThreadMsg.Owning, Ledger.deletePayload,
                Ledger.deleteMsgs]
          | exitThread =>
              simp [ledgerStep, finishedBy, hPhase,
                Phase.hand, Ledger.handle, hPayload,
                ThreadMsg.Owning, Ledger.deleteMsgs]
  | clear =>
      simp [ledgerStep, finishedBy, droppedBy,
        Ledger.deleteMsgs]
  | createThread | addCallback | setCallbacks
  | clearCallbacks | exitThread | push | join | dequeue =>
      simp [ledgerStep, finishedBy, droppedBy]

end Camera

end Universal7420

------------------------------------------------------------
-- The Ledger Over A Run
------------------------------------------------------------

namespace Universal7420

namespace Camera

/- The ledger says what the log says. -/
structure LedgerKept (u : WorkerState × Ledger) : Prop where
  discipline : Discipline u.1
  threadMsgs :
    u.2.threadMsgs.Perm
      ((u.1.log.handled ++ u.1.log.discarded).map
        ThreadMsg.serial)
  payloads :
    u.2.payloads =
      (u.1.log.handled.filter (fun msg => msg.Owning)).map
        ThreadMsg.serial

theorem ledgerKept_initial :
    LedgerKept (WorkerState.initial, Ledger.empty) where
  discipline := discipline_initial
  threadMsgs := List.Perm.refl _
  payloads := rfl

theorem LedgerKept.step
    {u u' : WorkerState × Ledger}
    {e : WorkerEvent}
    (hKept : LedgerKept u)
    (hStep : ledgerSystem.step u e = some u') :
    LedgerKept u' := by
  rcases EventSystem.withGhost_step_eq_some_iff _ |>.mp hStep
    with ⟨hWorker, hLedger⟩
  have hLeaves := leaves_of_step hWorker
  have hDeleted := ledgerStep_eq u.2 u.1 e
  refine ⟨hKept.discipline.step hWorker, ?_, ?_⟩
  · rw [hLedger, hDeleted, hLeaves.handled,
      hLeaves.discarded]
    simp only [List.map_append]
    refine (hKept.threadMsgs.append_right _).trans ?_
    simp only [List.map_append, List.append_assoc]
    apply List.Perm.append_left
    simp only [← List.append_assoc]
    apply List.Perm.append_right
    exact List.perm_append_comm
  · rw [hLedger, hDeleted, hLeaves.handled]
    simp only [List.filter_append, List.map_append,
      hKept.payloads]

/- The places of a message exclude each other. -/
theorem LedgerKept.nodup_places
    {u : WorkerState × Ledger}
    (hKept : LedgerKept u) :
    ((u.1.mQueue ++ (u.1.phase.hand ++
      (u.1.log.handled ++ u.1.log.discarded))).map
        ThreadMsg.serial).Nodup := by
  have hSerials :
      (u.1.log.pushed.map ThreadMsg.serial).Nodup := by
    rw [hKept.discipline.serials]
    exact List.nodup_range
  have hPerm :=
    hKept.discipline.placed.map ThreadMsg.serial
  exact hPerm.nodup_iff.mp hSerials

/- The messages that have left the queue and the hands. -/
theorem LedgerKept.mem_left_iff
    {u : WorkerState × Ledger}
    (hKept : LedgerKept u)
    {msg : ThreadMsg} :
    msg ∈ u.1.log.handled ++ u.1.log.discarded ↔
      msg ∈ u.1.log.pushed ∧
      msg ∉ u.1.mQueue ∧
      msg ∉ u.1.phase.hand := by
  have hPlaces := hKept.nodup_places.of_map _
  have hPlaced := hKept.discipline.placed.mem_iff (a := msg)
  rcases List.nodup_append.mp hPlaces with
    ⟨_, hRest, hQueue⟩
  rcases List.nodup_append.mp hRest with ⟨_, _, hHand⟩
  constructor
  · intro hLeft
    refine ⟨?_, ?_, ?_⟩
    · apply hPlaced.mpr
      exact List.mem_append_right _
        (List.mem_append_right _ hLeft)
    · intro hMem
      exact hQueue msg hMem msg
        (List.mem_append_right _ hLeft) rfl
    · intro hMem
      exact hHand msg hMem msg hLeft rfl
  · rintro ⟨hPushed, hNotQueued, hNotHeld⟩
    rcases List.mem_append.mp (hPlaced.mp hPushed) with
      hMem | hMem
    · exact absurd hMem hNotQueued
    · rcases List.mem_append.mp hMem with hHeld | hLeft
      · exact absurd hHeld hNotHeld
      · exact hLeft

/- Two messages that have left differ in their numbers. -/
theorem LedgerKept.nodup_left
    {u : WorkerState × Ledger}
    (hKept : LedgerKept u) :
    ((u.1.log.handled ++ u.1.log.discarded).map
      ThreadMsg.serial).Nodup := by
  have hPlaces := hKept.nodup_places
  simp only [List.map_append] at hPlaces ⊢
  have hRest := (List.nodup_append.mp hPlaces).2.1
  exact (List.nodup_append.mp hRest).2.1

theorem ledgerKept_of_run
    {es : List WorkerEvent}
    {u : WorkerState × Ledger}
    (hRun : ledgerSystem.run es = some u) :
    LedgerKept u := by
  have hStep :
      ∀ t e t', LedgerKept t →
        ledgerSystem.step t e = some t' →
        LedgerKept t' := by
    intro t e t' hKept hNext
    exact hKept.step hNext
  exact ledgerSystem.invariant_of_step hStep
    ledgerKept_initial hRun

/-
  In every run each `ThreadMsg` that has left the queue and
  the worker's hands has been deleted, and none twice.
-/
theorem threadMsgs_deleted_once
    {es : List WorkerEvent}
    {u : WorkerState × Ledger}
    (hRun : ledgerSystem.run es = some u) :
    (∀ msg ∈ u.1.log.pushed,
      msg ∉ u.1.mQueue → msg ∉ u.1.phase.hand →
      msg.serial ∈ u.2.threadMsgs) ∧
    u.2.threadMsgs.Nodup := by
  have hKept := ledgerKept_of_run hRun
  constructor
  · intro msg hPushed hNotQueued hNotHeld
    apply hKept.threadMsgs.mem_iff.mpr
    apply List.mem_map_of_mem
    exact hKept.mem_left_iff.mpr
      ⟨hPushed, hNotQueued, hNotHeld⟩
  · exact hKept.threadMsgs.nodup_iff.mpr hKept.nodup_left

end Camera

end Universal7420

------------------------------------------------------------
-- Payloads
------------------------------------------------------------

namespace Universal7420

namespace Camera

/-
  Every object whose message has left the queue and the
  worker's hands has been deleted, and none twice.
-/
structure PayloadsReleased
    (u : WorkerState × Ledger) : Prop where
  released :
    ∀ msg ∈ u.1.log.pushed, msg.Owning →
      msg ∉ u.1.mQueue → msg ∉ u.1.phase.hand →
      msg.serial ∈ u.2.payloads
  once : u.2.payloads.Nodup

/- No dropped message of a state owns an object. -/
def NothingLost (u : WorkerState × Ledger) : Prop :=
  ∀ msg ∈ u.1.log.discarded, ¬ msg.Owning

/- The objects of a state are released if none was dropped. -/
theorem LedgerKept.payloadsReleased_iff
    {u : WorkerState × Ledger}
    (hKept : LedgerKept u) :
    PayloadsReleased u ↔ NothingLost u := by
  have hLeft := hKept.nodup_left
  rw [List.map_append] at hLeft
  rcases List.nodup_append.mp hLeft with
    ⟨hHandled, _, hApart⟩
  constructor
  · rintro ⟨hReleased, _⟩ msg hMem hOwning
    rcases hKept.mem_left_iff.mp
      (List.mem_append_right _ hMem) with
        ⟨hPushed, hNotQueued, hNotHeld⟩
    have hDeleted :=
      hReleased msg hPushed hOwning hNotQueued hNotHeld
    rw [hKept.payloads] at hDeleted
    rcases List.mem_map.mp hDeleted with
      ⟨other, hOther, hSerial⟩
    have hOtherHandled := (List.mem_filter.mp hOther).1
    exact hApart _ (List.mem_map_of_mem hOtherHandled)
      _ (List.mem_map_of_mem hMem) hSerial
  · intro hNone
    constructor
    · intro msg hPushed hOwning hNotQueued hNotHeld
      have hMem := hKept.mem_left_iff.mpr
        ⟨hPushed, hNotQueued, hNotHeld⟩
      rw [hKept.payloads]
      apply List.mem_map_of_mem
      rcases List.mem_append.mp hMem with hDone | hDropped
      · exact List.mem_filter.mpr
          ⟨hDone, decide_eq_true hOwning⟩
      · exact absurd hOwning (hNone msg hDropped)
    · rw [hKept.payloads]
      have hPart :=
        List.filter_sublist (l := u.1.log.handled)
          (p := fun msg => decide msg.Owning)
      exact hHandled.sublist (hPart.map _)

/-
  A clear, or the worker's exit, finds no message of
  `AddCallback` or `SetCallbacks` in the queue.
-/
def DropsNoPayload
    (u : WorkerState × Ledger)
    (e : WorkerEvent) : Prop :=
  ∀ msg ∈ droppedBy u.1 e, ¬ msg.Owning

instance
    (u : WorkerState × Ledger)
    (e : WorkerEvent) :
    Decidable (DropsNoPayload u e) :=
  inferInstanceAs
    (Decidable (∀ msg ∈ droppedBy u.1 e, ¬ msg.Owning))

theorem nothingLost_step_iff
    {u u' : WorkerState × Ledger}
    {e : WorkerEvent}
    (hNone : NothingLost u)
    (hStep : ledgerSystem.step u e = some u') :
    NothingLost u' ↔ DropsNoPayload u e := by
  rcases EventSystem.withGhost_step_eq_some_iff _ |>.mp hStep
    with ⟨hWorker, _⟩
  have hLeaves := leaves_of_step hWorker
  unfold NothingLost DropsNoPayload
  rw [hLeaves.discarded]
  constructor
  · intro hAll msg hMem
    exact hAll msg (List.mem_append_right _ hMem)
  · intro hDropped msg hMem
    rcases List.mem_append.mp hMem with hOld | hNew
    · exact hNone msg hOld
    · exact hDropped msg hNew

/-
  The objects are released exactly once in every state of a
  run if and only if no step of it drops one.
-/
theorem payloads_released_iff
    {es : List WorkerEvent}
    {t : WorkerState × Ledger}
    (hRun : ledgerSystem.run es = some t) :
    (∀ pre u, pre <+: es →
        ledgerSystem.run pre = some u →
        PayloadsReleased u) ↔
      ledgerSystem.Guarded DropsNoPayload
        ledgerSystem.init es := by
  have hHolds :
      ∀ u, LedgerKept u ∧ NothingLost u →
        PayloadsReleased u := by
    rintro u ⟨hKept, hNone⟩
    exact hKept.payloadsReleased_iff.mpr hNone
  have hStepIff :
      ∀ u e u', LedgerKept u ∧ NothingLost u →
        ledgerSystem.step u e = some u' →
        (PayloadsReleased u' ↔ DropsNoPayload u e) := by
    rintro u e u' ⟨hKept, hNone⟩ hStep
    rw [(hKept.step hStep).payloadsReleased_iff]
    exact nothingLost_step_iff hNone hStep
  have hKeep :
      ∀ u e u', LedgerKept u ∧ NothingLost u →
        DropsNoPayload u e →
        ledgerSystem.step u e = some u' →
        LedgerKept u' ∧ NothingLost u' := by
    rintro u e u' ⟨hKept, hNone⟩ hGuard hStep
    exact ⟨hKept.step hStep,
      (nothingLost_step_iff hNone hStep).mpr hGuard⟩
  have hStart :
      LedgerKept ledgerSystem.init ∧
        NothingLost ledgerSystem.init := by
    refine ⟨ledgerKept_initial, ?_⟩
    intro msg hMem
    cases hMem
  exact ledgerSystem.forall_prefix_iff_guarded hHolds
    hStepIff hKeep hStart hRun

/- A notification of one focus. -/
def focusMessage : WorkerMessage where
  cbType := cbTypeNotify
  msgType := 4
  data := 0
  index := 0
  metadata := 0
  user := 0
  ext1 := 1
  ext2 := 0

/- Callbacks are set, one comes in time and one is stale. -/
def releasingRun : List WorkerEvent :=
  [ .createThread
  , .setCallbacks ⟨16, 32⟩ 0, .push 0, .dequeue, .handle 1
  , .addCallback focusMessage 2, .push 0
  , .addCallback focusMessage 3, .push 0
  , .dequeue, .handle 4, .dequeue, .handle 9
  , .clearCallbacks, .clear
  , .exitThread 10, .push 0, .dequeue, .handle 11, .join ]

theorem payloads_released_releasingRun :
    ∃ t,
      ledgerSystem.run releasingRun = some t ∧
      t.2.payloads = [0, 1, 2] ∧
      ∀ pre u, pre <+: releasingRun →
        ledgerSystem.run pre = some u →
        PayloadsReleased u := by
  have hGuard :
      ledgerSystem.Guarded DropsNoPayload
        ledgerSystem.init releasingRun := by
    decide
  exact ⟨_, rfl, rfl,
    (payloads_released_iff rfl).mpr hGuard⟩

/- A clear takes a notification from the queue. -/
theorem cleared_payload_lost :
    ∃ t msg,
      ledgerSystem.run
          [ .createThread
          , .addCallback focusMessage 0, .push 0
          , .clearCallbacks, .clear ] = some t ∧
      t.1.log.pushed = [msg] ∧
      msg.payload = .executeCallback focusMessage ∧
      t.1.mQueue = [] ∧
      t.1.phase = .waiting ∧
      t.2.threadMsgs = [msg.serial] ∧
      t.2.payloads = [] ∧
      ¬ PayloadsReleased t := by
  refine ⟨_, _, rfl, rfl, rfl, rfl, rfl, rfl, rfl, ?_⟩
  rintro ⟨hReleased, _⟩
  have hDeleted :=
    hReleased _ (List.mem_singleton_self _) (by decide)
      (by decide) (by decide)
  cases hDeleted

end Camera

end Universal7420
