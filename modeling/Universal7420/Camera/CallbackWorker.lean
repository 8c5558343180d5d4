import Universal7420.Lib.EventSystem
import Mathlib.Data.List.Perm.Basic
import Mathlib.Data.List.Nodup

/-
  The callback worker of `CallbackWorkerThread.cpp`.

  Any number of threads post messages, clear the queue and ask
  the worker to exit.  A call first checks that there is a
  thread and reads the clock, and takes the lock later.  The
  worker takes a message under the lock and handles it outside.
  The log records what has happened to each message; no step
  depends on it.

  Main declarations:
    * `Universal7420.Camera.ThreadMsg`
    * `Universal7420.Camera.WorkerState`
    * `Universal7420.Camera.workerStep`
    * `Universal7420.Camera.workerSystem`
    * `Universal7420.Camera.workerStep_transition`
-/

------------------------------------------------------------
-- Messages
------------------------------------------------------------

namespace Universal7420

namespace Camera

/- An address; zero is the null pointer. -/
abbrev Pointer : Type := Nat

/- `CbType` -/
def cbTypeNotify : Int32 := 1
def cbTypeData : Int32 := 2

/- `WorkerMessage` -/
structure WorkerMessage where
  cbType : Int32
  msgType : Int32
  data : Pointer
  index : UInt32
  metadata : Pointer
  user : Pointer
  ext1 : Int32
  ext2 : Int32
deriving DecidableEq, Repr

/- `CallbackData` -/
structure CallbackData where
  newUserNotifyCb : Pointer
  newUserDataCb : Pointer
deriving DecidableEq, Repr

/- The pointers of a new worker. -/
def CallbackData.null : CallbackData where
  newUserNotifyCb := 0
  newUserDataCb := 0

/- The identifier of a message with the data it points to. -/
inductive Payload where
| exitThread
| executeCallback (data : WorkerMessage)
| updateCallbacks (data : CallbackData)
deriving DecidableEq, Repr

/- `ThreadMsg`, with the number of its push. -/
structure ThreadMsg where
  serial : Nat
  payload : Payload
  callerTS : Int
deriving DecidableEq, Repr

/- The pointers of an update message. -/
def ThreadMsg.update?
    (msg : ThreadMsg) : Option CallbackData :=
  match msg.payload with
  | .updateCallbacks data => some data
  | _ => none

/- A call of a user callback: the function, then its data. -/
inductive UserCall where
| notify
    (cb : Pointer)
    (msgType ext1 ext2 : Int32)
    (user : Pointer)
| data
    (cb : Pointer)
    (msgType : Int32)
    (data : Pointer)
    (index : UInt32)
    (metadata user : Pointer)
deriving DecidableEq, Repr

/- The call that a message makes through some pointers. -/
def userCall
    (cbs : CallbackData)
    (msg : WorkerMessage) : Option UserCall :=
  if msg.cbType = cbTypeNotify then
    if cbs.newUserNotifyCb ≠ 0 then
      some (.notify cbs.newUserNotifyCb msg.msgType
        msg.ext1 msg.ext2 msg.user)
    else
      none
  else if msg.cbType = cbTypeData then
    if cbs.newUserDataCb ≠ 0 then
      some (.data cbs.newUserDataCb msg.msgType msg.data
        msg.index msg.metadata msg.user)
    else
      none
  else
    none

end Camera

end Universal7420

------------------------------------------------------------
-- The Worker
------------------------------------------------------------

namespace Universal7420

namespace Camera

/- Where the worker thread is in `Process`. -/
inductive Phase where
| absent
| waiting
| holding (msg : ThreadMsg)
deriving DecidableEq, Repr

/- The message in the worker's hands. -/
def Phase.hand : Phase → List ThreadMsg
| .holding msg => [msg]
| .absent | .waiting => []

/- A call that has not taken the lock yet. -/
structure Posting where
  payload : Payload
  callerTS : Int
deriving DecidableEq, Repr

/-
  The history: pushed messages in push order, handled messages
  in handling order, those of the present worker, discarded
  messages, and the calls of user callbacks.
-/
structure WorkerLog where
  pushed : List ThreadMsg
  handled : List ThreadMsg
  lifetime : List ThreadMsg
  discarded : List ThreadMsg
  executed : List UserCall
deriving DecidableEq, Repr

/-
  The members of `CallbackWorkerThread`, the worker thread with
  its local pointers, the calls in progress, and the log.
-/
structure WorkerState where
  mThread : Bool
  mQueue : List ThreadMsg
  phase : Phase
  userCbs : CallbackData
  posting : List Posting
  clearing : Nat
  joining : Nat
  log : WorkerLog
deriving DecidableEq, Repr

def WorkerState.initial : WorkerState where
  mThread := false
  mQueue := []
  phase := .absent
  userCbs := CallbackData.null
  posting := []
  clearing := 0
  joining := 0
  log := ⟨[], [], [], [], []⟩

/-
  The steps of all parties.  A call begins, and then takes the
  lock; `index` chooses one of the calls that wait for it.
-/
inductive WorkerEvent where
| createThread
| addCallback (data : WorkerMessage) (now : Int)
| setCallbacks (data : CallbackData) (now : Int)
| clearCallbacks
| exitThread (now : Int)
| push (index : Nat)
| clear
| join
| dequeue
| handle (now : Int)
deriving DecidableEq, Repr

/- A call passes its assertion; without a thread it aborts. -/
def beginPost
    (s : WorkerState)
    (payload : Payload)
    (now : Int) : Option WorkerState :=
  if s.mThread then
    some { s with posting := s.posting ++ [⟨payload, now⟩] }
  else
    none

/- `m_queue.push` under the lock. -/
def pushMessage
    (s : WorkerState)
    (index : Nat) : Option WorkerState :=
  match s.posting[index]? with
  | none => none
  | some call =>
      let msg : ThreadMsg :=
        ⟨s.log.pushed.length, call.payload, call.callerTS⟩
      some { s with
        mQueue := s.mQueue ++ [msg]
        posting := s.posting.eraseIdx index
        joining :=
          if call.payload = .exitThread then s.joining + 1
          else s.joining
        log := { s.log with pushed := s.log.pushed ++ [msg] } }

/- Empty the queue without handling its messages. -/
def discardQueue (s : WorkerState) : WorkerState :=
  { s with
    mQueue := []
    log := { s.log with
      discarded := s.log.discarded ++ s.mQueue } }

/- Record that a message has been handled. -/
def finishMessage
    (s : WorkerState)
    (msg : ThreadMsg) : WorkerState :=
  { s with
    phase := .waiting
    log := { s.log with
      handled := s.log.handled ++ [msg]
      lifetime := s.log.lifetime ++ [msg] } }

/- The branch of `MSG_EXECUTE_CALLBACK`. -/
def executeCallback
    (s : WorkerState)
    (msg : ThreadMsg)
    (data : WorkerMessage)
    (now : Int) : WorkerState :=
  if now - msg.callerTS < 5 then
    { s with
      log := { s.log with
        executed :=
          s.log.executed ++
            (userCall s.userCbs data).toList } }
  else
    s

/- The switch of `Process`. -/
def handleMessage
    (s : WorkerState)
    (msg : ThreadMsg)
    (now : Int) : WorkerState :=
  match msg.payload with
  | .executeCallback data =>
      finishMessage (executeCallback s msg data now) msg
  | .updateCallbacks data =>
      finishMessage { s with userCbs := data } msg
  | .exitThread =>
      { finishMessage (discardQueue s) msg with
        phase := .absent }

/- One step of one party. -/
def workerStep
    (s : WorkerState) :
    WorkerEvent → Option WorkerState
| .createThread =>
    if s.mThread then
      some s
    else
      some { s with
        mThread := true
        phase := .waiting
        userCbs := CallbackData.null
        log := { s.log with lifetime := [] } }
| .addCallback data now =>
    beginPost s (.executeCallback data) now
| .setCallbacks data now =>
    beginPost s (.updateCallbacks data) now
| .clearCallbacks =>
    if s.mThread then
      some { s with clearing := s.clearing + 1 }
    else
      none
| .exitThread now =>
    if s.mThread then beginPost s .exitThread now
    else some s
| .push index => pushMessage s index
| .clear =>
    if 0 < s.clearing then
      some (discardQueue
        { s with clearing := s.clearing - 1 })
    else
      none
| .join =>
    if 0 < s.joining ∧ s.phase = .absent then
      some { s with
        mThread := false
        joining := s.joining - 1 }
    else
      none
| .dequeue =>
    match s.phase, s.mQueue with
    | .waiting, msg :: rest =>
        some { s with
          mQueue := rest
          phase := .holding msg }
    | _, _ => none
| .handle now =>
    match s.phase with
    | .holding msg => some (handleMessage s msg now)
    | _ => none

/- The worker and its callers from a given state on. -/
def workerSystem
    (s₀ : WorkerState) :
    EventSystem WorkerState WorkerEvent where
  init := s₀
  step := workerStep

end Camera

end Universal7420

------------------------------------------------------------
-- What A Step Can Do
------------------------------------------------------------

namespace Universal7420

namespace Camera

/- The message that an event begins to post. -/
def WorkerEvent.posting? : WorkerEvent → Option Posting
| .addCallback data now => some ⟨.executeCallback data, now⟩
| .setCallbacks data now => some ⟨.updateCallbacks data, now⟩
| .exitThread now => some ⟨.exitThread, now⟩
| .createThread | .clearCallbacks | .push _ | .clear | .join
| .dequeue | .handle _ => none

inductive WorkerTransition
    (s : WorkerState) :
    WorkerEvent → WorkerState → Prop where
| present
    (hThread : s.mThread = true) :
    WorkerTransition s .createThread s
| created
    (hThread : s.mThread = false) :
    WorkerTransition s .createThread
      { s with
        mThread := true
        phase := .waiting
        userCbs := CallbackData.null
        log := { s.log with lifetime := [] } }
| posting
    {e : WorkerEvent}
    {call : Posting}
    (hThread : s.mThread = true)
    (hCall : e.posting? = some call) :
    WorkerTransition s e
      { s with posting := s.posting ++ [call] }
| absent
    {now : Int}
    (hThread : s.mThread = false) :
    WorkerTransition s (.exitThread now) s
| clearing
    (hThread : s.mThread = true) :
    WorkerTransition s .clearCallbacks
      { s with clearing := s.clearing + 1 }
| pushed
    {index : Nat}
    {s' : WorkerState}
    (hPush : pushMessage s index = some s') :
    WorkerTransition s (.push index) s'
| cleared
    (hClearing : 0 < s.clearing) :
    WorkerTransition s .clear
      (discardQueue { s with clearing := s.clearing - 1 })
| joined
    (hJoining : 0 < s.joining)
    (hPhase : s.phase = .absent) :
    WorkerTransition s .join
      { s with
        mThread := false
        joining := s.joining - 1 }
| dequeued
    {msg : ThreadMsg}
    {rest : List ThreadMsg}
    (hPhase : s.phase = .waiting)
    (hQueue : s.mQueue = msg :: rest) :
    WorkerTransition s .dequeue
      { s with
        mQueue := rest
        phase := .holding msg }
| handled
    {msg : ThreadMsg}
    {now : Int}
    (hPhase : s.phase = .holding msg) :
    WorkerTransition s (.handle now)
      (handleMessage s msg now)

theorem WorkerTransition.of_beginPost
    {s s' : WorkerState}
    {e : WorkerEvent}
    {payload : Payload}
    {now : Int}
    (hCall : e.posting? = some ⟨payload, now⟩)
    (hPost : beginPost s payload now = some s') :
    WorkerTransition s e s' := by
  unfold beginPost at hPost
  split at hPost
  · rename_i hThread
    cases hPost
    exact .posting hThread hCall
  · cases hPost

/- Every step is one of the transitions. -/
theorem workerStep_transition
    {s s' : WorkerState}
    {e : WorkerEvent}
    (hStep : workerStep s e = some s') :
    WorkerTransition s e s' := by
  cases e with
  | createThread =>
      simp only [workerStep] at hStep
      split at hStep
      · rename_i hThread
        cases hStep
        exact .present hThread
      · rename_i hThread
        cases hStep
        exact .created (by simpa using hThread)
  | addCallback data now =>
      exact .of_beginPost rfl hStep
  | setCallbacks data now =>
      exact .of_beginPost rfl hStep
  | clearCallbacks =>
      simp only [workerStep] at hStep
      split at hStep
      · rename_i hThread
        cases hStep
        exact .clearing hThread
      · cases hStep
  | exitThread now =>
      simp only [workerStep] at hStep
      split at hStep
      · exact .of_beginPost rfl hStep
      · rename_i hThread
        cases hStep
        exact .absent (by simpa using hThread)
  | push index =>
      exact .pushed hStep
  | clear =>
      simp only [workerStep] at hStep
      split at hStep
      · rename_i hClearing
        cases hStep
        exact .cleared hClearing
      · cases hStep
  | join =>
      simp only [workerStep] at hStep
      split at hStep
      · rename_i hJoin
        cases hStep
        exact .joined hJoin.1 hJoin.2
      · cases hStep
  | dequeue =>
      simp only [workerStep] at hStep
      split at hStep
      · rename_i hPhase hQueue
        cases hStep
        exact .dequeued hPhase hQueue
      · cases hStep
  | handle now =>
      simp only [workerStep] at hStep
      split at hStep
      · rename_i hPhase
        cases hStep
        exact .handled hPhase
      · cases hStep

end Camera

end Universal7420
