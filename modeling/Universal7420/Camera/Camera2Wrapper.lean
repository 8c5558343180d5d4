import Universal7420.Lib.Decimal
import Universal7420.Camera.CallbackWorker

/-
  The camera operations of `Camera2Wrapper.cpp`.

  A call of an operation is a list of actions that its thread
  performs one after the other.  Other calls, the threads of
  the vendor HAL and the worker may act between two of them.
  Each use of the worker's queue is one action here; what may
  happen inside of it is part of the worker's own model.

  Main declarations:
    * `Universal7420.Camera.Operation.actions`
    * `Universal7420.Camera.camera2DeviceOpen`
    * `Universal7420.Camera.performAction`
    * `Universal7420.Camera.wrapperStep`
    * `Universal7420.Camera.wrapperStep_transition`
-/

------------------------------------------------------------
-- Operations
------------------------------------------------------------

namespace Universal7420

namespace Camera

/-
  The functions of the vendor device.  `set_callbacks` gets the
  wrapper's own functions in place of the client's; the texts
  of parameters are left out.
-/
inductive VendorCall where
| setPreviewWindow (window : Pointer)
| setCallbacks (dataCbTimestamp getMemory user : Pointer)
| enableMsgType (msgType : Int32)
| disableMsgType (msgType : Int32)
| msgTypeEnabled (msgType : Int32)
| startPreview
| stopPreview
| previewEnabled
| storeMetaDataInBuffers (enable : Int32)
| startRecording
| stopRecording
| recordingEnabled
| releaseRecordingFrame (frame : Pointer)
| autoFocus
| cancelAutoFocus
| takePicture
| cancelPicture
| setParameters
| getParameters
| putParameters
| sendCommand (cmd arg1 arg2 : Int32)
| release
| dump (fd : Int32)
| close
deriving DecidableEq, Repr

/- The vendor functions whose result is handed on. -/
def VendorCall.returnsInt : VendorCall → Bool
| .setPreviewWindow _ | .msgTypeEnabled _ | .startPreview
| .previewEnabled | .storeMetaDataInBuffers _
| .startRecording | .recordingEnabled | .autoFocus
| .cancelAutoFocus | .takePicture | .cancelPicture
| .setParameters | .sendCommand _ _ _ | .dump _ => true
| .setCallbacks _ _ _ | .enableMsgType _
| .disableMsgType _ | .stopPreview | .stopRecording
| .releaseRecordingFrame _ | .getParameters
| .putParameters | .release | .close => false

/- One action of a thread inside an operation. -/
inductive Action where
| setBlockCbs (value : Int32)
| clearCallbacks
| setCallbacks (data : CallbackData)
| vendorCall (call : VendorCall)
| armTimeGuard
| checkTimeGuard
| freeDevice
| exitThread
| joinThread
deriving DecidableEq, Repr

/- An operation that only calls the vendor. -/
def forward (call : VendorCall) : List Action :=
  [.vendorCall call]

def camera2SetCallbacks
    (notifyCb dataCb dataCbTimestamp getMemory
      user : Pointer) : List Action :=
  [ .setCallbacks ⟨notifyCb, dataCb⟩
  , .vendorCall
      (.setCallbacks dataCbTimestamp getMemory user) ]

def camera2StopPreview : List Action :=
  [ .setBlockCbs 1
  , .clearCallbacks
  , .vendorCall .stopPreview
  , .setBlockCbs 0 ]

def camera2AutoFocus : List Action :=
  [ .clearCallbacks
  , .vendorCall .autoFocus
  , .armTimeGuard ]

def camera2CancelAutoFocus : List Action :=
  [ .setBlockCbs 1
  , .clearCallbacks
  , .checkTimeGuard
  , .vendorCall .cancelAutoFocus
  , .setBlockCbs 0 ]

def camera2GetParameters : List Action :=
  [ .vendorCall .getParameters
  , .vendorCall .putParameters ]

/- Closing no device still asks the worker to exit. -/
def camera2DeviceClose (device : Pointer) : List Action :=
  if device = 0 then
    [.exitThread, .joinThread]
  else
    [ .vendorCall .close
    , .freeDevice
    , .exitThread
    , .joinThread ]

/- `camera_device_ops` -/
inductive Operation where
| setPreviewWindow (window : Pointer)
| setCallbacks
    (notifyCb dataCb dataCbTimestamp getMemory
      user : Pointer)
| enableMsgType (msgType : Int32)
| disableMsgType (msgType : Int32)
| msgTypeEnabled (msgType : Int32)
| startPreview
| stopPreview
| previewEnabled
| storeMetaDataInBuffers (enable : Int32)
| startRecording
| stopRecording
| recordingEnabled
| releaseRecordingFrame (frame : Pointer)
| autoFocus
| cancelAutoFocus
| takePicture
| cancelPicture
| setParameters
| getParameters
| putParameters
| sendCommand (cmd arg1 arg2 : Int32)
| release
| dump (fd : Int32)
deriving DecidableEq, Repr

/- `put_parameters` only frees the text. -/
def Operation.actions : Operation → List Action
| .setPreviewWindow window =>
    forward (.setPreviewWindow window)
| .setCallbacks notifyCb dataCb dataCbTimestamp getMemory
    user =>
    camera2SetCallbacks notifyCb dataCb dataCbTimestamp
      getMemory user
| .enableMsgType msgType => forward (.enableMsgType msgType)
| .disableMsgType msgType =>
    forward (.disableMsgType msgType)
| .msgTypeEnabled msgType =>
    forward (.msgTypeEnabled msgType)
| .startPreview => forward .startPreview
| .stopPreview => camera2StopPreview
| .previewEnabled => forward .previewEnabled
| .storeMetaDataInBuffers enable =>
    forward (.storeMetaDataInBuffers enable)
| .startRecording => forward .startRecording
| .stopRecording => forward .stopRecording
| .recordingEnabled => forward .recordingEnabled
| .releaseRecordingFrame frame =>
    forward (.releaseRecordingFrame frame)
| .autoFocus => camera2AutoFocus
| .cancelAutoFocus => camera2CancelAutoFocus
| .takePicture => forward .takePicture
| .cancelPicture => forward .cancelPicture
| .setParameters => forward .setParameters
| .getParameters => camera2GetParameters
| .putParameters => []
| .sendCommand cmd arg1 arg2 =>
    forward (.sendCommand cmd arg1 arg2)
| .release => forward .release
| .dump fd => forward (.dump fd)

end Camera

end Universal7420

------------------------------------------------------------
-- The State
------------------------------------------------------------

namespace Universal7420

namespace Camera

/- A callback that the vendor HAL raises. -/
inductive HalCallback where
| notify
    (msgType ext1 ext2 : Int32)
    (user : Pointer)
| data
    (msgType : Int32)
    (memory : Pointer)
    (index : UInt32)
    (metadata user : Pointer)
deriving DecidableEq, Repr

/-
  The message that `WrappedNotifyCb` or `WrappedDataCb` builds;
  `new WorkerMessage()` sets the other fields to zero.
-/
def HalCallback.message : HalCallback → WorkerMessage
| .notify msgType ext1 ext2 user =>
    { cbType := cbTypeNotify
      msgType := msgType
      data := 0
      index := 0
      metadata := 0
      user := user
      ext1 := ext1
      ext2 := ext2 }
| .data msgType memory index metadata user =>
    { cbType := cbTypeData
      msgType := msgType
      data := memory
      index := index
      metadata := metadata
      user := user
      ext1 := 0
      ext2 := 0 }

/- A call in progress, with the result it has so far. -/
structure Call where
  device : Pointer
  remaining : List Action
  ret : Option Int32
  locked : Bool
deriving DecidableEq, Repr

/-
  The globals of the wrapper, the open devices, the calls in
  progress, and the callbacks that have passed the test of
  `BlockCbs` and are still to be posted.  `returned` and
  `vendorCalls` record what has been returned and called.
-/
structure WrapperState where
  blockCbs : Int32
  cancelAFTimeGuard : Int
  gVendorModule : Bool
  gCameraWrapperLock : Bool
  devices : List Pointer
  calls : List Call
  raised : List WorkerMessage
  cbThread : WorkerState
  returned : List (Option Int32)
  vendorCalls : List (Pointer × VendorCall)
deriving DecidableEq, Repr

def WrapperState.initial : WrapperState where
  blockCbs := 0
  cancelAFTimeGuard := 0
  gVendorModule := false
  gCameraWrapperLock := false
  devices := []
  calls := []
  raised := []
  cbThread := WorkerState.initial
  returned := []
  vendorCalls := []

/- Check for a thread, read the clock, and push. -/
def postMessage
    (w : WorkerState)
    (payload : Payload)
    (now : Int) : Option WorkerState :=
  (beginPost w payload now).bind
    (fun w' => pushMessage w' w.posting.length)

/- `ClearCallbacks` as a whole -/
def clearMessages
    (w : WorkerState) : Option WorkerState :=
  (workerStep w .clearCallbacks).bind
    (fun w' => workerStep w' .clear)

end Camera

end Universal7420

------------------------------------------------------------
-- Opening A Camera
------------------------------------------------------------

namespace Universal7420

namespace Camera

def einval : Int32 := -22
def enomem : Int32 := -12

/-
  What the vendor module and the allocator answer while a
  camera is opened.
-/
structure OpenAnswers where
  hwGetModuleByClass : Int32
  getNumberOfCameras : Int32
  mallocDevice : Pointer
  openLegacy : Int32
  mallocOps : Pointer
deriving DecidableEq, Repr

/-
  The part of `camera2_device_open` after the module check: the
  result, and the device if there is one.
-/
def openVendorDevice
    (name : String)
    (answers : OpenAnswers) : Int32 × Option Pointer :=
  if CText.atoi name > answers.getNumberOfCameras then
    (einval, none)
  else if answers.mallocDevice = 0 then
    (enomem, none)
  else if answers.openLegacy ≠ 0 then
    (answers.openLegacy, none)
  else if answers.mallocOps = 0 then
    (enomem, none)
  else
    (0, some answers.mallocDevice)

/-
  `camera2_device_open`, under the lock of the wrapper.  The
  worker is created whatever comes of the rest.
-/
def camera2DeviceOpen
    (s : WrapperState)
    (name : Option String)
    (answers : OpenAnswers) : Option WrapperState :=
  if s.gCameraWrapperLock ∨
      answers.mallocDevice ∈ s.devices then
    none
  else
    (workerStep s.cbThread .createThread).map (fun w =>
      let s := { s with cbThread := w, blockCbs := 0 }
      match name with
      | none => { s with returned := s.returned ++ [some 0] }
      | some name =>
          if ¬ s.gVendorModule ∧
              answers.hwGetModuleByClass ≠ 0 then
            { s with
              returned := s.returned ++ [some einval] }
          else
            let result := openVendorDevice name answers
            { s with
              gVendorModule := true
              devices := s.devices ++ result.2.toList
              returned :=
                s.returned ++ [some result.1] })

end Camera

end Universal7420

------------------------------------------------------------
-- Steps
------------------------------------------------------------

namespace Universal7420

namespace Camera

/- Whether a call goes on after an action, and its result. -/
inductive Flow where
| continues (ret : Option Int32)
| returns (ret : Option Int32)
deriving DecidableEq, Repr

/-
  One action.  `now` is the reading of the clock and `answer`
  the result of the vendor, where the action asks for them.
-/
def performAction
    (s : WrapperState)
    (call : Call)
    (now : Int)
    (answer : Int32) :
    Action → Option (WrapperState × Flow)
| .setBlockCbs value =>
    some ({ s with blockCbs := value }, .continues call.ret)
| .clearCallbacks =>
    (clearMessages s.cbThread).map (fun w =>
      ({ s with cbThread := w }, .continues call.ret))
| .setCallbacks data =>
    (postMessage s.cbThread (.updateCallbacks data) now).map
      (fun w =>
        ({ s with cbThread := w }, .continues call.ret))
| .vendorCall func =>
    some (
      { s with
        vendorCalls := s.vendorCalls ++ [(call.device, func)] },
      .continues
        (if func.returnsInt then some answer else call.ret))
| .armTimeGuard =>
    some (
      { s with cancelAFTimeGuard := now + 500 },
      .continues call.ret)
| .checkTimeGuard =>
    if s.cancelAFTimeGuard - now > 0 then
      some (s, .returns (some 0))
    else
      some (s, .continues call.ret)
| .freeDevice =>
    some (
      { s with devices := s.devices.erase call.device },
      .continues call.ret)
| .exitThread =>
    if s.cbThread.mThread then
      (postMessage s.cbThread .exitThread now).map (fun w =>
        ({ s with cbThread := w }, .continues call.ret))
    else
      some (s, .returns call.ret)
| .joinThread =>
    (workerStep s.cbThread .join).map (fun w =>
      ({ s with cbThread := w }, .continues call.ret))

/- A call returns and gives back the lock it holds. -/
def returnFrom
    (s : WrapperState)
    (index : Nat)
    (call : Call)
    (ret : Option Int32) : WrapperState :=
  { s with
    calls := s.calls.eraseIdx index
    returned := s.returned ++ [ret]
    gCameraWrapperLock :=
      !call.locked && s.gCameraWrapperLock }

/- The next action of a call, or its return. -/
def advance
    (s : WrapperState)
    (index : Nat)
    (now : Int)
    (answer : Int32) : Option WrapperState :=
  match s.calls[index]? with
  | none => none
  | some call =>
      match call.remaining with
      | [] => some (returnFrom s index call call.ret)
      | action :: rest =>
          match performAction s call now answer action with
          | none => none
          | some (s', .continues ret) =>
              some { s' with
                calls := s'.calls.set index
                  { call with
                    remaining := rest
                    ret := ret } }
          | some (s', .returns ret) =>
              some (returnFrom s' index call ret)

/-
  The steps of the clients, of the HAL threads and of the
  worker; `index` chooses a call or a raised callback.
-/
inductive WrapperEvent where
| deviceOpen (name : Option String) (answers : OpenAnswers)
| deviceClose (device : Pointer)
| call (device : Pointer) (operation : Operation)
| advance (index : Nat) (now : Int) (answer : Int32)
| raise (callback : HalCallback)
| post (index : Nat) (now : Int)
| dequeue
| handle (now : Int)
deriving DecidableEq, Repr

/-
  One step of one party.  Every operation but `close` traces a
  field of its device first, so that a null or freed device
  has no successor.
-/
def wrapperStep
    (s : WrapperState) :
    WrapperEvent → Option WrapperState
| .deviceOpen name answers => camera2DeviceOpen s name answers
| .deviceClose device =>
    if s.gCameraWrapperLock ∨
        (device ≠ 0 ∧ device ∉ s.devices) then
      none
    else
      some { s with
        gCameraWrapperLock := true
        calls := s.calls ++
          [{ device := device
             remaining := camera2DeviceClose device
             ret := if device = 0 then some einval else some 0
             locked := true }] }
| .call device operation =>
    if device ∈ s.devices then
      some { s with
        calls := s.calls ++
          [{ device := device
             remaining := operation.actions
             ret := none
             locked := false }] }
    else
      none
| .advance index now answer => advance s index now answer
| .raise callback =>
    if s.blockCbs = 1 then
      some s
    else
      some { s with raised := s.raised ++ [callback.message] }
| .post index now =>
    match s.raised[index]? with
    | none => none
    | some message =>
        (postMessage s.cbThread (.executeCallback message)
          now).map (fun w =>
            { s with
              cbThread := w
              raised := s.raised.eraseIdx index })
| .dequeue =>
    (workerStep s.cbThread .dequeue).map
      (fun w => { s with cbThread := w })
| .handle now =>
    (workerStep s.cbThread (.handle now)).map
      (fun w => { s with cbThread := w })

end Camera

end Universal7420

------------------------------------------------------------
-- What A Step Can Do
------------------------------------------------------------

namespace Universal7420

namespace Camera

inductive WrapperTransition
    (s : WrapperState) :
    WrapperEvent → WrapperState → Prop where
| opened
    {name : Option String}
    {answers : OpenAnswers}
    {s' : WrapperState}
    (hOpen : camera2DeviceOpen s name answers = some s') :
    WrapperTransition s (.deviceOpen name answers) s'
| closing
    {device : Pointer}
    (hLock : s.gCameraWrapperLock = false)
    (hDevice : device ≠ 0 → device ∈ s.devices) :
    WrapperTransition s (.deviceClose device)
      { s with
        gCameraWrapperLock := true
        calls := s.calls ++
          [{ device := device
             remaining := camera2DeviceClose device
             ret := if device = 0 then some einval else some 0
             locked := true }] }
| calling
    {device : Pointer}
    {operation : Operation}
    (hDevice : device ∈ s.devices) :
    WrapperTransition s (.call device operation)
      { s with
        calls := s.calls ++
          [{ device := device
             remaining := operation.actions
             ret := none
             locked := false }] }
| advanced
    {index : Nat}
    {now : Int}
    {answer : Int32}
    {s' : WrapperState}
    (hAdvance : advance s index now answer = some s') :
    WrapperTransition s (.advance index now answer) s'
| dropped
    {callback : HalCallback}
    (hBlock : s.blockCbs = 1) :
    WrapperTransition s (.raise callback) s
| raised
    {callback : HalCallback}
    (hBlock : s.blockCbs ≠ 1) :
    WrapperTransition s (.raise callback)
      { s with raised := s.raised ++ [callback.message] }
| posted
    {index : Nat}
    {now : Int}
    {message : WorkerMessage}
    {w : WorkerState}
    (hMessage : s.raised[index]? = some message)
    (hPost :
      postMessage s.cbThread (.executeCallback message) now =
        some w) :
    WrapperTransition s (.post index now)
      { s with
        cbThread := w
        raised := s.raised.eraseIdx index }
| dequeued
    {w : WorkerState}
    (hWorker : workerStep s.cbThread .dequeue = some w) :
    WrapperTransition s .dequeue { s with cbThread := w }
| handled
    {now : Int}
    {w : WorkerState}
    (hWorker :
      workerStep s.cbThread (.handle now) = some w) :
    WrapperTransition s (.handle now)
      { s with cbThread := w }

/- Every step is one of the transitions. -/
theorem wrapperStep_transition
    {s s' : WrapperState}
    {e : WrapperEvent}
    (hStep : wrapperStep s e = some s') :
    WrapperTransition s e s' := by
  cases e with
  | deviceOpen name answers =>
      exact .opened hStep
  | deviceClose device =>
      simp only [wrapperStep] at hStep
      split at hStep
      · cases hStep
      · rename_i hAllowed
        rw [not_or] at hAllowed
        rcases hAllowed with ⟨hLock, hDevice⟩
        cases hStep
        refine .closing (by simpa using hLock) ?_
        intro hNonzero
        by_contra hFreed
        exact hDevice ⟨hNonzero, hFreed⟩
  | call device operation =>
      simp only [wrapperStep] at hStep
      split at hStep
      · rename_i hDevice
        cases hStep
        exact .calling hDevice
      · cases hStep
  | advance index now answer =>
      exact .advanced hStep
  | raise callback =>
      simp only [wrapperStep] at hStep
      split at hStep
      · rename_i hBlock
        cases hStep
        exact .dropped hBlock
      · rename_i hBlock
        cases hStep
        exact .raised hBlock
  | post index now =>
      simp only [wrapperStep] at hStep
      split at hStep
      · cases hStep
      · rename_i hMessage
        rcases Option.map_eq_some_iff.mp hStep with
          ⟨w, hPost, hState⟩
        rw [← hState]
        exact .posted hMessage hPost
  | dequeue =>
      rcases Option.map_eq_some_iff.mp hStep with
        ⟨w, hWorker, hState⟩
      rw [← hState]
      exact .dequeued hWorker
  | handle now =>
      rcases Option.map_eq_some_iff.mp hStep with
        ⟨w, hWorker, hState⟩
      rw [← hState]
      exact .handled hWorker

end Camera

end Universal7420
