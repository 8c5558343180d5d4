import Universal7420.Lib.EventSystem

/-
  The Bluetooth HAL of `bluetooth_hci.cc` and
  `vendor_interface.cc`.

  The client opens and closes one interface to the vendor
  library and sends packets through it.  The library sends
  commands of its own and takes the answers to them, the
  controller sends events, and a timer lets the chip sleep.
  What the HAL does is recorded in the order in which it does
  it.

  Each call runs as a whole: `Send` and `OnTimeout` hold one
  mutex, and what the library calls back in the middle of a
  call is a call after it.  A call that uses a null pointer or
  is a fatal error has no successor.

  Main declarations:
    * `Universal7420.Bluetooth.State`
    * `Universal7420.Bluetooth.openInterface`
    * `Universal7420.Bluetooth.closeInterface`
    * `Universal7420.Bluetooth.send`
    * `Universal7420.Bluetooth.handleIncomingEvent`
    * `Universal7420.Bluetooth.step`
    * `Universal7420.Bluetooth.system`
-/

------------------------------------------------------------
-- Records Of The HAL
------------------------------------------------------------

namespace Universal7420

namespace Bluetooth

/- The opcodes of `lib_interface_->op` that are used. -/
inductive VendorOp where
| powerOn
| powerOff
| userialOpen
| userialClose
| fwCfg
| scoCfg
| getLpmIdleTimeout
| lpmEnable
| lpmDisable
| wakeAssert
| wakeDeassert
deriving DecidableEq, Repr

/- A client is known by a number, and so is a callback. -/
inductive Output where
| link (client : Nat)
| unlink (client : Nat)
| init
| cleanup
| op (op : VendorOp)
| packet (type : Nat) (data : List Nat)
| event (client : Nat) (packet : List Nat)
| command (callback : Nat) (packet : List Nat)
| complete (client : Nat) (success : Bool)
deriving DecidableEq, Repr

/- One descriptor for everything, or one for each channel. -/
inductive Protocol where
| h4
| mct
deriving DecidableEq, Repr

/- The members of `VendorInterface`. -/
structure VendorInterface where
  libHandle : Bool
  libInterface : Bool
  hci : Option Protocol
  initializeCompleteCb : Option Nat
  eventCb : Option Nat
  -- The timeout of `fd_watcher_`, which is off at zero.
  timeoutMs : Nat
deriving DecidableEq, Repr

/-
  The variables of the two files, what the binder and the
  library keep for them, and the record of what was done.
-/
structure State where
  vendorInterface : Option VendorInterface
  internalCommand : Option Nat
  opcode : Nat
  lpmWakeDeasserted : Bool
  lpmTimeoutMs : Nat
  recentActivityFlag : Bool
  unlinkCb : Option Nat
  hasDied : Bool
  linked : List Nat
  configuring : Bool
  outputs : List Output
deriving DecidableEq, Repr

def State.initial : State where
  vendorInterface := none
  internalCommand := none
  opcode := 0
  lpmWakeDeasserted := false
  lpmTimeoutMs := 0
  recentActivityFlag := false
  unlinkCb := none
  hasDied := false
  linked := []
  configuring := false
  outputs := []

def State.emit
    (s : State)
    (outputs : List Output) :
    State :=
  { s with outputs := s.outputs ++ outputs }

def State.setInterface
    (s : State)
    (v : VendorInterface) :
    State :=
  { s with vendorInterface := some v }

end Bluetooth

end Universal7420

------------------------------------------------------------
-- Opening And Closing
------------------------------------------------------------

namespace Universal7420

namespace Bluetooth

/- What `Open` is told by the system and the library. -/
structure Answers where
  library : Bool
  symbol : Bool
  address : Bool
  status : Int
  fdCount : Int
  fdList : List Int
deriving DecidableEq, Repr

/- `CH_MAX` of the vendor library. -/
def chMax : Nat := 4

def invalidFd : Int := -1

/- The members of a new interface. -/
def VendorInterface.new (client : Nat) : VendorInterface where
  libHandle := false
  libInterface := false
  hci := none
  initializeCompleteCb := some client
  eventCb := none
  timeoutMs := 0

/- `Open` of a new interface. -/
def openInterface
    (s : State)
    (client : Nat)
    (answers : Answers) :
    Option (Bool × State) :=
  let v := VendorInterface.new client
  if answers.library = false then
    some (false, s.setInterface v)
  else if answers.symbol = false then
    some (false, s.setInterface { v with libHandle := true })
  else if answers.address = false then
    -- No address is a fatal error.
    none
  else
    let v :=
      { v with libHandle := true, libInterface := true }
    let s := (s.setInterface v).emit [.init]
    if answers.status ≠ 0 then
      some (false, s)
    else
      let s := s.emit [.op .powerOn, .op .userialOpen]
      if answers.fdCount < 1 ∨
          (chMax : Int) - 1 < answers.fdCount
      then
        some (false, s)
      else if invalidFd ∈
          answers.fdList.take answers.fdCount.toNat
      then
        some (false, s)
      else
        let hci :=
          if answers.fdCount = 1 then Protocol.h4
          else Protocol.mct
        let s :=
          s.setInterface
            { v with hci := some hci, eventCb := some client }
        some
          ( true
          , { s with
              lpmWakeDeasserted := true
              configuring := true }.emit [.op .fwCfg] )

/- `VendorInterface::Initialize`. -/
def vendorInitialize
    (s : State)
    (client : Nat)
    (answers : Answers) :
    Option (Bool × State) :=
  match s.vendorInterface with
  | some _ => some (false, s)
  | none => openInterface s client answers

/- `BluetoothHci::initialize`. -/
def hciInitialize
    (s : State)
    (client : Nat)
    (answers : Answers) :
    Option State :=
  let s :=
    { s with
      hasDied := false
      linked := client :: s.linked }.emit [.link client]
  match vendorInitialize s client answers with
  | none => none
  | some (rc, s) =>
      let s :=
        if rc then s else s.emit [.complete client false]
      some { s with unlinkCb := some client }

/- What `Close` tells the library, if there is one. -/
def closing (v : VendorInterface) : List Output :=
  if v.libInterface then
    [ .op .lpmDisable, .op .userialClose
    , .op .powerOff, .cleanup ]
  else
    []

/- `Close`, and the deletion of the interface. -/
def closeInterface
    (s : State)
    (v : VendorInterface) :
    State :=
  { s with
    vendorInterface := none
    configuring := false }.emit (closing v)

/- `BluetoothHci::close`. -/
def close (s : State) : Option State :=
  match s.unlinkCb, s.vendorInterface with
  | some client, some v =>
      let s :=
        if s.hasDied then
          s
        else
          { s with
            linked := s.linked.erase client }.emit
            [.unlink client]
      some (closeInterface s v)
  | _, _ => none

/- `serviceDied`: the binder tells it to a linked recipient. -/
def serviceDied
    (s : State)
    (client : Nat) :
    Option State :=
  if client ∈ s.linked then
    close
      { s with
        hasDied := true
        linked := s.linked.erase client }
  else
    none

end Bluetooth

end Universal7420

------------------------------------------------------------
-- Packets And Events
------------------------------------------------------------

namespace Universal7420

namespace Bluetooth

/- `Send`: the chip is woken before the packet is sent. -/
def send
    (s : State)
    (type : Nat)
    (data : List Nat) :
    Option State :=
  match s.vendorInterface with
  | none => none
  | some v =>
      let s := { s with recentActivityFlag := true }
      if v.hci = none then
        none
      else if s.lpmWakeDeasserted then
        let s :=
          s.setInterface { v with timeoutMs := s.lpmTimeoutMs }
        some
          ({ s with lpmWakeDeasserted := false }.emit
            [.op .wakeAssert, .packet type data])
      else
        some (s.emit [.packet type data])

/- `HCI_PACKET_TYPE_COMMAND`. -/
def packetTypeCommand : Nat := 1

/- `transmit_cb`: the library sends a command of its own. -/
def transmitCb
    (s : State)
    (opcode : Nat)
    (data : List Nat)
    (callback : Nat) :
    Option State :=
  send
    { s with
      internalCommand := some callback
      opcode := opcode }
    packetTypeCommand data

/- The call of `initialize_complete_cb_`, if it is set. -/
def completing
    (v : VendorInterface)
    (success : Bool) :
    List Output :=
  match v.initializeCompleteCb with
  | none => []
  | some client => [.complete client success]

/- `OnFirmwareConfigured`. -/
def onFirmwareConfigured
    (s : State)
    (result : Nat)
    (idleTimeoutMs : Nat) :
    Option State :=
  match s.vendorInterface with
  | none => none
  | some v =>
      let s :=
        s.setInterface
          { v with
            initializeCompleteCb := none
            timeoutMs := idleTimeoutMs }
      some
        ({ s with lpmTimeoutMs := idleTimeoutMs }.emit
          (completing v (decide (result = 0)) ++
            [ Output.op .scoCfg, Output.op .getLpmIdleTimeout
            , Output.op .lpmEnable ]))

/- The firmware is configured only if it was asked for. -/
def firmwareConfigCb
    (s : State)
    (result : Nat)
    (idleTimeoutMs : Nat) :
    Option State :=
  if s.configuring then
    onFirmwareConfigured s result idleTimeoutMs
  else
    none

/- `OnTimeout`, which is called while the timer is on. -/
def onTimeout (s : State) : Option State :=
  match s.vendorInterface with
  | none => none
  | some v =>
      if v.timeoutMs = 0 then
        none
      else if s.recentActivityFlag then
        some { s with recentActivityFlag := false }
      else
        let s := s.setInterface { v with timeoutMs := 0 }
        some
          ({ s with lpmWakeDeasserted := true }.emit
            [.op .wakeDeassert])

/- `HCI_COMMAND_COMPLETE_EVENT`. -/
def commandCompleteEvent : Nat := 14

/-
  `internal_command_event_match`.  The opcode is behind the
  preamble of two bytes and the number of packets; a packet
  that ends before it is read past its end.
-/
def internalCommandEventMatch
    (s : State)
    (packet : List Nat) :
    Option Bool :=
  match packet with
  | [] => none
  | eventCode :: _ =>
      if eventCode ≠ commandCompleteEvent then
        some false
      else
        match packet[3]?, packet[4]? with
        | some low, some high =>
            some (decide (low + 256 * high = s.opcode))
        | _, _ => none

/- `HandleIncomingEvent`, while the descriptors are watched. -/
def handleIncomingEvent
    (s : State)
    (packet : List Nat) :
    Option State :=
  match s.vendorInterface with
  | none => none
  | some v =>
      match v.hci, v.eventCb with
      | some _, some client =>
          match s.internalCommand with
          | none => some (s.emit [.event client packet])
          | some callback =>
              match internalCommandEventMatch s packet with
              | none => none
              | some true =>
                  some
                    ({ s with internalCommand := none }.emit
                      [.command callback packet])
              | some false =>
                  some (s.emit [.event client packet])
      | _, _ => none

end Bluetooth

end Universal7420

------------------------------------------------------------
-- Runs
------------------------------------------------------------

namespace Universal7420

namespace Bluetooth

inductive Event where
| hciInitialize (client : Nat) (answers : Answers)
| close
| died (client : Nat)
| send (type : Nat) (data : List Nat)
| transmit
    (opcode : Nat)
    (data : List Nat)
    (callback : Nat)
| configured (result idleTimeoutMs : Nat)
| timeout
| incoming (packet : List Nat)
deriving DecidableEq, Repr

def step (s : State) : Event → Option State
| .hciInitialize client answers =>
    Bluetooth.hciInitialize s client answers
| .close => Bluetooth.close s
| .died client => serviceDied s client
| .send type data => Bluetooth.send s type data
| .transmit opcode data callback =>
    transmitCb s opcode data callback
| .configured result idleTimeoutMs =>
    firmwareConfigCb s result idleTimeoutMs
| .timeout => onTimeout s
| .incoming packet => handleIncomingEvent s packet

def system : EventSystem State Event where
  init := State.initial
  step := step

end Bluetooth

end Universal7420
