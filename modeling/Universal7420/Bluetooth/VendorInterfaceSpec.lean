import Universal7420.Bluetooth.VendorInterface

/-
  What the Bluetooth HAL keeps to in every run.

  Packets are sent only to a chip that is awake, the library
  is used between its initialization and its cleanup, a client
  is told once that the initialization is over, every event
  goes to one receiver, and a dead client closes the
  interface.

  Main declarations:
    * `Universal7420.Bluetooth.packets_awake`
    * `Universal7420.Bluetooth.sleeps_when_idle`
    * `Universal7420.Bluetooth.library_in_brackets`
    * `Universal7420.Bluetooth.completed_at_most_once`
    * `Universal7420.Bluetooth.events_routed`
    * `Universal7420.Bluetooth.death_handled`
-/

------------------------------------------------------------
-- What A Step Can Do
------------------------------------------------------------

namespace Universal7420

namespace Bluetooth

variable {s s' : State}
variable {client : Nat}

theorem emit_nil : s.emit [] = s := by
  rw [State.emit, List.append_nil]

theorem emit_emit
    {first second : List Output} :
    (s.emit first).emit second =
      s.emit (first ++ second) := by
  simp [State.emit]

/- An interface that `Open` has left half made. -/
structure FailedOpen
    (v : VendorInterface)
    (outputs : List Output) :
    Prop where
  hci : v.hci = none
  timeoutMs : v.timeoutMs = 0
  told :
    (v.libInterface = false ∧ outputs = []) ∨
    (v.libInterface = true ∧ outputs = [.init]) ∨
    (v.libInterface = true ∧
      outputs = [.init, .op .powerOn, .op .userialOpen])

/- An interface after `Open`. -/
structure Opened
    (client : Nat)
    (v : VendorInterface) :
    Prop where
  hci : v.hci ≠ none
  libInterface : v.libInterface = true
  initializeCompleteCb : v.initializeCompleteCb = some client
  eventCb : v.eventCb = some client
  timeoutMs : v.timeoutMs = 0

theorem openInterface_cases
    {answers : Answers}
    {rc : Bool}
    (hOpen : openInterface s client answers = some (rc, s')) :
    (rc = false ∧
      ∃ v outputs,
        FailedOpen v outputs ∧
        s' = (s.setInterface v).emit outputs) ∨
    (rc = true ∧
      ∃ v,
        Opened client v ∧
        s' =
          { s.setInterface v with
            lpmWakeDeasserted := true
            configuring := true }.emit
            [ .init, .op .powerOn, .op .userialOpen
            , .op .fwCfg ]) := by
  rw [openInterface] at hOpen
  split at hOpen
  · cases hOpen
    refine Or.inl ⟨rfl, VendorInterface.new client, [],
      ⟨rfl, rfl, Or.inl ⟨rfl, rfl⟩⟩, ?_⟩
    rw [emit_nil]
  · split at hOpen
    · cases hOpen
      refine Or.inl ⟨rfl,
        { VendorInterface.new client with libHandle := true },
        [], ⟨rfl, rfl, Or.inl ⟨rfl, rfl⟩⟩, ?_⟩
      rw [emit_nil]
    · split at hOpen
      · cases hOpen
      · split at hOpen
        · cases hOpen
          exact Or.inl ⟨rfl, _, [.init],
            ⟨rfl, rfl, Or.inr (Or.inl ⟨rfl, rfl⟩)⟩, rfl⟩
        · split at hOpen
          · cases hOpen
            rw [emit_emit]
            exact Or.inl ⟨rfl, _, _,
              ⟨rfl, rfl, Or.inr (Or.inr ⟨rfl, rfl⟩)⟩, rfl⟩
          · split at hOpen
            · cases hOpen
              rw [emit_emit]
              exact Or.inl ⟨rfl, _, _,
                ⟨rfl, rfl, Or.inr (Or.inr ⟨rfl, rfl⟩)⟩, rfl⟩
            · cases hOpen
              rw [emit_emit]
              refine Or.inr ⟨rfl,
                { VendorInterface.new client with
                  libHandle := true
                  libInterface := true
                  hci := some
                    (if answers.fdCount = 1 then Protocol.h4
                    else Protocol.mct)
                  eventCb := some client },
                ⟨by simp, rfl, rfl, rfl, rfl⟩, ?_⟩
              simp [State.emit, State.setInterface]

/- The two ways to send a packet. -/
inductive Sending
    (s : State) :
    Event → Option Nat → Nat → Nat → List Nat → Prop
| client
    (type : Nat)
    (data : List Nat) :
    Sending s (.send type data) s.internalCommand s.opcode
      type data
| library
    (opcode : Nat)
    (data : List Nat)
    (callback : Nat) :
    Sending s (.transmit opcode data callback)
      (some callback) opcode packetTypeCommand data

/- All that a step can do. -/
inductive Transition
    (s : State) :
    Event → State → Prop
| refused
    (client : Nat)
    (answers : Answers)
    (v : VendorInterface)
    (hThere : s.vendorInterface = some v) :
    Transition s (.hciInitialize client answers)
      { s with
        hasDied := false
        linked := client :: s.linked
        unlinkCb := some client
        outputs :=
          s.outputs ++
            [.link client, .complete client false] }
| failed
    (client : Nat)
    (answers : Answers)
    (v : VendorInterface)
    (outputs : List Output)
    (hNone : s.vendorInterface = none)
    (hFailed : FailedOpen v outputs) :
    Transition s (.hciInitialize client answers)
      { s with
        vendorInterface := some v
        hasDied := false
        linked := client :: s.linked
        unlinkCb := some client
        outputs :=
          s.outputs ++
            ([.link client] ++
              (outputs ++ [.complete client false])) }
| opened
    (client : Nat)
    (answers : Answers)
    (v : VendorInterface)
    (hNone : s.vendorInterface = none)
    (hOpened : Opened client v) :
    Transition s (.hciInitialize client answers)
      { s with
        vendorInterface := some v
        lpmWakeDeasserted := true
        configuring := true
        hasDied := false
        linked := client :: s.linked
        unlinkCb := some client
        outputs :=
          s.outputs ++
            [ .link client, .init, .op .powerOn
            , .op .userialOpen, .op .fwCfg ] }
| closed
    (client : Nat)
    (v : VendorInterface)
    (hThere : s.vendorInterface = some v)
    (hUnlink : s.unlinkCb = some client) :
    Transition s .close
      { s with
        vendorInterface := none
        configuring := false
        linked :=
          if s.hasDied then s.linked
          else s.linked.erase client
        outputs :=
          s.outputs ++
            ((if s.hasDied then [] else [.unlink client]) ++
              closing v) }
| died
    (client last : Nat)
    (v : VendorInterface)
    (hLinked : client ∈ s.linked)
    (hThere : s.vendorInterface = some v)
    (hUnlink : s.unlinkCb = some last) :
    Transition s (.died client)
      { s with
        vendorInterface := none
        configuring := false
        hasDied := true
        linked := s.linked.erase client
        outputs := s.outputs ++ closing v }
| awake
    (e : Event)
    (command : Option Nat)
    (opcode type : Nat)
    (data : List Nat)
    (v : VendorInterface)
    (hSending : Sending s e command opcode type data)
    (hThere : s.vendorInterface = some v)
    (hHci : v.hci ≠ none)
    (hAwake : s.lpmWakeDeasserted = false) :
    Transition s e
      { s with
        internalCommand := command
        opcode := opcode
        recentActivityFlag := true
        outputs := s.outputs ++ [.packet type data] }
| asleep
    (e : Event)
    (command : Option Nat)
    (opcode type : Nat)
    (data : List Nat)
    (v : VendorInterface)
    (hSending : Sending s e command opcode type data)
    (hThere : s.vendorInterface = some v)
    (hHci : v.hci ≠ none)
    (hAsleep : s.lpmWakeDeasserted = true) :
    Transition s e
      { s with
        vendorInterface :=
          some { v with timeoutMs := s.lpmTimeoutMs }
        internalCommand := command
        opcode := opcode
        lpmWakeDeasserted := false
        recentActivityFlag := true
        outputs :=
          s.outputs ++
            [.op .wakeAssert, .packet type data] }
| configured
    (result idleTimeoutMs : Nat)
    (v : VendorInterface)
    (hAsked : s.configuring = true)
    (hThere : s.vendorInterface = some v) :
    Transition s (.configured result idleTimeoutMs)
      { s with
        vendorInterface :=
          some
            { v with
              initializeCompleteCb := none
              timeoutMs := idleTimeoutMs }
        lpmTimeoutMs := idleTimeoutMs
        outputs :=
          s.outputs ++
            (completing v (decide (result = 0)) ++
              [ .op .scoCfg, .op .getLpmIdleTimeout
              , .op .lpmEnable ]) }
| active
    (v : VendorInterface)
    (hThere : s.vendorInterface = some v)
    (hTimer : v.timeoutMs ≠ 0)
    (hActive : s.recentActivityFlag = true) :
    Transition s .timeout { s with recentActivityFlag := false }
| idle
    (v : VendorInterface)
    (hThere : s.vendorInterface = some v)
    (hTimer : v.timeoutMs ≠ 0)
    (hIdle : s.recentActivityFlag = false) :
    Transition s .timeout
      { s with
        vendorInterface := some { v with timeoutMs := 0 }
        lpmWakeDeasserted := true
        outputs := s.outputs ++ [.op .wakeDeassert] }
| delivered
    (packet : List Nat)
    (client : Nat)
    (v : VendorInterface)
    (hThere : s.vendorInterface = some v)
    (hHci : v.hci ≠ none)
    (hEventCb : v.eventCb = some client)
    (hOther :
      ∀ callback,
        s.internalCommand = some callback →
        internalCommandEventMatch s packet = some false) :
    Transition s (.incoming packet)
      { s with
        outputs := s.outputs ++ [.event client packet] }
| answered
    (packet : List Nat)
    (callback : Nat)
    (v : VendorInterface)
    (hThere : s.vendorInterface = some v)
    (hHci : v.hci ≠ none)
    (hPending : s.internalCommand = some callback)
    (hMatch :
      internalCommandEventMatch s packet = some true) :
    Transition s (.incoming packet)
      { s with
        internalCommand := none
        outputs := s.outputs ++ [.command callback packet] }

theorem hciInitialize_transition
    {answers : Answers}
    (hStep : hciInitialize s client answers = some s') :
    Transition s (.hciInitialize client answers) s' := by
  rw [hciInitialize] at hStep
  split at hStep
  · cases hStep
  · rename_i rc opened hInit
    cases hStep
    rw [vendorInitialize] at hInit
    split at hInit
    · rename_i v hFound
      cases hInit
      have hThere : s.vendorInterface = some v := hFound
      simpa [State.emit] using
        Transition.refused client answers v hThere
    · rename_i hNotFound
      have hNone : s.vendorInterface = none := hNotFound
      rcases openInterface_cases hInit with
        ⟨rfl, v, outputs, hFailed, rfl⟩ | ⟨rfl, v, hOpened, rfl⟩
      · simpa [State.emit, State.setInterface] using
          Transition.failed client answers v outputs hNone
            hFailed
      · simpa [State.emit, State.setInterface] using
          Transition.opened client answers v hNone hOpened

theorem close_transition
    (hStep : close s = some s') :
    Transition s .close s' := by
  rw [close] at hStep
  split at hStep
  · rename_i client v hUnlink hThere
    cases hStep
    have hClosed :=
      Transition.closed client v hThere hUnlink
    cases hDied : s.hasDied with
    | true =>
        simpa [closeInterface, State.emit, hDied] using
          hClosed
    | false =>
        simpa [closeInterface, State.emit, hDied] using
          hClosed
  · cases hStep

theorem serviceDied_transition
    (hStep : serviceDied s client = some s') :
    Transition s (.died client) s' := by
  rw [serviceDied] at hStep
  split at hStep
  · rename_i hLinked
    rw [close] at hStep
    split at hStep
    · rename_i last v hUnlink hThere
      cases hStep
      exact Transition.died client last v hLinked hThere
        hUnlink
    · cases hStep
  · cases hStep

theorem send_transition
    {command : Option Nat}
    {opcode type : Nat}
    {data : List Nat}
    {e : Event}
    (hSending : Sending s e command opcode type data)
    (hStep :
      send
        { s with internalCommand := command, opcode := opcode }
        type data = some s') :
    Transition s e s' := by
  rw [send] at hStep
  split at hStep
  · cases hStep
  · rename_i v hThere
    dsimp only at hStep
    split at hStep
    · cases hStep
    · rename_i hHci
      split at hStep
      · rename_i hAsleep
        cases hStep
        exact Transition.asleep e command opcode type data v
          hSending hThere hHci hAsleep
      · rename_i hAwake
        cases hStep
        exact Transition.awake e command opcode type data v
          hSending hThere hHci (by simpa using hAwake)

theorem firmwareConfigCb_transition
    {result idleTimeoutMs : Nat}
    (hStep :
      firmwareConfigCb s result idleTimeoutMs = some s') :
    Transition s (.configured result idleTimeoutMs) s' := by
  rw [firmwareConfigCb] at hStep
  split at hStep
  · rename_i hAsked
    rw [onFirmwareConfigured] at hStep
    split at hStep
    · cases hStep
    · rename_i v hThere
      cases hStep
      exact Transition.configured result idleTimeoutMs v
        hAsked hThere
  · cases hStep

theorem onTimeout_transition
    (hStep : onTimeout s = some s') :
    Transition s .timeout s' := by
  rw [onTimeout] at hStep
  split at hStep
  · cases hStep
  · rename_i v hThere
    split at hStep
    · cases hStep
    · rename_i hTimer
      split at hStep
      · rename_i hActive
        cases hStep
        exact Transition.active v hThere hTimer hActive
      · rename_i hIdle
        cases hStep
        exact Transition.idle v hThere hTimer
          (by simpa using hIdle)

theorem handleIncomingEvent_transition
    {packet : List Nat}
    (hStep : handleIncomingEvent s packet = some s') :
    Transition s (.incoming packet) s' := by
  rw [handleIncomingEvent] at hStep
  split at hStep
  · cases hStep
  · rename_i v hThere
    split at hStep
    · rename_i protocol client hProtocol hEventCb
      have hHci : v.hci ≠ none := by
        rw [hProtocol]
        simp
      split at hStep
      · rename_i hNone
        cases hStep
        refine Transition.delivered packet client v hThere hHci
          hEventCb ?_
        intro callback hPending
        rw [hNone] at hPending
        cases hPending
      · rename_i callback hPending
        split at hStep
        · cases hStep
        · rename_i hMatch
          cases hStep
          exact Transition.answered packet callback v hThere
            hHci hPending hMatch
        · rename_i hMatch
          cases hStep
          exact Transition.delivered packet client v hThere
            hHci hEventCb (fun _ _ => hMatch)
    · cases hStep

theorem step_transition
    {e : Event}
    (hStep : step s e = some s') :
    Transition s e s' := by
  cases e with
  | hciInitialize client answers =>
      exact hciInitialize_transition hStep
  | close => exact close_transition hStep
  | died client => exact serviceDied_transition hStep
  | send type data =>
      exact send_transition (Sending.client type data) hStep
  | transmit opcode data callback =>
      exact send_transition
        (Sending.library opcode data callback) hStep
  | configured result idleTimeoutMs =>
      exact firmwareConfigCb_transition hStep
  | timeout => exact onTimeout_transition hStep
  | incoming packet =>
      exact handleIncomingEvent_transition hStep

end Bluetooth

end Universal7420

------------------------------------------------------------
-- The Chip Is Awake
------------------------------------------------------------

namespace Universal7420

namespace Bluetooth

variable {s s' : State}

/- Whether the wake line is up, after what was done. -/
def wakeAfter (awake : Bool) : Output → Bool
| .op .wakeAssert => true
| .op .wakeDeassert => false
| .op .powerOn => false
| .op .powerOff => false
| _ => awake

def awake (outputs : List Output) : Bool :=
  outputs.foldl wakeAfter false

theorem awake_append
    {outputs more : List Output} :
    awake (outputs ++ more) =
      more.foldl wakeAfter (awake outputs) := by
  rw [awake, awake, List.foldl_append]

/- Every packet was sent while the chip was awake. -/
def PacketsAwake (outputs : List Output) : Prop :=
  ∀ before type data after,
    outputs = before ++ .packet type data :: after →
    awake before = true

def Output.isPacket : Output → Bool
| .packet _ _ => true
| _ => false

theorem PacketsAwake.snoc
    {outputs : List Output}
    {output : Output}
    (hPackets : PacketsAwake outputs)
    (hAwake :
      output.isPacket = true → awake outputs = true) :
    PacketsAwake (outputs ++ [output]) := by
  intro before type data after hSplit
  rcases List.eq_nil_or_concat after with rfl | ⟨rest, last, rfl⟩
  · rcases List.append_inj' hSplit rfl with ⟨rfl, hLast⟩
    rw [List.singleton_inj] at hLast
    exact hAwake (by rw [hLast]; rfl)
  · rw [List.concat_eq_append, ← List.cons_append,
      ← List.append_assoc] at hSplit
    rcases List.append_inj' hSplit rfl with ⟨hFront, _⟩
    exact hPackets before type data rest hFront

theorem PacketsAwake.quiet
    {outputs more : List Output}
    (hPackets : PacketsAwake outputs)
    (hQuiet : ∀ output ∈ more, output.isPacket = false) :
    PacketsAwake (outputs ++ more) := by
  induction more generalizing outputs with
  | nil => rwa [List.append_nil]
  | cons output more ih =>
      rw [List.forall_mem_cons] at hQuiet
      rw [← List.singleton_append, ← List.append_assoc]
      refine ih (hPackets.snoc ?_) hQuiet.2
      rw [hQuiet.1]
      intro hPacket
      cases hPacket

/- The wake line, the flags and the timer. -/
structure Wake (s : State) : Prop where
  packets : PacketsAwake s.outputs
  up :
    ∀ v,
      s.vendorInterface = some v →
      v.hci ≠ none →
      v.libInterface = true ∧
      awake s.outputs = !s.lpmWakeDeasserted ∧
      (s.lpmWakeDeasserted = false →
        v.timeoutMs = s.lpmTimeoutMs)
  down :
    (∀ v, s.vendorInterface = some v → v.hci = none) →
    awake s.outputs = false
  off :
    ∀ v,
      s.vendorInterface = some v →
      v.hci = none →
      v.timeoutMs = 0
  asked :
    s.configuring = true →
    ∃ v, s.vendorInterface = some v ∧ v.hci ≠ none

theorem initial_wake : Wake State.initial := by
  refine ⟨?_, ?_, ?_, ?_, ?_⟩
  · intro before type data after hSplit
    cases before with
    | nil => cases hSplit
    | cons first rest => cases hSplit
  · intro v hThere
    cases hThere
  · intro _
    rfl
  · intro v hThere
    cases hThere
  · intro hAsked
    cases hAsked

/- Closing leaves the chip without power. -/
theorem awake_closing
    {v : VendorInterface}
    (hWake : Wake s)
    (hThere : s.vendorInterface = some v) :
    (closing v).foldl wakeAfter (awake s.outputs) =
      false := by
  rw [closing]
  split
  · rfl
  · rename_i hNoLibrary
    refine hWake.down ?_
    intro w hW
    rw [hThere, Option.some.injEq] at hW
    by_contra hHci
    rw [← hW] at hHci
    exact hNoLibrary (hWake.up v hThere hHci).1

theorem closing_quiet
    {v : VendorInterface} :
    ∀ output ∈ closing v, output.isPacket = false := by
  rw [closing]
  split
  · simp [Output.isPacket]
  · simp

theorem completing_quiet
    {v : VendorInterface}
    {success : Bool} :
    ∀ output ∈ completing v success,
      output.isPacket = false := by
  rw [completing]
  split
  · simp
  · simp [Output.isPacket]

theorem foldl_wakeAfter_completing
    {v : VendorInterface}
    {success before : Bool} :
    (completing v success).foldl wakeAfter before =
      before := by
  rw [completing]
  split
  · rfl
  · rfl

/- Without an interface the invariant is about the record. -/
theorem Wake.without
    (hPackets : PacketsAwake s.outputs)
    (hNone : s.vendorInterface = none)
    (hAsleep : awake s.outputs = false)
    (hAsked : s.configuring = false) :
    Wake s := by
  refine ⟨hPackets, ?_, fun _ => hAsleep, ?_, ?_⟩
  · intro v hThere
    rw [hNone] at hThere
    cases hThere
  · intro v hThere
    rw [hNone] at hThere
    cases hThere
  · intro hConfiguring
    rw [hAsked] at hConfiguring
    cases hConfiguring

/- An interface that is open. -/
theorem Wake.running
    {v : VendorInterface}
    (hPackets : PacketsAwake s.outputs)
    (hThere : s.vendorInterface = some v)
    (hHci : v.hci ≠ none)
    (hLibrary : v.libInterface = true)
    (hAwake : awake s.outputs = !s.lpmWakeDeasserted)
    (hTimer :
      s.lpmWakeDeasserted = false →
      v.timeoutMs = s.lpmTimeoutMs) :
    Wake s := by
  refine ⟨hPackets, ?_, ?_, ?_, fun _ => ⟨v, hThere, hHci⟩⟩
  · intro w hW _
    rw [hThere, Option.some.injEq] at hW
    rw [← hW]
    exact ⟨hLibrary, hAwake, hTimer⟩
  · intro hNot
    exact absurd (hNot v hThere) hHci
  · intro w hW hNot
    rw [hThere, Option.some.injEq] at hW
    rw [← hW] at hNot
    exact absurd hNot hHci

theorem Wake.down_of_none
    (hWake : Wake s)
    (hNone : s.vendorInterface = none) :
    awake s.outputs = false ∧ s.configuring = false := by
  constructor
  · refine hWake.down ?_
    intro v hThere
    rw [hNone] at hThere
    cases hThere
  · rw [Bool.eq_false_iff]
    intro hAsked
    rcases hWake.asked hAsked with ⟨v, hThere, _⟩
    rw [hNone] at hThere
    cases hThere

theorem Wake.open_of_asked
    {v : VendorInterface}
    (hWake : Wake s)
    (hAsked : s.configuring = true)
    (hThere : s.vendorInterface = some v) :
    v.hci ≠ none := by
  rcases hWake.asked hAsked with ⟨w, hW, hHci⟩
  rw [hThere, Option.some.injEq] at hW
  rw [hW]
  exact hHci

/- Something is said to or by the chip that stays as it is. -/
theorem Wake.also
    {v : VendorInterface}
    {output : Output}
    (hWake : Wake s)
    (hThere : s.vendorInterface = some v)
    (hHci : v.hci ≠ none)
    (hStill : s'.vendorInterface = some v)
    (hLine : s'.lpmWakeDeasserted = s.lpmWakeDeasserted)
    (hTimeout : s'.lpmTimeoutMs = s.lpmTimeoutMs)
    (hOutputs : s'.outputs = s.outputs ++ [output])
    (hSame : ∀ before, wakeAfter before output = before)
    (hAwake :
      output.isPacket = true → s.lpmWakeDeasserted = false) :
    Wake s' := by
  rcases hWake.up v hThere hHci with ⟨hLibrary, hUp, hTimer⟩
  refine Wake.running ?_ hStill hHci hLibrary ?_ ?_
  · rw [hOutputs]
    refine hWake.packets.snoc ?_
    intro hPacket
    rw [hUp, hAwake hPacket]
    rfl
  · rw [hOutputs, hLine, awake_append, List.foldl_cons,
      hSame]
    exact hUp
  · rw [hLine, hTimeout]
    exact hTimer

theorem Wake.failed
    {v : VendorInterface}
    {client : Nat}
    {outputs : List Output}
    (hWake : Wake s)
    (hNone : s.vendorInterface = none)
    (hFailed : FailedOpen v outputs) :
    PacketsAwake
      (s.outputs ++
        ([.link client] ++
          (outputs ++ [.complete client false]))) ∧
    awake
      (s.outputs ++
        ([.link client] ++
          (outputs ++ [.complete client false]))) =
      false := by
  have hDown := (hWake.down_of_none hNone).1
  rw [awake_append, hDown]
  rcases hFailed.told with
    ⟨_, rfl⟩ | ⟨_, rfl⟩ | ⟨_, rfl⟩
  · exact ⟨hWake.packets.quiet (by simp [Output.isPacket]),
      rfl⟩
  · exact ⟨hWake.packets.quiet (by simp [Output.isPacket]),
      rfl⟩
  · exact ⟨hWake.packets.quiet (by simp [Output.isPacket]),
      rfl⟩

theorem Wake.step
    {e : Event}
    (hWake : Wake s)
    (hStep : step s e = some s') :
    Wake s' := by
  cases step_transition hStep with
  | refused client answers v hThere =>
      exact ⟨
        hWake.packets.quiet (by simp [Output.isPacket]),
        by simpa [awake_append, wakeAfter] using hWake.up,
        by simpa [awake_append, wakeAfter] using hWake.down,
        hWake.off, hWake.asked⟩
  | failed client answers v outputs hNone hFailed =>
      rcases hWake.failed hNone hFailed with
        ⟨hPackets, hAsleep⟩
      refine ⟨hPackets, ?_, fun _ => hAsleep, ?_, ?_⟩
      · intro w hW hHci
        cases hW
        exact absurd hFailed.hci hHci
      · intro w hW _
        cases hW
        exact hFailed.timeoutMs
      · intro hAsked
        rw [(hWake.down_of_none hNone).2] at hAsked
        cases hAsked
  | opened client answers v hNone hOpened =>
      refine Wake.running (v := v) ?_ rfl hOpened.hci
        hOpened.libInterface ?_ ?_
      · exact hWake.packets.quiet (by simp [Output.isPacket])
      · rw [awake_append]
        rfl
      · intro hAwake
        cases hAwake
  | closed client v hThere hUnlink =>
      refine Wake.without ?_ rfl ?_ rfl
      · rw [← List.append_assoc]
        refine PacketsAwake.quiet ?_ closing_quiet
        refine hWake.packets.quiet ?_
        split
        · simp
        · simp [Output.isPacket]
      · have hAsleep := awake_closing hWake hThere
        rw [awake_append, List.foldl_append]
        split
        · exact hAsleep
        · exact hAsleep
  | died client last v hLinked hThere hUnlink =>
      refine Wake.without ?_ rfl ?_ rfl
      · exact hWake.packets.quiet closing_quiet
      · rw [awake_append]
        exact awake_closing hWake hThere
  | awake e command opcode type data v hSending hThere hHci
      hAwake =>
      exact hWake.also hThere hHci hThere rfl rfl rfl
        (fun _ => rfl) (fun _ => hAwake)
  | asleep e command opcode type data v hSending hThere hHci
      hAsleep =>
      rcases hWake.up v hThere hHci with ⟨hLibrary, _, _⟩
      refine Wake.running
        (v := { v with timeoutMs := s.lpmTimeoutMs })
        ?_ rfl hHci hLibrary ?_ (fun _ => rfl)
      · rw [← List.singleton_append, ← List.append_assoc]
        refine PacketsAwake.snoc ?_ fun _ => ?_
        · exact hWake.packets.snoc fun hPacket => by
            cases hPacket
        · rw [awake_append]
          rfl
      · rw [awake_append]
        rfl
  | configured result idleTimeoutMs v hAsked hThere =>
      have hHci := hWake.open_of_asked hAsked hThere
      rcases hWake.up v hThere hHci with ⟨hLibrary, hUp, _⟩
      refine Wake.running
        (v :=
          { v with
            initializeCompleteCb := none
            timeoutMs := idleTimeoutMs })
        ?_ rfl hHci hLibrary ?_ (fun _ => rfl)
      · rw [← List.append_assoc]
        refine PacketsAwake.quiet ?_ (by simp [Output.isPacket])
        exact hWake.packets.quiet completing_quiet
      · rw [awake_append, List.foldl_append,
          foldl_wakeAfter_completing]
        exact hUp
  | active v hThere hTimer hActive =>
      exact ⟨hWake.packets, hWake.up, hWake.down, hWake.off,
        hWake.asked⟩
  | idle v hThere hTimer hIdle =>
      have hHci : v.hci ≠ none :=
        fun hNone => hTimer (hWake.off v hThere hNone)
      rcases hWake.up v hThere hHci with ⟨hLibrary, _, _⟩
      refine Wake.running (v := { v with timeoutMs := 0 })
        ?_ rfl hHci hLibrary ?_ ?_
      · exact hWake.packets.snoc fun hPacket => by
          cases hPacket
      · rw [awake_append]
        rfl
      · intro hAwake
        cases hAwake
  | delivered packet client v hThere hHci =>
      exact hWake.also hThere hHci hThere rfl rfl rfl
        (fun _ => rfl) (fun hPacket => nomatch hPacket)
  | answered packet callback v hThere hHci hPending hMatch =>
      exact hWake.also hThere hHci hThere rfl rfl rfl
        (fun _ => rfl) (fun hPacket => nomatch hPacket)

theorem run_wake
    {es : List Event}
    (hRun : system.run es = some s) :
    Wake s :=
  system.invariant_of_step
    (fun _ _ _ hWake hStep => Wake.step hWake hStep)
    initial_wake hRun

/-
  In every run, a packet is given to the transport only while
  the wake line is up since the last power on.
-/
theorem packets_awake
    {es : List Event}
    {before after : List Output}
    {type : Nat}
    {data : List Nat}
    (hRun : system.run es = some s)
    (hPacket :
      s.outputs = before ++ .packet type data :: after) :
    awake before = true :=
  (run_wake hRun).packets before type data after hPacket

/- Opened with one descriptor. -/
def goodAnswers : Answers :=
  ⟨true, true, true, 0, 1, [5]⟩

/- The first packet after the initialization wakes the chip. -/
theorem packets_awake_first :
    awake
      [ .link 1, .init, .op .powerOn, .op .userialOpen
      , .op .fwCfg, .op .wakeAssert ] = true :=
  @packets_awake _
    [.hciInitialize 1 goodAnswers, .send 1 [3, 12, 0]]
    [ .link 1, .init, .op .powerOn, .op .userialOpen
    , .op .fwCfg, .op .wakeAssert ] [] 1 [3, 12, 0] rfl rfl

/- Whether something was sent since the last timeout. -/
def activeAfter (active : Bool) : Event → Bool
| .send _ _ => true
| .transmit _ _ _ => true
| .timeout => false
| _ => active

def active (es : List Event) : Bool :=
  es.foldl activeAfter false

theorem step_recentActivityFlag
    {e : Event}
    (hStep : step s e = some s') :
    s'.recentActivityFlag =
      activeAfter s.recentActivityFlag e := by
  cases step_transition hStep with
  | refused => rfl
  | failed => rfl
  | opened => rfl
  | closed => rfl
  | died => rfl
  | awake e command opcode type data v hSending =>
      cases hSending with
      | client => rfl
      | library => rfl
  | asleep e command opcode type data v hSending =>
      cases hSending with
      | client => rfl
      | library => rfl
  | configured => rfl
  | active => rfl
  | idle v hThere hTimer hIdle => exact hIdle
  | delivered => rfl
  | answered => rfl

theorem runFrom_recentActivityFlag
    {es : List Event}
    (hRun : system.runFrom s es = some s') :
    s'.recentActivityFlag =
      es.foldl activeAfter s.recentActivityFlag := by
  induction es generalizing s with
  | nil =>
      cases hRun
      rfl
  | cons e es ih =>
      rcases system.runFrom_cons_eq_some_iff.mp hRun with
        ⟨next, hStep, hRest⟩
      rw [ih hRest, step_recentActivityFlag hStep,
        List.foldl_cons]

theorem Wake.timer_of_awake
    (hWake : Wake s)
    (hAwake : awake s.outputs = true) :
    ∃ v,
      s.vendorInterface = some v ∧
      v.timeoutMs = s.lpmTimeoutMs := by
  by_contra hNo
  have hDown : awake s.outputs = false := by
    refine hWake.down ?_
    intro v hThere
    by_contra hHci
    rcases hWake.up v hThere hHci with ⟨_, hUp, hTimer⟩
    rw [hAwake] at hUp
    exact hNo ⟨v, hThere, hTimer (by simpa using hUp.symm)⟩
  rw [hAwake] at hDown
  cases hDown

theorem timeout_idle
    {v : VendorInterface}
    (hThere : s.vendorInterface = some v)
    (hTimer : v.timeoutMs ≠ 0)
    (hIdle : s.recentActivityFlag = false) :
    ∃ s',
      step s .timeout = some s' ∧
      awake s'.outputs = false := by
  refine
    ⟨{ s.setInterface { v with timeoutMs := 0 } with
        lpmWakeDeasserted := true }.emit
      [.op .wakeDeassert], ?_, ?_⟩
  · simp [step, onTimeout, hThere, hTimer, hIdle]
  · rw [State.emit, awake_append]
    rfl

end Bluetooth

end Universal7420

------------------------------------------------------------
-- The Library Is Used In Brackets
------------------------------------------------------------

namespace Universal7420

namespace Bluetooth

variable {s s' : State}

/- The vendor library, as it is told to be. -/
inductive Library where
| closed
| initialized
| powered
deriving DecidableEq, Repr

/-
  Initialize, power on once, use, power off, clean up.  Packets
  and events are exchanged only with power.
-/
def libraryAfter : Library → Output → Option Library
| .closed, .init => some .initialized
| .initialized, .op .powerOn => some .powered
| .powered, .op .powerOn => none
| .initialized, .op .powerOff => some .initialized
| .powered, .op .powerOff => some .initialized
| .initialized, .op _ => some .initialized
| .powered, .op _ => some .powered
| .initialized, .cleanup => some .closed
| .powered, .packet _ _ => some .powered
| .powered, .event _ _ => some .powered
| .powered, .command _ _ => some .powered
| library, .link _ => some library
| library, .unlink _ => some library
| library, .complete _ _ => some library
| _, _ => none

/- What the members of the interface say about the library. -/
def Agrees (s : State) (library : Library) : Prop :=
  s.vendorInterface.elim (library = .closed) fun v =>
    (v.libInterface = false → library = .closed) ∧
    (v.libInterface = true → library ≠ .closed) ∧
    (v.hci ≠ none →
      v.libInterface = true ∧ library = .powered)

/- The record is a way through the states of the library. -/
def Bracketed (s : State) : Prop :=
  ∃ library,
    s.outputs.foldlM libraryAfter .closed = some library ∧
    Agrees s library

theorem Bracketed.of_way
    {more : List Output}
    {first : Library}
    (second : Library)
    (hWay :
      s.outputs.foldlM libraryAfter .closed = some first)
    (hMore : more.foldlM libraryAfter first = some second)
    (hOutputs : s'.outputs = s.outputs ++ more)
    (hAgrees : Agrees s' second) :
    Bracketed s' := by
  refine ⟨second, ?_, hAgrees⟩
  rw [hOutputs, List.foldlM_append, hWay]
  exact hMore

/- What is said to the clients does not matter. -/
@[simp] theorem libraryAfter_link
    {library : Library}
    {client : Nat} :
    libraryAfter library (.link client) = some library := by
  cases library with
  | closed => rfl
  | initialized => rfl
  | powered => rfl

@[simp] theorem libraryAfter_unlink
    {library : Library}
    {client : Nat} :
    libraryAfter library (.unlink client) = some library := by
  cases library with
  | closed => rfl
  | initialized => rfl
  | powered => rfl

@[simp] theorem libraryAfter_complete
    {library : Library}
    {client : Nat}
    {success : Bool} :
    libraryAfter library (.complete client success) =
      some library := by
  cases library with
  | closed => rfl
  | initialized => rfl
  | powered => rfl

theorem foldlM_closing
    {v : VendorInterface}
    {library : Library}
    (hThere : s.vendorInterface = some v)
    (hAgrees : Agrees s library) :
    (closing v).foldlM libraryAfter library =
      some .closed := by
  rw [Agrees, hThere, Option.elim_some] at hAgrees
  rw [closing]
  split
  · rename_i hLibrary
    cases library with
    | closed => exact absurd rfl (hAgrees.2.1 hLibrary)
    | initialized => rfl
    | powered => rfl
  · rename_i hNoLibrary
    rw [hAgrees.1 (by simpa using hNoLibrary)]
    rfl

theorem foldlM_failedOpen
    {v : VendorInterface}
    {client : Nat}
    {outputs : List Output}
    (hFailed : FailedOpen v outputs) :
    ∃ library,
      ([Output.link client] ++
          (outputs ++
            [Output.complete client false])).foldlM
          libraryAfter .closed = some library ∧
      (v.libInterface = false → library = .closed) ∧
      (v.libInterface = true → library ≠ .closed) := by
  rcases hFailed.told with
    ⟨hNone, rfl⟩ | ⟨hLibrary, rfl⟩ | ⟨hLibrary, rfl⟩
  · exact ⟨.closed, rfl, fun _ => rfl, by simp [hNone]⟩
  · exact ⟨.initialized, rfl, by simp [hLibrary], by simp⟩
  · exact ⟨.powered, rfl, by simp [hLibrary], by simp⟩

theorem foldlM_completing
    {v : VendorInterface}
    {success : Bool}
    {library : Library} :
    (completing v success).foldlM libraryAfter library =
      some library := by
  rw [completing]
  split
  · rfl
  · simp

/- With a protocol the library has power. -/
theorem Agrees.powered
    {v : VendorInterface}
    {library : Library}
    (hAgrees : Agrees s library)
    (hThere : s.vendorInterface = some v)
    (hHci : v.hci ≠ none) :
    library = .powered ∧
    ∀ (next : State) (w : VendorInterface),
      next.vendorInterface = some w →
      w.hci = v.hci →
      w.libInterface = v.libInterface →
      Agrees next .powered := by
  rw [Agrees, hThere, Option.elim_some] at hAgrees
  rcases hAgrees.2.2 hHci with ⟨hLibrary, rfl⟩
  refine ⟨rfl, ?_⟩
  intro next w hW hSame hSameLibrary
  rw [Agrees, hW, Option.elim_some, hSame, hSameLibrary]
  exact hAgrees

theorem Bracketed.step
    {e : Event}
    (hWake : Wake s)
    (hBracketed : Bracketed s)
    (hStep : step s e = some s') :
    Bracketed s' := by
  rcases hBracketed with ⟨library, hWay, hAgrees⟩
  cases step_transition hStep with
  | refused client answers v hThere =>
      refine Bracketed.of_way _ hWay ?_ rfl hAgrees
      simp
  | failed client answers v outputs hNone hFailed =>
      rw [Agrees, hNone, Option.elim_none] at hAgrees
      rw [hAgrees] at hWay
      rcases foldlM_failedOpen hFailed with
        ⟨next, hMore, hWithout, hWith⟩
      refine Bracketed.of_way _ hWay hMore rfl ?_
      exact ⟨hWithout, hWith, fun hHci =>
        absurd hFailed.hci hHci⟩
  | opened client answers v hNone hOpened =>
      rw [Agrees, hNone, Option.elim_none] at hAgrees
      rw [hAgrees] at hWay
      refine Bracketed.of_way .powered hWay rfl rfl
        ?_
      exact ⟨by simp [hOpened.libInterface], by simp,
        fun _ => ⟨hOpened.libInterface, rfl⟩⟩
  | closed client v hThere hUnlink =>
      refine Bracketed.of_way .closed hWay ?_ rfl rfl
      have hClosing := foldlM_closing hThere hAgrees
      rw [List.foldlM_append]
      split
      · exact hClosing
      · rw [List.foldlM_cons, libraryAfter_unlink]
        exact hClosing
  | died client last v hLinked hThere hUnlink =>
      exact Bracketed.of_way .closed hWay
        (foldlM_closing hThere hAgrees) rfl rfl
  | awake e command opcode type data v hSending hThere hHci =>
      rcases hAgrees.powered hThere hHci with
        ⟨rfl, hKept⟩
      exact Bracketed.of_way .powered hWay rfl rfl
        (hKept _ v hThere rfl rfl)
  | asleep e command opcode type data v hSending hThere hHci =>
      rcases hAgrees.powered hThere hHci with
        ⟨rfl, hKept⟩
      exact Bracketed.of_way .powered hWay rfl rfl
        (hKept _ _ rfl rfl rfl)
  | configured result idleTimeoutMs v hAsked hThere =>
      rcases hAgrees.powered hThere
          (hWake.open_of_asked hAsked hThere) with
        ⟨rfl, hKept⟩
      refine Bracketed.of_way .powered hWay ?_ rfl
        (hKept _ _ rfl rfl rfl)
      rw [List.foldlM_append, foldlM_completing]
      rfl
  | active v hThere hTimer hActive =>
      exact ⟨library, hWay, hAgrees⟩
  | idle v hThere hTimer hIdle =>
      rcases hAgrees.powered hThere (fun hNone =>
          hTimer (hWake.off v hThere hNone)) with
        ⟨rfl, hKept⟩
      exact Bracketed.of_way .powered hWay rfl rfl
        (hKept _ _ rfl rfl rfl)
  | delivered packet client v hThere hHci =>
      rcases hAgrees.powered hThere hHci with
        ⟨rfl, hKept⟩
      exact Bracketed.of_way .powered hWay rfl rfl
        (hKept _ v hThere rfl rfl)
  | answered packet callback v hThere hHci =>
      rcases hAgrees.powered hThere hHci with
        ⟨rfl, hKept⟩
      exact Bracketed.of_way .powered hWay rfl rfl
        (hKept _ v hThere rfl rfl)

/-
  In every run the library is initialized before it is told
  anything, gets power at most once before it is powered off,
  carries packets and events only with power, and is told
  nothing after its cleanup until it is initialized again.
-/
theorem library_in_brackets
    {es : List Event}
    (hRun : system.run es = some s) :
    ∃ library,
      s.outputs.foldlM libraryAfter .closed =
        some library ∧
      (s.vendorInterface = none → library = .closed) := by
  have hInvariant :=
    @EventSystem.invariant_of_step State Event system
      (fun t => Wake t ∧ Bracketed t)
      (fun t e t' hBoth hStep =>
        ⟨hBoth.1.step hStep, hBoth.2.step hBoth.1 hStep⟩)
      State.initial s es
      ⟨initial_wake, .closed, rfl, rfl⟩ hRun
  rcases hInvariant.2 with ⟨library, hWay, hAgrees⟩
  refine ⟨library, hWay, ?_⟩
  intro hNone
  rw [Agrees, hNone, Option.elim_none] at hAgrees
  exact hAgrees

/- A library that cannot be initialized is cleaned up. -/
theorem library_in_brackets_failed :
    ∃ s library,
      system.run
        [ .hciInitialize 1 ⟨true, true, true, -1, 0, []⟩
        , .close ] = some s ∧
      s.outputs.foldlM libraryAfter .closed =
        some library ∧
      library = .closed := by
  refine ⟨?s, .closed, ?run, ?way, rfl⟩
  case run => rfl
  case way =>
    rcases
      @library_in_brackets _
        [ .hciInitialize 1 ⟨true, true, true, -1, 0, []⟩
        , .close ] rfl with ⟨library, hWay, hNone⟩
    rw [hNone rfl] at hWay
    exact hWay

end Bluetooth

end Universal7420

------------------------------------------------------------
-- A Client Is Told Once
------------------------------------------------------------

namespace Universal7420

namespace Bluetooth

variable {s s' : State}

def Output.completes (client : Nat) : Output → Bool
| .complete other _ => other = client
| _ => false

def Output.links (client : Nat) : Output → Bool
| .link other => other = client
| _ => false

/- How often a client was told, and how often it asked. -/
def told (s : State) (client : Nat) : Nat :=
  s.outputs.countP (Output.completes client)

def askedFor (s : State) (client : Nat) : Nat :=
  s.outputs.countP (Output.links client)

/- Whether a client still waits for the firmware. -/
def waiting (s : State) (client : Nat) : Nat :=
  s.vendorInterface.elim 0 fun v =>
    if s.configuring = true ∧
        v.initializeCompleteCb = some client
    then 1 else 0

def Event.closes : Event → Bool
| .close => true
| .died _ => true
| _ => false

theorem countP_closing
    {v : VendorInterface}
    {client : Nat} :
    (closing v).countP (Output.completes client) = 0 ∧
    (closing v).countP (Output.links client) = 0 := by
  rw [closing]
  split
  · exact ⟨rfl, rfl⟩
  · exact ⟨rfl, rfl⟩

theorem countP_failedOpen
    {v : VendorInterface}
    {outputs : List Output}
    {client : Nat}
    (hFailed : FailedOpen v outputs) :
    outputs.countP (Output.completes client) = 0 ∧
    outputs.countP (Output.links client) = 0 := by
  rcases hFailed.told with
    ⟨_, rfl⟩ | ⟨_, rfl⟩ | ⟨_, rfl⟩
  · exact ⟨rfl, rfl⟩
  · exact ⟨rfl, rfl⟩
  · exact ⟨rfl, rfl⟩

theorem countP_completing
    {v : VendorInterface}
    {success : Bool}
    {client : Nat} :
    (completing v success).countP
        (Output.completes client) =
      (if v.initializeCompleteCb = some client
        then 1 else 0) ∧
    (completing v success).countP (Output.links client) =
      0 := by
  rw [completing]
  split
  · rename_i hNone
    simp [hNone]
  · rename_i other hSome
    simp [hSome, Output.completes, Output.links,
      List.countP_cons]

theorem Sending.closes
    {e : Event}
    {command : Option Nat}
    {opcode type : Nat}
    {data : List Nat}
    (hSending : Sending s e command opcode type data) :
    e.closes = false := by
  cases hSending with
  | client => rfl
  | library => rfl

/- What a step that does not close does to the numbers. -/
theorem step_told
    {e : Event}
    (hWake : Wake s)
    (hStep : step s e = some s')
    (hOpen : e.closes = false)
    (client : Nat) :
    told s' client + waiting s' client +
        askedFor s client =
      told s client + waiting s client +
        askedFor s' client := by
  unfold told askedFor
  cases step_transition hStep with
  | refused other answers v hThere =>
      simp [waiting, List.countP_cons, Output.completes,
        Output.links]
      omega
  | failed other answers v outputs hNone hFailed =>
      have hCount :=
        @countP_failedOpen v outputs client hFailed
      have hDown := hWake.down_of_none hNone
      simp [waiting, List.countP_cons, Output.completes,
        Output.links, hCount, hDown.2, hNone]
      omega
  | opened other answers v hNone hOpened =>
      simp [waiting, List.countP_cons, Output.completes,
        Output.links, hNone, hOpened.initializeCompleteCb]
      omega
  | closed => cases hOpen
  | died => cases hOpen
  | awake e command opcode type data v hSending =>
      simp [waiting, Output.completes, Output.links]
  | asleep e command opcode type data v hSending hThere =>
      simp [waiting, Output.completes, Output.links, hThere]
  | configured result idleTimeoutMs v hAsked hThere =>
      have hCount :=
        @countP_completing v (decide (result = 0)) client
      simp [waiting, hCount, hAsked, hThere,
        Output.completes, Output.links]
  | active => rfl
  | idle v hThere hTimer hIdle =>
      simp [waiting, hThere, Output.completes, Output.links]
  | delivered =>
      simp [waiting, Output.completes, Output.links]
  | answered =>
      simp [waiting, Output.completes, Output.links]

/- A step that closes tells nobody, and nobody waits. -/
theorem step_told_closing
    {e : Event}
    (hStep : step s e = some s')
    (hCloses : e.closes = true)
    (client : Nat) :
    told s' client = told s client ∧
    waiting s' client = 0 ∧
    askedFor s' client = askedFor s client := by
  unfold told askedFor
  cases step_transition hStep with
  | refused => cases hCloses
  | failed => cases hCloses
  | opened => cases hCloses
  | closed other v hThere hUnlink =>
      have hCount := @countP_closing v client
      cases hDied : s.hasDied with
      | true => simp [waiting, hCount]
      | false =>
          simp [waiting, hCount, Output.completes,
            Output.links]
  | died other last v hLinked hThere hUnlink =>
      have hCount := @countP_closing v client
      simp [waiting, hCount]
  | awake e command opcode type data v hSending =>
      rw [hSending.closes] at hCloses
      cases hCloses
  | asleep e command opcode type data v hSending =>
      rw [hSending.closes] at hCloses
      cases hCloses
  | configured => cases hCloses
  | active => cases hCloses
  | idle => cases hCloses
  | delivered => cases hCloses
  | answered => cases hCloses

theorem runFrom_told
    {es : List Event}
    (hWake : Wake s)
    (hRun : system.runFrom s es = some s')
    (client : Nat)
    (hTold :
      told s client + waiting s client ≤ askedFor s client) :
    told s' client + waiting s' client ≤
        askedFor s' client ∧
    ((∀ e ∈ es, e.closes = false) →
      told s' client + waiting s' client +
          askedFor s client =
        told s client + waiting s client +
          askedFor s' client) := by
  induction es generalizing s with
  | nil =>
      cases hRun
      exact ⟨hTold, fun _ => rfl⟩
  | cons e es ih =>
      rcases system.runFrom_cons_eq_some_iff.mp hRun with
        ⟨next, hStep, hRest⟩
      have hNext := hWake.step hStep
      cases hCloses : e.closes with
      | false =>
          have hOpen :=
            step_told hWake hStep hCloses client
          rcases ih hNext hRest (by omega) with
            ⟨hLe, hSame⟩
          refine ⟨hLe, ?_⟩
          intro hNone
          rw [List.forall_mem_cons] at hNone
          have hEq := hSame hNone.2
          omega
      | true =>
          have hClosed :=
            step_told_closing hStep hCloses client
          rcases ih hNext hRest (by omega) with ⟨hLe, _⟩
          refine ⟨hLe, ?_⟩
          intro hNone
          rw [List.forall_mem_cons] at hNone
          rw [hNone.1] at hCloses
          cases hCloses

/-
  In every run a client is told at most once for each time it
  asked, and a client that waits was not told.  As long as the
  interface is not closed, everyone else was told.
-/
theorem completed_at_most_once
    {es : List Event}
    (hRun : system.run es = some s)
    (client : Nat) :
    told s client + waiting s client ≤ askedFor s client ∧
    ((∀ e ∈ es, e.closes = false) →
      told s client + waiting s client =
        askedFor s client) := by
  rcases runFrom_told initial_wake hRun client
      (Nat.le_refl 0) with ⟨hLe, hSame⟩
  refine ⟨hLe, ?_⟩
  intro hNone
  have hEq := hSame hNone
  have hTold : told State.initial client = 0 := rfl
  have hWaiting : waiting State.initial client = 0 := rfl
  have hAsked : askedFor State.initial client = 0 := rfl
  omega

/- Two initializations, of which one is refused. -/
theorem completed_at_most_once_refused :
    ∃ s,
      system.run
        [ .hciInitialize 1 goodAnswers
        , .hciInitialize 2 goodAnswers
        , .configured 0 30 ] = some s ∧
      told s 1 + waiting s 1 = askedFor s 1 ∧
      told s 2 + waiting s 2 = askedFor s 2 := by
  refine ⟨?s, ?run, ?first, ?second⟩
  case run => rfl
  case first =>
    exact
      (@completed_at_most_once _
        [ .hciInitialize 1 goodAnswers
        , .hciInitialize 2 goodAnswers
        , .configured 0 30 ] rfl 1).2 (by decide)
  case second =>
    exact
      (@completed_at_most_once _
        [ .hciInitialize 1 goodAnswers
        , .hciInitialize 2 goodAnswers
        , .configured 0 30 ] rfl 2).2 (by decide)

end Bluetooth

end Universal7420

------------------------------------------------------------
-- Who Has The Interface
------------------------------------------------------------

namespace Universal7420

namespace Bluetooth

variable {s s' : State}

/-
  The client that has the interface: the first one that asked
  for it since it was closed, also if its opening failed.
-/
def holderAfter
    (holder : Option Nat) :
    Event → Option Nat
| .hciInitialize client _ => some (holder.getD client)
| .close => none
| .died _ => none
| _ => holder

def holder (es : List Event) : Option Nat :=
  es.foldl holderAfter none

theorem holder_append
    {es : List Event}
    {e : Event} :
    holder (es ++ [e]) = holderAfter (holder es) e :=
  List.foldl_append

theorem Sending.holderAfter
    {e : Event}
    {command : Option Nat}
    {opcode type : Nat}
    {data : List Nat}
    (hSending : Sending s e command opcode type data)
    (last : Option Nat) :
    Bluetooth.holderAfter last e = last := by
  cases hSending with
  | client => rfl
  | library => rfl

/- There is an interface for the holder, and events for it. -/
structure Held
    (es : List Event)
    (s : State) :
    Prop where
  without :
    s.vendorInterface = none → holder es = none
  client :
    ∀ v,
      s.vendorInterface = some v →
      ∃ client,
        holder es = some client ∧
        (v.hci ≠ none → v.eventCb = some client)

theorem initial_held : Held [] State.initial := by
  refine ⟨fun _ => rfl, ?_⟩
  intro v hThere
  cases hThere

/- A step in which the interface keeps what it is for. -/
theorem Held.of_same
    {es : List Event}
    {e : Event}
    {v w : VendorInterface}
    (hHeld : Held es s)
    (hThere : s.vendorInterface = some v)
    (hStill : s'.vendorInterface = some w)
    (hHci : w.hci = v.hci)
    (hEventCb : w.eventCb = v.eventCb)
    (hHolder : holderAfter (holder es) e = holder es) :
    Held (es ++ [e]) s' := by
  rcases hHeld.client v hThere with ⟨client, hClient, hEvents⟩
  refine ⟨?_, ?_⟩
  · intro hNone
    rw [hStill] at hNone
    cases hNone
  · intro w' hW
    rw [hStill, Option.some.injEq] at hW
    rw [← hW, hHci, hEventCb, holder_append, hHolder]
    exact ⟨client, hClient, hEvents⟩

theorem Held.step
    {es : List Event}
    {e : Event}
    (hHeld : Held es s)
    (hStep : step s e = some s') :
    Held (es ++ [e]) s' := by
  cases step_transition hStep with
  | refused client answers v hThere =>
      rcases hHeld.client v hThere with ⟨first, hFirst, _⟩
      refine hHeld.of_same hThere hThere rfl rfl ?_
      rw [hFirst]
      rfl
  | failed client answers v outputs hNone hFailed =>
      refine ⟨by simp, ?_⟩
      intro w hW
      cases hW
      rw [holder_append, hHeld.without hNone]
      exact ⟨client, rfl, fun hHci =>
        absurd hFailed.hci hHci⟩
  | opened client answers v hNone hOpened =>
      refine ⟨by simp, ?_⟩
      intro w hW
      cases hW
      rw [holder_append, hHeld.without hNone]
      exact ⟨client, rfl, fun _ => hOpened.eventCb⟩
  | closed client v hThere hUnlink =>
      refine ⟨?_, by simp⟩
      intro _
      rw [holder_append]
      rfl
  | died client last v hLinked hThere hUnlink =>
      refine ⟨?_, by simp⟩
      intro _
      rw [holder_append]
      rfl
  | awake e command opcode type data v hSending hThere =>
      exact hHeld.of_same hThere hThere rfl rfl
        (hSending.holderAfter _)
  | asleep e command opcode type data v hSending hThere =>
      exact hHeld.of_same hThere rfl rfl rfl
        (hSending.holderAfter _)
  | configured result idleTimeoutMs v hAsked hThere =>
      exact hHeld.of_same hThere rfl rfl rfl rfl
  | active v hThere =>
      exact hHeld.of_same hThere hThere rfl rfl rfl
  | idle v hThere =>
      exact hHeld.of_same hThere rfl rfl rfl rfl
  | delivered packet client v hThere =>
      exact hHeld.of_same hThere hThere rfl rfl rfl
  | answered packet callback v hThere =>
      exact hHeld.of_same hThere hThere rfl rfl rfl

theorem run_held
    {es : List Event}
    (hRun : system.run es = some s) :
    Held es s :=
  system.history_of_step
    (fun _ _ _ _ hHeld hStep => hHeld.step hStep)
    initial_held hRun

end Bluetooth

end Universal7420

------------------------------------------------------------
-- Every Event Has One Receiver
------------------------------------------------------------

namespace Universal7420

namespace Bluetooth

variable {s s' : State}

/- The packets that a receiver was given. -/
def Output.received : Output → Option (List Nat)
| .event _ data => some data
| .command _ data => some data
| _ => none

def Event.arrived : Event → Option (List Nat)
| .incoming packet => some packet
| _ => none

def Output.answers (callback : Nat) : Output → Bool
| .command other _ => other = callback
| _ => false

def Event.asks (callback : Nat) : Event → Bool
| .transmit _ _ other => other = callback
| _ => false

/- The packet completes the command with an opcode. -/
def completes (opcode : Nat) : List Nat → Bool
| eventCode :: _ :: _ :: low :: high :: _ =>
    decide
      (eventCode = commandCompleteEvent ∧
        low + 256 * high = opcode)
| _ => false

/- The last command of the library, until it is completed. -/
def pendingAfter :
    Option (Nat × Nat) → Event → Option (Nat × Nat)
| _, .transmit opcode _ callback => some (opcode, callback)
| some (opcode, callback), .incoming packet =>
    if completes opcode packet then none
    else some (opcode, callback)
| pending, _ => pending

def pending (es : List Event) : Option (Nat × Nat) :=
  es.foldl pendingAfter none

/- The same in the variables of the HAL. -/
def State.pending (s : State) : Option (Nat × Nat) :=
  s.internalCommand.map fun callback => (s.opcode, callback)

/- Whether a callback still waits for its answer. -/
def unanswered (s : State) (callback : Nat) : Nat :=
  if s.internalCommand = some callback then 1 else 0

theorem filterMap_closing
    {v : VendorInterface} :
    (closing v).filterMap Output.received = [] := by
  rw [closing]
  split
  · rfl
  · rfl

theorem filterMap_failedOpen
    {v : VendorInterface}
    {outputs : List Output}
    (hFailed : FailedOpen v outputs) :
    outputs.filterMap Output.received = [] := by
  rcases hFailed.told with
    ⟨_, rfl⟩ | ⟨_, rfl⟩ | ⟨_, rfl⟩
  · rfl
  · rfl
  · rfl

theorem filterMap_completing
    {v : VendorInterface}
    {success : Bool} :
    (completing v success).filterMap Output.received =
      [] := by
  rw [completing]
  split
  · rfl
  · rfl

theorem step_received
    {e : Event}
    (hStep : step s e = some s') :
    s'.outputs.filterMap Output.received =
      s.outputs.filterMap Output.received ++
        e.arrived.toList := by
  cases step_transition hStep with
  | refused => simp [Output.received, Event.arrived]
  | failed other answers v outputs hNone hFailed =>
      have hQuiet := filterMap_failedOpen hFailed
      rw [List.filterMap_append, List.filterMap_append,
        List.filterMap_append, hQuiet]
      simp [Output.received, Event.arrived]
  | opened => simp [Output.received, Event.arrived]
  | closed other v hThere hUnlink =>
      have hQuiet := @filterMap_closing v
      cases hDied : s.hasDied with
      | true => simp [Event.arrived, hQuiet]
      | false =>
          rw [List.filterMap_append, List.filterMap_append,
            hQuiet]
          simp [Output.received, Event.arrived]
  | died other last v hLinked hThere hUnlink =>
      have hQuiet := @filterMap_closing v
      simp [Event.arrived, hQuiet]
  | awake e command opcode type data v hSending =>
      cases hSending with
      | client => simp [Output.received, Event.arrived]
      | library => simp [Output.received, Event.arrived]
  | asleep e command opcode type data v hSending =>
      cases hSending with
      | client => simp [Output.received, Event.arrived]
      | library => simp [Output.received, Event.arrived]
  | configured result idleTimeoutMs v hAsked hThere =>
      have hQuiet :=
        @filterMap_completing v (decide (result = 0))
      simp [Output.received, Event.arrived, hQuiet]
  | active => simp [Event.arrived]
  | idle => simp [Output.received, Event.arrived]
  | delivered => simp [Output.received, Event.arrived]
  | answered => simp [Output.received, Event.arrived]

/- What the record keeps about the commands of the library. -/
structure Routed
    (es : List Event)
    (s : State) :
    Prop where
  received :
    s.outputs.filterMap Output.received =
      es.filterMap Event.arrived
  answered :
    ∀ callback,
      s.outputs.countP (Output.answers callback) +
          unanswered s callback ≤
        es.countP (Event.asks callback)
  pending : Bluetooth.pending es = s.pending

theorem countP_answers_of_quiet
    {outputs : List Output}
    (hQuiet : outputs.filterMap Output.received = [])
    (callback : Nat) :
    outputs.countP (Output.answers callback) = 0 := by
  rw [List.filterMap_eq_nil_iff] at hQuiet
  rw [List.countP_eq_zero]
  intro output hIn
  have hNone := hQuiet output hIn
  cases output with
  | command other data => cases hNone
  | _ => simp [Output.answers]

theorem Sending.unanswered
    {e : Event}
    {command : Option Nat}
    {opcode type : Nat}
    {data : List Nat}
    (hSending : Sending s e command opcode type data)
    (callback : Nat) :
    (if command = some callback then 1 else 0) ≤
      Bluetooth.unanswered s callback +
        [e].countP (Event.asks callback) := by
  cases hSending with
  | client => exact Nat.le_add_right _ _
  | library opcode data other =>
      simp [Event.asks, List.countP_cons]

theorem step_answers
    {e : Event}
    (hStep : step s e = some s')
    (callback : Nat) :
    s'.outputs.countP (Output.answers callback) +
        unanswered s' callback ≤
      s.outputs.countP (Output.answers callback) +
        unanswered s callback +
        [e].countP (Event.asks callback) := by
  cases step_transition hStep with
  | refused => simp [unanswered, Output.answers]
  | failed other answers v outputs hNone hFailed =>
      have hQuiet :=
        countP_answers_of_quiet
          (filterMap_failedOpen hFailed) callback
      simp [unanswered, Output.answers, hQuiet]
  | opened => simp [unanswered, Output.answers]
  | closed other v hThere hUnlink =>
      have hQuiet :=
        countP_answers_of_quiet (@filterMap_closing v)
          callback
      cases hDied : s.hasDied with
      | true => simp [unanswered, hQuiet]
      | false =>
          simp [unanswered, Output.answers, hQuiet]
  | died other last v hLinked hThere hUnlink =>
      have hQuiet :=
        countP_answers_of_quiet (@filterMap_closing v)
          callback
      simp [unanswered, hQuiet]
  | awake e command opcode type data v hSending =>
      have hCommand := hSending.unanswered callback
      simp [Bluetooth.unanswered, Output.answers] at hCommand ⊢
      omega
  | asleep e command opcode type data v hSending =>
      have hCommand := hSending.unanswered callback
      simp [Bluetooth.unanswered, Output.answers] at hCommand ⊢
      omega
  | configured result idleTimeoutMs v hAsked hThere =>
      have hQuiet :=
        countP_answers_of_quiet
          (@filterMap_completing v (decide (result = 0)))
          callback
      simp [unanswered, Output.answers, hQuiet]
  | active => simp [unanswered]
  | idle => simp [unanswered, Output.answers]
  | delivered => simp [unanswered, Output.answers]
  | answered packet other v hThere hHci hPending =>
      simp [unanswered, Output.answers, hPending,
        List.countP_cons]

theorem match_eq_some
    {packet : List Nat}
    {matched : Bool}
    (hMatch :
      internalCommandEventMatch s packet = some matched) :
    matched = completes s.opcode packet := by
  unfold internalCommandEventMatch at hMatch
  rcases packet with _ | ⟨eventCode, rest⟩
  · cases hMatch
  by_cases hCode : eventCode = commandCompleteEvent
  · rcases rest with _ | ⟨a, _ | ⟨b, _ | ⟨low, _ | ⟨high, rest⟩⟩⟩⟩
    · simp [hCode] at hMatch
    · simp [hCode] at hMatch
    · simp [hCode] at hMatch
    · simp [hCode] at hMatch
    · simp [hCode] at hMatch
      simp [completes, hCode, ← hMatch]
  · rcases rest with _ | ⟨a, _ | ⟨b, _ | ⟨low, _ | ⟨high, rest⟩⟩⟩⟩
    · simpa [completes, hCode] using hMatch.symm
    · simpa [completes, hCode] using hMatch.symm
    · simpa [completes, hCode] using hMatch.symm
    · simpa [completes, hCode] using hMatch.symm
    · simpa [completes, hCode] using hMatch.symm

theorem step_pending
    {e : Event}
    (hStep : step s e = some s') :
    pendingAfter s.pending e = s'.pending := by
  cases step_transition hStep with
  | refused => rfl
  | failed => rfl
  | opened => rfl
  | closed => rfl
  | died => rfl
  | awake e command opcode type data v hSending =>
      cases hSending with
      | client => rfl
      | library opcode data other => rfl
  | asleep e command opcode type data v hSending =>
      cases hSending with
      | client => rfl
      | library opcode data other => rfl
  | configured => rfl
  | active => rfl
  | idle => rfl
  | delivered packet client v hThere hHci hEventCb hOther =>
      cases hPending : s.internalCommand with
      | none => simp [State.pending, hPending, pendingAfter]
      | some callback =>
          have hNot := match_eq_some (hOther callback hPending)
          simp [State.pending, hPending, pendingAfter, ← hNot]
  | answered packet callback v hThere hHci hPending hMatch =>
      have hCompletes := match_eq_some hMatch
      simp [State.pending, hPending, pendingAfter,
        ← hCompletes]

theorem Routed.step
    {es : List Event}
    {e : Event}
    (hRouted : Routed es s)
    (hStep : step s e = some s') :
    Routed (es ++ [e]) s' := by
  refine ⟨?_, ?_, ?_⟩
  · rw [step_received hStep, hRouted.received,
      List.filterMap_append]
    cases hArrived : e.arrived with
    | none => simp [hArrived]
    | some packet => simp [hArrived]
  · intro callback
    have hBefore := hRouted.answered callback
    have hAfter := step_answers hStep callback
    rw [List.countP_append]
    omega
  · have hPending := step_pending hStep
    rw [← hRouted.pending] at hPending
    rw [← hPending]
    exact List.foldl_append

theorem initial_routed : Routed [] State.initial := by
  refine ⟨rfl, ?_, rfl⟩
  intro callback
  exact Nat.le_refl 0

theorem run_routed
    {es : List Event}
    (hRun : system.run es = some s) :
    Routed es s :=
  system.history_of_step
    (fun _ _ _ _ hRouted hStep => hRouted.step hStep)
    initial_routed hRun

/- An interface with its descriptors takes every packet. -/
theorem handleIncomingEvent_isSome
    {es : List Event}
    {v : VendorInterface}
    {packet : List Nat}
    (hHeld : Held es s)
    (hThere : s.vendorInterface = some v)
    (hHci : v.hci ≠ none)
    (hLength : 5 ≤ packet.length) :
    ∃ s', step s (.incoming packet) = some s' := by
  rcases hHeld.client v hThere with ⟨client, _, hEvents⟩
  have hEventCb := hEvents hHci
  rcases Option.ne_none_iff_exists'.mp hHci with
    ⟨protocol, hProtocol⟩
  rcases packet with _ |
    ⟨eventCode, _ | ⟨a, _ | ⟨b, _ | ⟨low, _ | ⟨high, rest⟩⟩⟩⟩⟩
  case cons.cons.cons.cons.cons =>
    rw [step, handleIncomingEvent, hThere]
    simp only [hProtocol, hEventCb]
    cases hPending : s.internalCommand with
    | none => exact ⟨_, rfl⟩
    | some callback =>
        by_cases hCode : eventCode = commandCompleteEvent
        · by_cases hOpcode : low + 256 * high = s.opcode
          · simp [internalCommandEventMatch, hCode, hOpcode]
          · simp [internalCommandEventMatch, hCode, hOpcode]
        · simp [internalCommandEventMatch, hCode]
  all_goals simp at hLength

/-
  In every run each event of the controller reaches one
  receiver, in the order in which they came: the callback of
  the last command of the library, if it is not answered yet
  and the event completes it, and otherwise the client that
  has the interface.  No callback is called more often than
  its commands were sent.
-/
theorem events_routed
    {es : List Event}
    (hRun : system.run es = some s) :
    s.outputs.filterMap Output.received =
      es.filterMap Event.arrived ∧
    (∀ callback,
      s.outputs.countP (Output.answers callback) ≤
        es.countP (Event.asks callback)) ∧
    (∀ v packet,
      s.vendorInterface = some v →
      v.hci ≠ none →
      5 ≤ packet.length →
      ∃ s', step s (.incoming packet) = some s') ∧
    (∀ packet s',
      step s (.incoming packet) = some s' →
      (∀ opcode callback,
        pending es = some (opcode, callback) →
        completes opcode packet = true →
        s'.outputs =
          s.outputs ++ [.command callback packet]) ∧
      ((∀ opcode callback,
        pending es = some (opcode, callback) →
        completes opcode packet = false) →
        ∃ client,
          holder es = some client ∧
          s'.outputs =
            s.outputs ++ [.event client packet])) := by
  have hRouted := run_routed hRun
  have hHeld := run_held hRun
  refine ⟨hRouted.received, ?_, ?_, ?_⟩
  · intro callback
    have hAnswered := hRouted.answered callback
    omega
  · intro v packet hThere hHci hLength
    exact handleIncomingEvent_isSome hHeld hThere hHci hLength
  · intro packet s' hStep
    rw [hRouted.pending, State.pending]
    cases step_transition hStep with
    | awake e command opcode type data v hSending =>
        cases hSending
    | asleep e command opcode type data v hSending =>
        cases hSending
    | delivered packet client v hThere hHci hEventCb hOther =>
        refine ⟨?_, ?_⟩
        · intro opcode callback hPending hCompletes
          rcases Option.map_eq_some_iff.mp hPending with
            ⟨other, hCommand, hPair⟩
          have hNot := match_eq_some (hOther other hCommand)
          rw [← (Prod.mk.inj hPair).1, ← hNot] at hCompletes
          cases hCompletes
        · intro _
          rcases hHeld.client v hThere with
            ⟨first, hFirst, hEvents⟩
          rw [hEvents hHci, Option.some.injEq] at hEventCb
          rw [hEventCb] at hFirst
          exact ⟨client, hFirst, rfl⟩
    | answered packet callback v hThere hHci hPending hMatch =>
        have hCompletes := match_eq_some hMatch
        rw [hPending, Option.map_some]
        refine ⟨?_, ?_⟩
        · intro opcode other hPair _
          rw [Option.some.injEq, Prod.mk.injEq] at hPair
          rw [hPair.2]
        · intro hNot
          rw [hNot s.opcode callback rfl] at hCompletes
          cases hCompletes

/- The answer to a command goes to its callback, once. -/
theorem events_routed_answer :
    ∃ s s',
      system.run
        [ .hciInitialize 1 goodAnswers
        , .transmit 3075 [3, 12, 0] 9
        , .incoming [62, 1, 0] ] = some s ∧
      step s (.incoming [14, 4, 1, 3, 12, 0]) = some s' ∧
      s'.outputs =
        s.outputs ++ [.command 9 [14, 4, 1, 3, 12, 0]] ∧
      s.outputs.filterMap Output.received = [[62, 1, 0]] ∧
      s'.outputs.countP (Output.answers 9) = 1 := by
  refine ⟨?s, ?s', ?run, ?step, ?routed, ?received, ?once⟩
  case run => rfl
  case step => rfl
  case routed =>
    exact
      ((@events_routed _
        [ .hciInitialize 1 goodAnswers
        , .transmit 3075 [3, 12, 0] 9
        , .incoming [62, 1, 0] ] rfl).2.2.2
          [14, 4, 1, 3, 12, 0] _ rfl).1 3075 9 (by decide)
        (by decide)
  case received =>
    exact
      (@events_routed _
        [ .hciInitialize 1 goodAnswers
        , .transmit 3075 [3, 12, 0] 9
        , .incoming [62, 1, 0] ] rfl).1
  case once => decide

end Bluetooth

end Universal7420

------------------------------------------------------------
-- A Client Dies
------------------------------------------------------------

namespace Universal7420

namespace Bluetooth

variable {s s' : State}

/- A client initializes only what is closed. -/
def OneAtATime (s : State) (e : Event) : Prop :=
  ∀ client answers,
    e = .hciInitialize client answers →
    s.vendorInterface = none

/- The binder watches the one that has the interface. -/
structure Watched
    (es : List Event)
    (s : State) :
    Prop where
  held : Held es s
  linked : s.linked = (holder es).toList
  client :
    ∀ client,
      holder es = some client →
      s.hasDied = false ∧ s.unlinkCb = some client

theorem initial_watched : Watched [] State.initial := by
  refine ⟨initial_held, rfl, ?_⟩
  intro client hHolder
  cases hHolder

theorem Watched.of_same
    {es : List Event}
    {e : Event}
    (hWatched : Watched es s)
    (hStep : Bluetooth.step s e = some s')
    (hHolder : holderAfter (holder es) e = holder es)
    (hDied : s'.hasDied = s.hasDied)
    (hLinked : s'.linked = s.linked)
    (hUnlink : s'.unlinkCb = s.unlinkCb) :
    Watched (es ++ [e]) s' := by
  refine ⟨hWatched.held.step hStep, ?_, ?_⟩
  · rw [hLinked, holder_append, hHolder, hWatched.linked]
  · rw [hDied, hUnlink, holder_append, hHolder]
    exact hWatched.client

/- A new interface is watched for the one that opens it. -/
theorem Watched.of_new
    {es : List Event}
    {client : Nat}
    {answers : Answers}
    (hWatched : Watched es s)
    (hStep :
      Bluetooth.step s (.hciInitialize client answers) =
        some s')
    (hNone : s.vendorInterface = none)
    (hDied : s'.hasDied = false)
    (hLinked : s'.linked = client :: s.linked)
    (hUnlink : s'.unlinkCb = some client) :
    Watched (es ++ [.hciInitialize client answers]) s' := by
  have hNobody := hWatched.held.without hNone
  have hHolder :
      holder (es ++ [.hciInitialize client answers]) =
        some client := by
    rw [holder_append, hNobody]
    rfl
  refine ⟨hWatched.held.step hStep, ?_, ?_⟩
  · rw [hLinked, hWatched.linked, hNobody, hHolder]
    rfl
  · intro other hOther
    rw [hHolder] at hOther
    exact ⟨hDied, hUnlink.trans hOther⟩

theorem Watched.step
    {es : List Event}
    {e : Event}
    (hWatched : Watched es s)
    (hOne : OneAtATime s e)
    (hStep : step s e = some s') :
    Watched (es ++ [e]) s' := by
  cases step_transition hStep with
  | refused client answers v hThere =>
      rw [hOne client answers rfl] at hThere
      cases hThere
  | failed client answers v outputs hNone hFailed =>
      exact hWatched.of_new hStep hNone rfl rfl rfl
  | opened client answers v hNone hOpened =>
      exact hWatched.of_new hStep hNone rfl rfl rfl
  | closed client v hThere hUnlink =>
      rcases hWatched.held.client v hThere with ⟨first, hFirst, _⟩
      rcases hWatched.client first hFirst with
        ⟨hAlive, hOther⟩
      rw [hUnlink, Option.some.injEq] at hOther
      have hLinked := hWatched.linked
      rw [hFirst] at hLinked
      refine ⟨hWatched.held.step hStep, ?_, ?_⟩
      · rw [holder_append]
        simp [hAlive, hLinked, hOther, holderAfter]
      · intro other hHolder
        rw [holder_append] at hHolder
        cases hHolder
  | died client last v hIn hThere hUnlink =>
      rcases hWatched.held.client v hThere with ⟨first, hFirst, _⟩
      have hLinked := hWatched.linked
      rw [hFirst] at hLinked
      rw [hLinked, Option.toList_some,
        List.mem_singleton] at hIn
      refine ⟨hWatched.held.step hStep, ?_, ?_⟩
      · rw [holder_append]
        simp [hLinked, hIn, holderAfter]
      · intro other hHolder
        rw [holder_append] at hHolder
        cases hHolder
  | awake e command opcode type data v hSending =>
      exact hWatched.of_same hStep
        (hSending.holderAfter _) rfl rfl rfl
  | asleep e command opcode type data v hSending =>
      exact hWatched.of_same hStep
        (hSending.holderAfter _) rfl rfl rfl
  | configured =>
      exact hWatched.of_same hStep rfl rfl rfl rfl
  | active =>
      exact hWatched.of_same hStep rfl rfl rfl rfl
  | idle =>
      exact hWatched.of_same hStep rfl rfl rfl rfl
  | delivered =>
      exact hWatched.of_same hStep rfl rfl rfl rfl
  | answered =>
      exact hWatched.of_same hStep rfl rfl rfl rfl

/-
  If the interface is initialized only while it is closed, the
  binder watches exactly the client that has it, from its
  initialization on, and the death of that client closes the
  interface and leaves nobody watched.
-/
theorem death_handled
    {es : List Event}
    (hOne : system.Guarded OneAtATime State.initial es)
    (hRun : system.run es = some s) :
    (s.vendorInterface = none ↔ holder es = none) ∧
    s.linked = (holder es).toList ∧
    ∀ client,
      holder es = some client →
      ∃ s',
        step s (.died client) = some s' ∧
        s'.vendorInterface = none ∧
        s'.linked = [] := by
  have hWatched : Watched es s :=
    system.history_of_guarded
      (fun _ _ _ _ hBefore hGuard hStep =>
        hBefore.step hGuard hStep)
      initial_watched hOne hRun
  have hHeld := hWatched.held
  have hNone :
      s.vendorInterface = none ↔ holder es = none := by
    refine ⟨hHeld.without, ?_⟩
    intro hNobody
    rcases hThere : s.vendorInterface with _ | v
    · rfl
    · rcases hHeld.client v hThere with ⟨first, hFirst, _⟩
      rw [hNobody] at hFirst
      cases hFirst
  refine ⟨hNone, hWatched.linked, ?_⟩
  intro client hHolder
  have hLinked := hWatched.linked
  rw [hHolder, Option.toList_some] at hLinked
  rcases hThere : s.vendorInterface with _ | v
  · rw [hNone.mp hThere] at hHolder
    cases hHolder
  · refine
      ⟨closeInterface
          { s with
            hasDied := true
            linked := s.linked.erase client } v,
        ?_, rfl, ?_⟩
    · simp [step, serviceDied, close, hLinked,
        (hWatched.client client hHolder).2, hThere]
    · simp [closeInterface, State.emit, hLinked]

instance (s : State) (e : Event) :
    Decidable (OneAtATime s e) :=
  match e with
  | .hciInitialize client answers =>
      decidable_of_iff (s.vendorInterface = none)
        ⟨fun hNone _ _ _ => hNone,
          fun hOne => hOne client answers rfl⟩
  | .close => isTrue (by simp [OneAtATime])
  | .died _ => isTrue (by simp [OneAtATime])
  | .send _ _ => isTrue (by simp [OneAtATime])
  | .transmit _ _ _ => isTrue (by simp [OneAtATime])
  | .configured _ _ => isTrue (by simp [OneAtATime])
  | .timeout => isTrue (by simp [OneAtATime])
  | .incoming _ => isTrue (by simp [OneAtATime])

/- A client dies after another one was served. -/
theorem death_handled_second :
    ∃ s,
      system.run
        [ .hciInitialize 1 goodAnswers, .close
        , .hciInitialize 2 goodAnswers, .send 1 [3, 12, 0] ] =
        some s ∧
      s.linked = [2] ∧
      ∃ s',
        step s (.died 2) = some s' ∧
        s'.vendorInterface = none ∧
        s'.linked = [] := by
  refine ⟨?s, ?run, ?linked, ?handled⟩
  case run => rfl
  case linked =>
    exact
      (@death_handled _
        [ .hciInitialize 1 goodAnswers, .close
        , .hciInitialize 2 goodAnswers, .send 1 [3, 12, 0] ]
        (by decide) rfl).2.1
  case handled =>
    exact
      (@death_handled _
        [ .hciInitialize 1 goodAnswers, .close
        , .hciInitialize 2 goodAnswers, .send 1 [3, 12, 0] ]
        (by decide) rfl).2.2 2 (by decide)

/-
  A second client is refused, but its link replaces that of
  the first one, whose death is then a fatal error.
-/
example :
    (system.run
      [ .hciInitialize 1 goodAnswers
      , .hciInitialize 2 goodAnswers, .close ]).map
        State.linked = some [1] ∧
    system.run
      [ .hciInitialize 1 goodAnswers
      , .hciInitialize 2 goodAnswers, .close, .died 1 ] =
      none := by
  decide

end Bluetooth

end Universal7420
