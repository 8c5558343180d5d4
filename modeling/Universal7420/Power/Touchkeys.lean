import Universal7420.Power.DelayedProfile
import Universal7420.Power.Touchscreen

/-
  The touchkey setting across screen cycles.

  The flat variant saves the touchkey node when the screen goes
  off, clears it, and restores it from a detached thread when
  the screen comes back.  `Keys` is the protocol that this
  amounts to: one saved value, any number of pending writes,
  and a screen-off call in three stages, so that a pending
  write can run between any two of them.

  Main declarations:
    * `Universal7420.Power.Keys`
    * `Universal7420.Power.Keys.Safe`
    * `Universal7420.Power.Keys.Kept.step`
    * `Universal7420.Power.Keys.Kept.unsafe_can_go_wrong`
    * `Universal7420.Power.keySystem`
    * `Universal7420.Power.touchkeys_survive`
-/

------------------------------------------------------------
-- The Protocol
------------------------------------------------------------

namespace Universal7420

namespace Power

/- How far a screen-off call has come. -/
inductive OffPhase where
| idle
| entered
| saved
deriving DecidableEq, Repr

/-
  The pending writes, the saved value and the value of the
  node, together with what is expected of the node: the state
  that was applied last, and the value that the node had when
  the last change to non-interactive began, or that the user
  has given it since.
-/
structure Keys where
  pending : Nat
  saved : Bool
  node : Bool
  phase : OffPhase
  interactive : Bool
  value : Option Bool
deriving DecidableEq, Repr

namespace Keys

inductive Event where
| enter
| save
| clear
| wake
| write
| userWrites (v : Bool)
deriving DecidableEq, Repr

/- What an event does. -/
def step (k : Keys) : Event → Keys
| .enter =>
    { k with
      phase := .entered
      interactive := false
      value :=
        if k.interactive then some k.node else k.value }
| .save => { k with phase := .saved, saved := k.node }
| .clear => { k with phase := .idle, node := false }
| .wake =>
    { k with
      interactive := true
      pending := k.pending + 1 }
| .write =>
    { k with node := k.saved, pending := k.pending - 1 }
| .userWrites v => { k with node := v, value := some v }

/- Calls come one at a time; the user needs a screen. -/
def Enabled (k : Keys) : Event → Prop
| .enter | .wake => k.phase = .idle
| .save => k.phase = .entered
| .clear => k.phase = .saved
| .write => 0 < k.pending
| .userWrites _ =>
    k.phase = .idle ∧ k.interactive = true

/- Nothing is pending and the node is as expected. -/
def Right (k : Keys) : Prop :=
  k.phase = .idle → k.pending = 0 →
    if k.interactive = true then
      ∀ v, k.value = some v → k.node = v
    else
      k.node = false

/-
  The screen goes off without a pending write, or everything
  is off already; the user does not write before a pending
  write that will undo it; and a repeated call does not bring
  back or save an outdated value.
-/
def Safe (k : Keys) : Event → Prop
| .enter =>
    if k.interactive = true then
      0 < k.pending → k.node = false ∧ k.saved = false
    else
      k.saved = false
| .wake =>
    k.interactive = true →
      ∀ v, k.value = some v → k.saved = v
| .userWrites v => 0 < k.pending → k.saved = v
| .save | .clear | .write => True

instance decidableSafe
    (k : Keys)
    (e : Event) :
    Decidable (k.Safe e) := by
  cases e <;> unfold Safe <;> infer_instance

/- The setting is in the node, or it is going to be. -/
def Kept (k : Keys) : Prop :=
  match k.phase, k.interactive with
  | .idle, true =>
      ∀ v, k.value = some v →
        (0 < k.pending → k.saved = v) ∧
          (k.pending = 0 → k.node = v)
  | .idle, false =>
      k.node = false ∧ k.value = some k.saved ∧
        (0 < k.pending → k.saved = false)
  | .entered, false =>
      k.value = some k.node ∧
        (0 < k.pending →
          k.node = false ∧ k.saved = false)
  | .saved, false =>
      k.value = some k.saved ∧
        (0 < k.pending → k.saved = false)
  | .entered, true | .saved, true => False

theorem Kept.right
    {k : Keys}
    (hKept : k.Kept) :
    k.Right := by
  intro hPhase hPending
  rcases k with
    ⟨pending, saved, node, phase, interactive, value⟩
  simp only at hPhase hPending
  subst hPhase
  subst hPending
  cases interactive with
  | true =>
      intro v hValue
      exact (hKept v hValue).2 rfl
  | false =>
      exact hKept.1

/- A safe event keeps the setting. -/
theorem Kept.step
    {k : Keys}
    {e : Event}
    (hKept : k.Kept)
    (hEnabled : k.Enabled e)
    (hSafe : k.Safe e) :
    (k.step e).Kept := by
  rcases k with
    ⟨pending, saved, node, phase, interactive, value⟩
  cases e with
  | enter =>
      cases hEnabled
      cases interactive with
      | true =>
          exact ⟨rfl, hSafe⟩
      | false =>
          rcases hKept with ⟨hNode, hValue, _⟩
          have hSaved : saved = false := hSafe
          refine ⟨?_, fun _ => ⟨hNode, hSaved⟩⟩
          change value = some node
          rw [show value = some saved from hValue, hSaved,
            show node = false from hNode]
  | save =>
      cases hEnabled
      cases interactive with
      | true =>
          exact hKept.elim
      | false =>
          exact ⟨hKept.1, fun hPending =>
            (hKept.2 hPending).1⟩
  | clear =>
      cases hEnabled
      cases interactive with
      | true =>
          exact hKept.elim
      | false =>
          exact ⟨rfl, hKept⟩
  | wake =>
      cases hEnabled
      intro v hValue
      change value = some v at hValue
      refine ⟨fun _ => ?_, fun hNone => by cases hNone⟩
      cases interactive with
      | true =>
          exact hSafe rfl v hValue
      | false =>
          rw [show value = some saved from hKept.2.1,
            Option.some.injEq] at hValue
          exact hValue
  | write =>
      change 0 < pending at hEnabled
      have hFewer : 0 < pending - 1 → 0 < pending := by
        omega
      cases phase with
      | idle =>
          cases interactive with
          | true =>
              intro v hValue
              have hSaved := (hKept v hValue).1 hEnabled
              exact ⟨fun _ => hSaved, fun _ => hSaved⟩
          | false =>
              have hSaved := hKept.2.2 hEnabled
              exact ⟨hSaved, hKept.2.1, fun _ => hSaved⟩
      | entered =>
          cases interactive with
          | true =>
              exact hKept.elim
          | false =>
              rcases hKept.2 hEnabled with
                ⟨hNode, hSaved⟩
              refine ⟨?_, fun _ => ⟨hSaved, hSaved⟩⟩
              change value = some saved
              rw [show value = some node from hKept.1]
              exact congrArg some (hNode.trans hSaved.symm)
      | saved =>
          cases interactive with
          | true =>
              exact hKept.elim
          | false =>
              exact ⟨hKept.1, fun hPending =>
                hKept.2 (hFewer hPending)⟩
  | userWrites v =>
      rcases hEnabled with ⟨hPhase, hOn⟩
      cases hPhase
      cases hOn
      intro v' hValue
      cases hValue
      exact ⟨hSafe, fun _ => rfl⟩

end Keys

end Power

end Universal7420

------------------------------------------------------------
-- Unsafe Events Go Wrong
------------------------------------------------------------

namespace Universal7420

namespace Power

namespace Keys

instance decidableEnabled
    (k : Keys)
    (e : Event) :
    Decidable (k.Enabled e) := by
  cases e <;> unfold Enabled <;> infer_instance

/- The protocol from a given state on. -/
def protocol (k₀ : Keys) : EventSystem Keys Event where
  init := k₀
  step := fun k e =>
    if k.Enabled e then some (k.step e) else none

theorem protocol_step
    (k₀ : Keys)
    {k : Keys}
    {e : Event}
    (hEnabled : k.Enabled e) :
    (protocol k₀).step k e = some (k.step e) :=
  if_pos hEnabled

/-
  Events that need neither the user nor a new reason: pending
  writes, the rest of a call, and the next wake-up.
-/
def Event.settling : Event → Bool
| .save | .clear | .write | .wake => true
| .enter | .userWrites _ => false

/- Something wrong can follow. -/
def CanGoWrong (k : Keys) : Prop :=
  ∃ k',
    (protocol k).ReachesBy
      (fun e => e.settling = true) k k' ∧
    ¬ k'.Right

theorem CanGoWrong.of_not_right
    {k : Keys}
    (hWrong : ¬ k.Right) :
    k.CanGoWrong :=
  ⟨k, EventSystem.ReachesBy.refl _ _ k, hWrong⟩

theorem CanGoWrong.head
    {k : Keys}
    {e : Event}
    (hRest : (k.step e).CanGoWrong)
    (hEnabled : k.Enabled e)
    (hSettling : e.settling = true) :
    k.CanGoWrong := by
  rcases hRest with ⟨k', hReaches, hWrong⟩
  have hFirst := protocol_step k hEnabled
  exact ⟨k', hReaches.head hFirst hSettling, hWrong⟩

/- The pending writes can all be over. -/
theorem CanGoWrong.drain
    {k : Keys}
    (hPending : 0 < k.pending)
    (hRest :
      { k with pending := 0, node := k.saved }.CanGoWrong) :
    k.CanGoWrong := by
  generalize hCount : k.pending = n at hPending
  induction n generalizing k with
  | zero =>
      cases hPending
  | succ n ih =>
      have hEnabled : k.Enabled .write := by
        change 0 < k.pending
        omega
      refine CanGoWrong.head (e := .write) ?_ hEnabled rfl
      cases n with
      | zero =>
          have hLast :
              k.step .write =
                { k with pending := 0, node := k.saved } := by
            simp only [Keys.step, hCount]
          rw [hLast]
          exact hRest
      | succ n =>
          apply ih
          · exact hRest
          · change k.pending - 1 = n + 1
            omega
          · omega

/-
  The conditions are exact: after an unsafe event the node can
  become wrong without any further unsafe event.
-/
theorem Kept.unsafe_can_go_wrong
    {k : Keys}
    {e : Event}
    (hKept : k.Kept)
    (hEnabled : k.Enabled e)
    (hUnsafe : ¬ k.Safe e) :
    (k.step e).CanGoWrong := by
  rcases k with
    ⟨pending, saved, node, phase, interactive, value⟩
  cases e with
  | enter =>
      cases hEnabled
      cases interactive with
      | true =>
          simp only [Safe, if_true, Classical.not_imp] at hUnsafe
          rcases hUnsafe with ⟨hPending, hOn⟩
          cases node with
          | true =>
              -- the write runs after the node was cleared
              refine CanGoWrong.head (e := .save) ?_ rfl rfl
              refine CanGoWrong.head (e := .clear) ?_ rfl rfl
              refine CanGoWrong.drain hPending ?_
              apply CanGoWrong.of_not_right
              simp [Right, Keys.step]
          | false =>
              -- the write runs before the node is read
              have hSaved : saved = true := by
                simpa using hOn
              subst hSaved
              refine CanGoWrong.drain hPending ?_
              refine CanGoWrong.head (e := .save) ?_ rfl rfl
              refine CanGoWrong.head (e := .clear) ?_ rfl rfl
              refine CanGoWrong.head (e := .wake) ?_ rfl rfl
              refine CanGoWrong.head (e := .write) ?_
                Nat.one_pos rfl
              apply CanGoWrong.of_not_right
              simp [Right, Keys.step]
      | false =>
          -- the second call saves the 0 of the first one
          have hSaved : saved = true := by
            simpa [Safe] using hUnsafe
          rcases hKept with ⟨hNode, hValue, hNone⟩
          have hPending : pending = 0 := by
            by_contra hSome
            have hOff := hNone (Nat.pos_of_ne_zero hSome)
            rw [show saved = false from hOff] at hSaved
            cases hSaved
          refine CanGoWrong.head (e := .save) ?_ rfl rfl
          refine CanGoWrong.head (e := .clear) ?_ rfl rfl
          refine CanGoWrong.head (e := .wake) ?_ rfl rfl
          refine CanGoWrong.head (e := .write) ?_
            (Nat.succ_pos pending) rfl
          apply CanGoWrong.of_not_right
          simp only at hNode hValue
          simp [Right, Keys.step, hNode, hValue, hSaved,
            hPending]
  | wake =>
      cases hEnabled
      simp only [Safe, Classical.not_imp,
        not_forall] at hUnsafe
      rcases hUnsafe with ⟨hOn, v, hValue, hSaved⟩
      subst hOn
      refine CanGoWrong.drain (Nat.succ_pos pending) ?_
      apply CanGoWrong.of_not_right
      simpa [Right, Keys.step, hValue] using hSaved
  | userWrites v =>
      rcases hEnabled with ⟨hPhase, hOn⟩
      cases hPhase
      cases hOn
      simp only [Safe, Classical.not_imp] at hUnsafe
      rcases hUnsafe with ⟨hPending, hSaved⟩
      refine CanGoWrong.drain hPending ?_
      apply CanGoWrong.of_not_right
      simpa [Right, Keys.step] using hSaved
  | save => exact absurd trivial hUnsafe
  | clear => exact absurd trivial hUnsafe
  | write => exact absurd trivial hUnsafe

end Keys

end Power

end Universal7420

------------------------------------------------------------
-- The Stages Of A Screen-Off Call
------------------------------------------------------------

namespace Universal7420

namespace Power

open Profiles Utils Fallible

/-
  `setInteractive(false)` up to the touchkeys.  A call that
  finds the screen still on is over.
-/
def enterScreenOff
    (s : PowerState) :
    Except Fault (PowerState × OffPhase) := do
  let s := { s with mIsInteractive := false }
  let screenOn ← screenIsOn s.sysfs.world
  if screenOn then
    return (s, .idle)
  else
    let s ← setProfile SecPowerProfiles.screenOff s
    return (s, .entered)

/- `Utils::read(POWER_TOUCHKEYS_ENABLED, ...)` -/
def saveTouchkeys
    (s : PowerState) : Except Fault PowerState := do
  let saved ← readBool s.sysfs.world touchkeysEnabledNode
  return { s with
    mTouchkeysEnabled := saved.getD s.mTouchkeysEnabled }

/- The rest of the call. -/
def clearTouchkeys (s : PowerState) : PowerState :=
  setDT2WState (disableTouchscreen
    ((s.write touchkeysEnabledNode (.bool false)).write
      touchkeysBrightnessNode (.int 0)))

theorem setInputState_false_stages
    {s : PowerState}
    (hKeys : s.mVariant ≠ .edge) :
    setInputState false s =
      (saveTouchkeys s).bind (fun r =>
        .ok (clearTouchkeys r)) := by
  unfold setInputState disableTouchkeys saveTouchkeys
  rw [if_pos hKeys]
  change Except.bind ((readBool s.sysfs.world
      touchkeysEnabledNode).bind _) _ =
    Except.bind ((readBool s.sysfs.world
      touchkeysEnabledNode).bind _) _
  cases readBool s.sysfs.world touchkeysEnabledNode with
  | error fault =>
      rfl
  | ok saved =>
      rfl

/- The stages make up the call of the flat variant. -/
theorem setInteractive_false_stages
    {s : PowerState}
    (hFlat : s.mVariant = .flat) :
    setInteractive false s =
      (enterScreenOff s).bind (fun state =>
        match state.2 with
        | .idle => .ok state.1
        | .entered | .saved =>
            (saveTouchkeys state.1).bind (fun r =>
              .ok (clearTouchkeys r))) := by
  unfold setInteractive applyInteractive enterScreenOff
  change (screenIsOn s.sysfs.world).bind _ =
    Except.bind ((screenIsOn s.sysfs.world).bind _) _
  cases screenIsOn s.sysfs.world with
  | error fault =>
      rfl
  | ok screenOn =>
      cases screenOn with
      | true =>
          rfl
      | false =>
          change (setProfile _ _).bind _ =
            Except.bind ((setProfile _ _).bind _) _
          cases hSet : setProfile SecPowerProfiles.screenOff
              { s with mIsInteractive := false } with
          | error fault =>
              rfl
          | ok r =>
              have hVariant : r.mVariant = .flat :=
                (congrArg InputView.variant
                  (setProfile_keepsInput hSet).view).trans
                  hFlat
              apply setInputState_false_stages
              rw [hVariant]
              decide

end Power

end Universal7420

------------------------------------------------------------
-- The Service And Its User
------------------------------------------------------------

namespace Universal7420

namespace Power

open Profiles Utils Fallible

/- The touchkey node as a flag. -/
def touchkeyFlag (s : PowerState) : Bool :=
  match readBool s.sysfs.world touchkeysEnabledNode with
  | .ok (some b) => b
  | _ => false

/- The user writes the node. -/
def userWritesTouchkeys
    (text : String)
    (s : PowerState) : PowerState :=
  s.write touchkeysEnabledNode (.string text)

/-
  The stages of a screen-off call, any other event of the
  service, and a write of the user.
-/
inductive TouchkeyEvent where
| enter
| save
| clear
| service (e : PowerEvent)
| userWrites (text : String)

/- During a call only detached threads and the world move. -/
def OffPhase.admits : OffPhase → PowerEvent → Bool
| .idle, .setInteractive false => false
| .idle, _ => true
| .entered, e | .saved, e => e.background

/- One event of the service on a flat device. -/
def keyStep
    (state : PowerState × OffPhase)
    (e : TouchkeyEvent) :
    Option (PowerState × OffPhase) :=
  match e with
  | .enter =>
      if state.2 = .idle then
        (enterScreenOff state.1).toOption
      else
        none
  | .save =>
      if state.2 = .entered then
        (saveTouchkeys state.1).toOption.map
          (fun s => (s, .saved))
      else
        none
  | .clear =>
      if state.2 = .saved then
        some (clearTouchkeys state.1, .idle)
      else
        none
  | .service e =>
      if state.2.admits e then
        (perform e state.1).toOption.map
          (fun s => (s, state.2))
      else
        none
  | .userWrites text =>
      if state.2 = .idle then
        some (userWritesTouchkeys text state.1, .idle)
      else
        none

/- What is expected of the node, see `Keys`. -/
structure TouchkeyHistory where
  interactive : Bool
  value : Option Bool
deriving DecidableEq, Repr

def TouchkeyHistory.update
    (h : TouchkeyHistory)
    (state : PowerState × OffPhase) :
    TouchkeyEvent → TouchkeyHistory
| .enter =>
    match screenIsOn state.1.sysfs.world with
    | .ok false =>
        { interactive := false
          value :=
            if h.interactive then
              some (touchkeyFlag state.1)
            else
              h.value }
    | _ => h
| .service (.setInteractive true) =>
    { h with interactive := true }
| .userWrites text =>
    { h with
      value := some (touchkeyFlag
        (userWritesTouchkeys text state.1)) }
| _ => h

/-
  Reads and writes of the node succeed, only the service and
  the user write it, and the user does so while the device is
  interactive.
-/
def TouchkeysReserved
    (state : (PowerState × OffPhase) × TouchkeyHistory) :
    TouchkeyEvent → Prop
| .service (.worldChanges w) =>
    w.content touchkeysEnabledNode =
        state.1.1.content touchkeysEnabledNode ∧
      w.readable touchkeysEnabledNode = true ∧
      w.writable touchkeysEnabledNode = true
| .userWrites text =>
    state.2.interactive = true ∧
      readBool
          (userWritesTouchkeys text state.1.1).sysfs.world
          touchkeysEnabledNode =
        .ok (some (touchkeyFlag
          (userWritesTouchkeys text state.1.1)))
| _ => True

instance decidableTouchkeysReserved
    (state : (PowerState × OffPhase) × TouchkeyHistory)
    (e : TouchkeyEvent) :
    Decidable (TouchkeysReserved state e) := by
  unfold TouchkeysReserved
  split <;> infer_instance

/- The flat device with its user. -/
def keySystem
    (s₀ : PowerState) :
    EventSystem
      ((PowerState × OffPhase) × TouchkeyHistory)
      TouchkeyEvent :=
  (EventSystem.withGhost
    { init := (s₀, .idle), step := keyStep }
    { interactive := true, value := none }
    TouchkeyHistory.update).restrict TouchkeysReserved

end Power

end Universal7420

------------------------------------------------------------
-- The Service Follows The Protocol
------------------------------------------------------------

namespace Universal7420

namespace Power

open Profiles Utils Fallible

/- The protocol state of a service. -/
def keysOf
    (state : (PowerState × OffPhase) × TouchkeyHistory) :
    Keys where
  pending := state.1.1.touchkeyTasks
  saved := state.1.1.mTouchkeysEnabled
  node := touchkeyFlag state.1.1
  phase := state.1.2
  interactive := state.2.interactive
  value := state.2.value

/- The event of the protocol that an event stands for. -/
def keysEvent
    (s : PowerState) :
    TouchkeyEvent → Option Keys.Event
| .enter =>
    match screenIsOn s.sysfs.world with
    | .ok false => some .enter
    | _ => none
| .save => some .save
| .clear => some .clear
| .service (.setInteractive true) => some .wake
| .service .touchkeyTask =>
    if 0 < s.touchkeyTasks then some .write else none
| .service _ => none
| .userWrites text =>
    some (.userWrites
      (touchkeyFlag (userWritesTouchkeys text s)))

/- An event of the protocol was enabled and happened. -/
def Keys.Moves
    (k k' : Keys) :
    Option Keys.Event → Prop
| some e => k.Enabled e ∧ k' = k.step e
| none => k' = k

/- A flat device whose touchkey node can be used. -/
structure KeysReady
    (s : PowerState) : Prop where
  variant : s.mVariant = .flat
  path : s.mTouchControlPath ∈ touchscreenNodes
  readable :
    s.sysfs.world.readable touchkeysEnabledNode = true
  writable :
    s.sysfs.world.writable touchkeysEnabledNode = true
  flag :
    readBool s.sysfs.world touchkeysEnabledNode =
      .ok (some (touchkeyFlag s))

theorem readBool_congr
    {w w' : World}
    {path : String}
    (hReadable : w'.readable path = w.readable path)
    (hContent : w'.content path = w.content path) :
    readBool w' path = readBool w path := by
  simp only [readBool, readInt, Utils.read, hReadable,
    hContent]

/- A written flag is read back. -/
theorem readBool_of_text
    {w : World}
    {path : String}
    {b : Bool}
    (hReadable : w.readable path = true)
    (hContent : w.content path = (Datum.bool b).text) :
    readBool w path = .ok (some b) := by
  have hLine :
      Utils.read w path = some (Datum.bool b).text := by
    unfold Utils.read
    rw [hReadable, hContent]
    cases b with
    | true => decide
    | false => decide
  simp only [readBool, readInt, hLine]
  cases b with
  | true => decide
  | false => decide

/- The same device with the same touchkey node. -/
structure SameKeyNode
    (s t : PowerState) : Prop where
  variant : t.mVariant = s.mVariant
  path : t.mTouchControlPath = s.mTouchControlPath
  readable :
    t.sysfs.world.readable touchkeysEnabledNode =
      s.sysfs.world.readable touchkeysEnabledNode
  writable :
    t.sysfs.world.writable touchkeysEnabledNode =
      s.sysfs.world.writable touchkeysEnabledNode
  content :
    t.content touchkeysEnabledNode =
      s.content touchkeysEnabledNode

theorem SameKeyNode.flag
    {s t : PowerState}
    (hSame : SameKeyNode s t) :
    touchkeyFlag t = touchkeyFlag s := by
  unfold touchkeyFlag
  rw [readBool_congr hSame.readable hSame.content]

theorem SameKeyNode.ready
    {s t : PowerState}
    (hSame : SameKeyNode s t)
    (hReady : KeysReady s) :
    KeysReady t where
  variant := hSame.variant.trans hReady.variant
  path := by
    rw [hSame.path]
    exact hReady.path
  readable := hSame.readable.trans hReady.readable
  writable := hSame.writable.trans hReady.writable
  flag := by
    rw [hSame.flag,
      readBool_congr hSame.readable hSame.content]
    exact hReady.flag

theorem KeepsInput.sameKeyNode
    {s t : PowerState}
    (hKeeps : KeepsInput s t) :
    SameKeyNode s t where
  variant := congrArg InputView.variant hKeeps.view
  path := congrArg InputView.touchControlPath hKeeps.view
  readable := by
    rw [hKeeps.access.readable]
  writable := by
    rw [hKeeps.access.writable]
  content := hKeeps.content _ (by simp [inputNodes])

/- The service has written a flag to the node. -/
theorem KeysReady.written
    {s t : PowerState}
    {b : Bool}
    (hReady : KeysReady s)
    (hVariant : t.mVariant = s.mVariant)
    (hPath : t.mTouchControlPath = s.mTouchControlPath)
    (hAccess : s.SameAccess t)
    (hContent :
      t.content touchkeysEnabledNode =
        (Datum.bool b).text) :
    KeysReady t ∧ touchkeyFlag t = b := by
  have hReadable :
      t.sysfs.world.readable touchkeysEnabledNode =
        true := by
    rw [hAccess.readable]
    exact hReady.readable
  have hRead := readBool_of_text hReadable hContent
  have hFlag : touchkeyFlag t = b := by
    unfold touchkeyFlag
    rw [hRead]
  refine ⟨⟨hVariant.trans hReady.variant, ?_, hReadable,
    ?_, ?_⟩, hFlag⟩
  · rw [hPath]
    exact hReady.path
  · rw [hAccess.writable]
    exact hReady.writable
  · rw [hFlag]
    exact hRead

/- An event that no touchkey takes part in. -/
theorem keysOf_of_keepsInput
    {s t : PowerState}
    (hKeeps : KeepsInput s t)
    (phase : OffPhase)
    (h : TouchkeyHistory) :
    keysOf ((t, phase), h) = keysOf ((s, phase), h) := by
  have hSaved := congrArg InputView.touchkeysEnabled
    hKeeps.view
  have hTasks := congrArg InputView.touchkeyTasks
    hKeeps.view
  simp only [PowerState.inputView] at hSaved hTasks
  simp only [keysOf, hSaved, hTasks,
    hKeeps.sameKeyNode.flag]

/- A screen-off call is rejected, or it is entered. -/
theorem enter_moves
    {s t : PowerState}
    {phase : OffPhase}
    {h : TouchkeyHistory}
    (hReady : KeysReady s)
    (hEnter : enterScreenOff s = .ok (t, phase)) :
    KeysReady t ∧
      (keysOf ((s, .idle), h)).Moves
        (keysOf ((t, phase), h.update (s, .idle) .enter))
        (keysEvent s .enter) := by
  have hStored :
      KeepsInput s { s with mIsInteractive := false } :=
    .of_view rfl rfl
  rcases bind_eq_ok_iff.mp hEnter with
    ⟨screenOn, hScreen, hRest⟩
  change screenIsOn s.sysfs.world = .ok screenOn at hScreen
  simp only [keysEvent, TouchkeyHistory.update, hScreen]
  cases screenOn with
  | true =>
      cases hRest
      exact ⟨hStored.sameKeyNode.ready hReady,
        keysOf_of_keepsInput hStored .idle h⟩
  | false =>
      rcases bind_eq_ok_iff.mp hRest with
        ⟨r, hSet, hLast⟩
      cases hLast
      have hKeeps : KeepsInput s t :=
        hStored.trans (setProfile_keepsInput hSet)
      refine ⟨hKeeps.sameKeyNode.ready hReady, rfl, ?_⟩
      exact (keysOf_of_keepsInput hKeeps .entered _)

/- The stages after that always succeed. -/
theorem save_moves
    {s t : PowerState}
    {h : TouchkeyHistory}
    (hReady : KeysReady s)
    (hSave : saveTouchkeys s = .ok t) :
    KeysReady t ∧
      keysOf ((t, .saved), h) =
        (keysOf ((s, .entered), h)).step .save := by
  rcases bind_eq_ok_iff.mp hSave with
    ⟨saved, hRead, hLast⟩
  rw [hReady.flag, Except.ok.injEq] at hRead
  cases hLast
  rw [← hRead]
  exact ⟨⟨hReady.variant, hReady.path, hReady.readable,
    hReady.writable, hReady.flag⟩, rfl⟩

theorem disableTouchscreen_access
    (s : PowerState) :
    s.SameAccess (disableTouchscreen s) := by
  unfold disableTouchscreen
  split
  · exact SameAccess.refl _
  · exact setTouchscreen_access false s

theorem inputView_disableTouchscreen
    (s : PowerState) :
    (disableTouchscreen s).inputView = s.inputView := by
  unfold disableTouchscreen
  split
  · rfl
  · exact inputView_setTouchscreen false s

theorem content_disableTouchscreen_of_ne
    {s : PowerState}
    {node : String}
    (hNe : s.mTouchControlPath ≠ node) :
    (disableTouchscreen s).content node =
      s.content node := by
  unfold disableTouchscreen
  split
  · rfl
  · exact content_setTouchscreen_of_ne false hNe

theorem clear_moves
    {s : PowerState}
    {h : TouchkeyHistory}
    (hReady : KeysReady s) :
    KeysReady (clearTouchkeys s) ∧
      keysOf ((clearTouchkeys s, .idle), h) =
        (keysOf ((s, .saved), h)).step .clear := by
  let u : PowerState :=
    (s.write touchkeysEnabledNode (.bool false)).write
      touchkeysBrightnessNode (.int 0)
  have hView :
      (clearTouchkeys s).inputView = s.inputView :=
    inputView_disableTouchscreen u
  have hAccess : s.SameAccess (clearTouchkeys s) :=
    (SameAccess.trans (write_access s _ _)
      (write_access _ _ _)).trans
      ((disableTouchscreen_access u).trans
        (setDT2WState_access _))
  have hContent :
      (clearTouchkeys s).content touchkeysEnabledNode =
        (Datum.bool false).text := by
    have hPath : u.mTouchControlPath ≠
        touchkeysEnabledNode :=
      (touchscreenNodes_ne hReady.path).2.2.symm
    calc
      (clearTouchkeys s).content touchkeysEnabledNode
          = (disableTouchscreen u).content
              touchkeysEnabledNode :=
            content_setDT2WState_of_ne _ (by decide)
      _ = u.content touchkeysEnabledNode :=
            content_disableTouchscreen_of_ne hPath
      _ = (s.write touchkeysEnabledNode
            (.bool false)).content touchkeysEnabledNode :=
            content_write_of_ne _ (by decide) _
      _ = (Datum.bool false).text :=
            content_write_self hReady.writable _
  rcases hReady.written
      (congrArg InputView.variant hView)
      (congrArg InputView.touchControlPath hView)
      hAccess hContent with ⟨hNext, hFlag⟩
  refine ⟨hNext, ?_⟩
  have hSaved := congrArg InputView.touchkeysEnabled hView
  have hTasks := congrArg InputView.touchkeyTasks hView
  simp only [PowerState.inputView] at hSaved hTasks
  simp only [keysOf, Keys.step, hFlag, hSaved, hTasks]

/- Switching the input devices on starts one write. -/
theorem setInputState_true_keys
    {s t : PowerState}
    (hPath : s.mTouchControlPath ∈ touchscreenNodes)
    (hInput : setInputState true s = .ok t) :
    SameKeyNode s t ∧
      t.inputView =
        { s.inputView with
          touchkeyTasks :=
            if s.mVariant ≠ .edge then s.touchkeyTasks + 1
            else s.touchkeyTasks } := by
  cases hInput
  let v := setTouchscreen true s
  let u := enableTouchkeys v
  have hFirst : v.inputView = s.inputView :=
    inputView_setTouchscreen true s
  have hView :
      u.inputView =
        { s.inputView with
          touchkeyTasks :=
            if s.mVariant ≠ .edge then s.touchkeyTasks + 1
            else s.touchkeyTasks } := by
    have hVariant : v.mVariant = s.mVariant :=
      congrArg InputView.variant hFirst
    have hTasks : v.touchkeyTasks = s.touchkeyTasks :=
      congrArg InputView.touchkeyTasks hFirst
    change (enableTouchkeys v).inputView = _
    rw [inputView_enableTouchkeys, hFirst, hVariant,
      hTasks]
  have hAccess : s.SameAccess (setDT2WState u) :=
    (SameAccess.trans (setTouchscreen_access true s)
      (enableTouchkeys_access v)).trans
      (setDT2WState_access u)
  refine ⟨⟨?_, ?_, ?_, ?_, ?_⟩, hView⟩
  · exact congrArg InputView.variant hView
  · exact congrArg InputView.touchControlPath hView
  · rw [← hAccess.readable]
  · rw [← hAccess.writable]
  · calc
      (setDT2WState u).content touchkeysEnabledNode
          = u.content touchkeysEnabledNode :=
            content_setDT2WState_of_ne u (by decide)
      _ = v.content touchkeysEnabledNode :=
            content_enableTouchkeys v (by simp [inputNodes])
      _ = s.content touchkeysEnabledNode :=
            content_setTouchscreen_of_ne true
              (touchscreenNodes_ne hPath).2.2.symm

/- Waking up starts one more write. -/
theorem wake_moves
    {s t : PowerState}
    {h : TouchkeyHistory}
    (hReady : KeysReady s)
    (hCall : setInteractive true s = .ok t) :
    KeysReady t ∧
      keysOf ((t, .idle),
          { h with interactive := true }) =
        (keysOf ((s, .idle), h)).step .wake := by
  have hStored :
      KeepsInput s { s with mIsInteractive := true } :=
    .of_view rfl rfl
  rcases bind_eq_ok_iff.mp hCall with ⟨r, hReset, hInput⟩
  have hKeeps : KeepsInput s r :=
    hStored.trans (resetProfile_keepsInput hReset)
  have hMiddle := hKeeps.sameKeyNode.ready hReady
  rcases setInputState_true_keys hMiddle.path hInput with
    ⟨hSame, hView⟩
  rw [hKeeps.view, hMiddle.variant,
    if_pos (by decide)] at hView
  refine ⟨hSame.ready hMiddle, ?_⟩
  have hFlag := hSame.flag.trans hKeeps.sameKeyNode.flag
  have hOld := congrArg InputView.touchkeyTasks hKeeps.view
  have hSaved := congrArg InputView.touchkeysEnabled hView
  have hTasks := congrArg InputView.touchkeyTasks hView
  simp only [PowerState.inputView] at hOld hSaved hTasks
  simp only [keysOf, Keys.step, hFlag, hSaved, hTasks, hOld]

/- A pending write restores the saved value. -/
theorem touchkeyTask_moves
    {s t : PowerState}
    {phase : OffPhase}
    {h : TouchkeyHistory}
    (hReady : KeysReady s)
    (hTask : perform .touchkeyTask s = .ok t) :
    KeysReady t ∧
      (keysOf ((s, phase), h)).Moves
        (keysOf ((t, phase), h))
        (keysEvent s (.service .touchkeyTask)) := by
  simp only [perform] at hTask
  simp only [keysEvent]
  split at hTask
  · rename_i hPending
    rw [if_pos hPending]
    cases hTask
    let u : PowerState :=
      { s with touchkeyTasks := s.touchkeyTasks - 1 }
    rcases hReady.written
        (t := u.write touchkeysEnabledNode
          (.bool s.mTouchkeysEnabled)) rfl rfl
        (write_sameAccess _ _ _)
        (content_write_self hReady.writable _) with
      ⟨hNext, hFlag⟩
    refine ⟨hNext, hPending, ?_⟩
    simp only [keysOf, Keys.step]
    rw [hFlag]
    rfl
  · rename_i hNone
    rw [if_neg hNone]
    cases hTask
    exact ⟨hReady, rfl⟩

/- Any other event of the service. -/
theorem service_moves
    {s t : PowerState}
    {phase : OffPhase}
    {h : TouchkeyHistory}
    {e : PowerEvent}
    (hReady : KeysReady s)
    (hReserved :
      TouchkeysReserved ((s, phase), h) (.service e))
    (hAdmits : phase.admits e = true)
    (hStep : perform e s = .ok t) :
    KeysReady t ∧
      (keysOf ((s, phase), h)).Moves
        (keysOf ((t, phase),
          h.update (s, phase) (.service e)))
        (keysEvent s (.service e)) := by
  have hOther :
      KeepsInput s t →
      KeysReady t ∧
        keysOf ((t, phase), h) = keysOf ((s, phase), h) :=
    fun hKeeps => ⟨hKeeps.sameKeyNode.ready hReady,
      keysOf_of_keepsInput hKeeps phase h⟩
  cases e with
  | setInteractive interactive =>
      have hIdle : phase = .idle := by
        cases phase with
        | idle => rfl
        | entered => cases hAdmits
        | saved => cases hAdmits
      subst hIdle
      cases interactive with
      | true =>
          rcases wake_moves (h := h) hReady hStep with
            ⟨hNext, hMove⟩
          exact ⟨hNext, rfl, hMove⟩
      | false =>
          cases hAdmits
  | powerHint hint data =>
      exact hOther (powerHint_keepsInput hStep)
  | setFeature feature activate =>
      cases hStep
      cases feature with
      | doubleTapToWake =>
          let u : PowerState :=
            { s with mIsDT2WEnabled := activate }
          have hContent :
              (setDT2WState u).content touchkeysEnabledNode =
                u.content touchkeysEnabledNode :=
            content_setDT2WState_of_ne u (by decide)
          have hAccess := setDT2WState_access u
          have hSame : SameKeyNode s (setDT2WState u) :=
            ⟨rfl, rfl, by rw [hAccess.readable],
              by rw [hAccess.writable], hContent⟩
          refine ⟨hSame.ready hReady, ?_⟩
          change keysOf ((setDT2WState u, phase), h) = _
          simp only [keysOf, hSame.flag]
          rfl
      | other =>
          exact ⟨hReady, rfl⟩
  | delayedTask index =>
      exact hOther (delayedTask_keepsInput hStep)
  | touchkeyTask =>
      exact touchkeyTask_moves hReady hStep
  | worldChanges w =>
      cases hStep
      rcases hReserved with
        ⟨hContent, hReadable, hWritable⟩
      let t : PowerState :=
        { s with sysfs := { s.sysfs with world := w } }
      have hSame : SameKeyNode s t :=
        ⟨rfl, rfl, hReadable.trans hReady.readable.symm,
          hWritable.trans hReady.writable.symm, hContent⟩
      refine ⟨hSame.ready hReady, ?_⟩
      change keysOf ((t, phase), h) = _
      simp only [keysOf, hSame.flag]
      rfl

/- Every step of the service is a step of the protocol. -/
theorem keyStep_moves
    {state state' : PowerState × OffPhase}
    {h : TouchkeyHistory}
    {e : TouchkeyEvent}
    (hReady : KeysReady state.1)
    (hReserved : TouchkeysReserved (state, h) e)
    (hStep : keyStep state e = some state') :
    KeysReady state'.1 ∧
      (keysOf (state, h)).Moves
        (keysOf (state', h.update state e))
        (keysEvent state.1 e) := by
  rcases state with ⟨s, phase⟩
  cases e with
  | enter =>
      simp only [keyStep] at hStep
      split at hStep
      · rename_i hIdle
        cases hIdle
        exact enter_moves hReady
          (toOption_eq_some_iff.mp hStep)
      · cases hStep
  | save =>
      simp only [keyStep] at hStep
      split at hStep
      · rename_i hEntered
        cases hEntered
        rcases Option.map_eq_some_iff.mp hStep with
          ⟨t, hSome, rfl⟩
        have hSave := toOption_eq_some_iff.mp hSome
        rcases save_moves (h := h) hReady hSave with
          ⟨hNext, hMove⟩
        exact ⟨hNext, rfl, hMove⟩
      · cases hStep
  | clear =>
      simp only [keyStep] at hStep
      split at hStep
      · rename_i hSaved
        cases hSaved
        cases hStep
        rcases clear_moves (h := h) hReady with
          ⟨hNext, hMove⟩
        exact ⟨hNext, rfl, hMove⟩
      · cases hStep
  | service e =>
      simp only [keyStep] at hStep
      split at hStep
      · rename_i hAdmits
        rcases Option.map_eq_some_iff.mp hStep with
          ⟨t, hSome, rfl⟩
        exact service_moves hReady hReserved hAdmits
          (toOption_eq_some_iff.mp hSome)
      · cases hStep
  | userWrites text =>
      simp only [keyStep] at hStep
      split at hStep
      · rename_i hIdle
        cases hIdle
        cases hStep
        rcases hReserved with ⟨hOn, hFlag⟩
        have hAccess : s.SameAccess
            (userWritesTouchkeys text s) :=
          write_access s _ _
        refine ⟨⟨hReady.variant, hReady.path, ?_, ?_,
          hFlag⟩, ⟨rfl, hOn⟩, rfl⟩
        · rw [hAccess.readable]
          exact hReady.readable
        · rw [hAccess.writable]
          exact hReady.writable
      · cases hStep

end Power

end Universal7420

------------------------------------------------------------
-- The Setting Survives
------------------------------------------------------------

namespace Universal7420

namespace Power

open Profiles Utils Fallible

/- Every event is safe in the protocol. -/
def TouchkeysSafe
    (state : (PowerState × OffPhase) × TouchkeyHistory)
    (e : TouchkeyEvent) : Prop :=
  match keysEvent state.1.1 e with
  | some event => (keysOf state).Safe event
  | none => True

instance decidableTouchkeysSafe
    (state : (PowerState × OffPhase) × TouchkeyHistory)
    (e : TouchkeyEvent) :
    Decidable (TouchkeysSafe state e) := by
  unfold TouchkeysSafe
  split <;> infer_instance

/-
  No write is pending and no call is in progress: the node is
  0 if the device is not interactive, and otherwise what it
  was when the last change to non-interactive began, or what
  the user has written since.
-/
def TouchkeysRight
    (state : (PowerState × OffPhase) × TouchkeyHistory) :
    Prop :=
  state.1.2 = .idle → state.1.1.touchkeyTasks = 0 →
    if state.2.interactive = true then
      ∀ v, state.2.value = some v →
        readBool state.1.1.sysfs.world
            touchkeysEnabledNode =
          .ok (some v)
    else
      readBool state.1.1.sysfs.world
          touchkeysEnabledNode =
        .ok (some false)

theorem touchkeysRight_of_kept
    {state : (PowerState × OffPhase) × TouchkeyHistory}
    (hReady : KeysReady state.1.1)
    (hKept : (keysOf state).Kept) :
    TouchkeysRight state := by
  intro hIdle hNone
  have hRight :
      if state.2.interactive = true then
        ∀ v, state.2.value = some v →
          touchkeyFlag state.1.1 = v
      else
        touchkeyFlag state.1.1 = false :=
    hKept.right hIdle hNone
  rw [hReady.flag]
  split
  · rename_i hOn
    intro v hValue
    rw [if_pos hOn] at hRight
    rw [hRight v hValue]
  · rename_i hOff
    rw [if_neg hOff] at hRight
    rw [hRight]

/- The constructor of a flat device starts one write. -/
theorem construct_keysReady
    {profiles : ProfileName → SecPowerProfile}
    {w : World}
    {s₀ : PowerState}
    (hConstruct : construct profiles w = .ok s₀)
    (hFlat : s₀.mVariant = .flat)
    (hReadable : w.readable touchkeysEnabledNode = true)
    (hWritable : w.writable touchkeysEnabledNode = true)
    (hFlag :
      ∃ b, readBool w touchkeysEnabledNode =
        .ok (some b)) :
    KeysReady s₀ := by
  unfold construct at hConstruct
  split at hConstruct
  · cases hConstruct
  · rcases bind_eq_ok_iff.mp hConstruct with
      ⟨r, hSet, hRest⟩
    rcases bind_eq_ok_iff.mp hRest with
      ⟨u, hInput, hLast⟩
    rw [pure_eq_ok_iff] at hLast
    have hKeeps := (setProfile_keepsInput hSet).sameKeyNode
    have hPath : r.mTouchControlPath ∈ touchscreenNodes := by
      rw [hKeeps.path]
      exact touchscreenPath_mem _
    have hOn := (setInputState_true_keys hPath hInput).1
    have hFinger : SameKeyNode u s₀ := by
      rw [← hLast]
      exact (setFingerprintState_keepsInput
        true u).sameKeyNode
    have hVariant : r.mVariant = .flat := by
      rw [← hOn.variant, ← hFinger.variant]
      exact hFlat
    apply hFinger.ready
    apply hOn.ready
    rcases hFlag with ⟨b, hFlag⟩
    have hRead :
        readBool r.sysfs.world touchkeysEnabledNode =
          .ok (some b) := by
      rw [readBool_congr hKeeps.readable hKeeps.content]
      exact hFlag
    refine ⟨hVariant, hPath, ?_, ?_, ?_⟩
    · rw [hKeeps.readable]
      exact hReadable
    · rw [hKeeps.writable]
      exact hWritable
    · rw [touchkeyFlag, hRead]

/-
  In every run whose events are safe, the touchkey node is
  right whenever no write is pending and no call is in
  progress.
-/
theorem touchkeys_survive
    {profiles : ProfileName → SecPowerProfile}
    {w : World}
    {s₀ : PowerState}
    (hConstruct : construct profiles w = .ok s₀)
    (hFlat : s₀.mVariant = .flat)
    (hReadable : w.readable touchkeysEnabledNode = true)
    (hWritable : w.writable touchkeysEnabledNode = true)
    (hFlag :
      ∃ b, readBool w touchkeysEnabledNode =
        .ok (some b))
    {es : List TouchkeyEvent}
    {final :
      (PowerState × OffPhase) × TouchkeyHistory}
    (hSafe :
      (keySystem s₀).Guarded TouchkeysSafe
        (keySystem s₀).init es)
    (hRun : (keySystem s₀).run es = some final) :
    TouchkeysRight final := by
  have hStep :
      ∀ (state : (PowerState × OffPhase) ×
          TouchkeyHistory) e state',
        KeysReady state.1.1 ∧ (keysOf state).Kept →
        TouchkeysSafe state e →
        (keySystem s₀).step state e = some state' →
        KeysReady state'.1.1 ∧ (keysOf state').Kept := by
    intro state e state' hInv hGuard hMove
    rcases EventSystem.restrict_step_eq_some_iff _ |>.mp
      hMove with ⟨hReserved, hGhost⟩
    rcases EventSystem.withGhost_step_eq_some_iff _ |>.mp
      hGhost with ⟨hKeyStep, hHistory⟩
    rcases keyStep_moves hInv.1 hReserved hKeyStep with
      ⟨hNext, hMoves⟩
    refine ⟨hNext, ?_⟩
    change (keysOf (state'.1, state'.2)).Kept
    rw [hHistory]
    cases hEvent : keysEvent state.1.1 e with
    | none =>
        rw [hEvent] at hMoves
        rw [show keysOf _ = keysOf _ from hMoves]
        exact hInv.2
    | some event =>
        rw [hEvent] at hMoves
        simp only [TouchkeysSafe, hEvent] at hGuard
        rw [hMoves.2]
        exact hInv.2.step hMoves.1 hGuard
  have hInit :
      KeysReady s₀ ∧
        (keysOf ((s₀, .idle),
          { interactive := true, value := none })).Kept :=
    ⟨construct_keysReady hConstruct hFlat hReadable
      hWritable hFlag, fun v hValue => by cases hValue⟩
  have hEnd := (keySystem s₀).invariant_of_guarded
    hStep hInit hSafe hRun
  exact touchkeysRight_of_kept hEnd.1 hEnd.2

/- One screen cycle with room for the pending writes. -/
def screenCycle : List TouchkeyEvent :=
  [.service .touchkeyTask, .enter, .save, .clear,
    .service (.setInteractive true),
    .service .touchkeyTask]

theorem touchkeys_survive_screenCycle :
    construct bootProfiles bootWorld = .ok bootState ∧
      ∃ final,
        (keySystem bootState).run screenCycle =
          some final ∧
        TouchkeysRight final := by
  refine ⟨construct_boot, ?_⟩
  have hRuns :
      ((keySystem bootState).run screenCycle).isSome =
        true := by
    decide
  rcases Option.isSome_iff_exists.mp hRuns with
    ⟨final, hRun⟩
  refine ⟨final, hRun, ?_⟩
  exact touchkeys_survive construct_boot (by decide) rfl
    rfl ⟨true, by decide⟩ (by decide) hRun

/-
  A second screen-off call saves the 0 that the first one has
  written: the touchkeys stay off after the wake-up.
-/
theorem touchkeys_lost :
    construct bootProfiles bootWorld = .ok bootState ∧
      ∃ final,
        (keySystem bootState).run
            [.service .touchkeyTask,
              .enter, .save, .clear, .enter, .save, .clear,
              .service (.setInteractive true),
              .service .touchkeyTask] =
          some final ∧
        final.2.interactive = true ∧
        final.2.value = some true ∧
        readBool final.1.1.sysfs.world
            touchkeysEnabledNode =
          .ok (some false) ∧
        ¬ TouchkeysRight final := by
  refine ⟨construct_boot, ?_⟩
  have hEnd :
      ((keySystem bootState).run
          [.service .touchkeyTask,
            .enter, .save, .clear, .enter, .save, .clear,
            .service (.setInteractive true),
            .service .touchkeyTask]).map
        (fun state => (state.1.2, state.1.1.touchkeyTasks,
          state.2,
          readBool state.1.1.sysfs.world
            touchkeysEnabledNode)) =
        some (OffPhase.idle, 0, ⟨true, some true⟩,
          .ok (some false)) := by
    decide
  rcases Option.map_eq_some_iff.mp hEnd with
    ⟨final, hRun, hState⟩
  simp only [Prod.mk.injEq] at hState
  rcases hState with ⟨hPhase, hTasks, hHistory, hRead⟩
  have hOn : final.2.interactive = true := by
    rw [hHistory]
  have hValue : final.2.value = some true := by
    rw [hHistory]
  refine ⟨final, hRun, hOn, hValue, hRead, ?_⟩
  intro hRight
  have hNode := hRight hPhase hTasks
  rw [if_pos hOn] at hNode
  have hTrue := hNode true hValue
  rw [hRead] at hTrue
  cases hTrue

end Power

end Universal7420
