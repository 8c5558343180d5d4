import Universal7420.Power.NodeFrame

/-
  The touchscreen and doubletap2wake.

  The touchscreen has to stay on for doubletap2wake while the
  device sleeps.  The screen-off call looks at the feature, but
  the feature call does not look at the screen, so the node is
  right exactly as long as the feature is not changed while
  the device sleeps.

  Main declarations:
    * `Universal7420.Power.appliedInteractive`
    * `Universal7420.Power.touchSystem`
    * `Universal7420.Power.TouchPowered`
    * `Universal7420.Power.touch_powered_iff`
-/

------------------------------------------------------------
-- The Touchscreen Node
------------------------------------------------------------

namespace Universal7420

namespace Power

open Profiles Utils Fallible

/-
  The interactive state that was applied last.  A call that
  finds the screen still on is rejected.
-/
def appliedInteractive
    (on : Bool)
    (s : PowerState) :
    PowerEvent → Bool
| .setInteractive true => true
| .setInteractive false =>
    match screenIsOn s.sysfs.world with
    | .ok false => false
    | _ => on
| _ => on

/- The nodes of the touchscreen and of doubletap2wake. -/
def touchNodes : List String :=
  dt2wEnabledNode :: touchscreenNodes

/-
  Some nodes can be written, and nobody but the service
  writes them.
-/
def Reserved
    (nodes : List String)
    (s : PowerState) :
    PowerEvent → Prop
| .worldChanges w =>
    ∀ node ∈ nodes,
      w.content node = s.content node ∧
        w.writable node = true
| _ => True

instance decidableReserved
    (nodes : List String)
    (s : PowerState)
    (e : PowerEvent) :
    Decidable (Reserved nodes s e) := by
  unfold Reserved
  split <;> infer_instance

/-
  The service on such a device, with the interactive state
  that was applied last.
-/
def touchSystem
    (s₀ : PowerState) :
    EventSystem (PowerState × Bool) PowerEvent :=
  ((system s₀).restrict (Reserved touchNodes)).withGhost
    true appliedInteractive

/-
  The touchscreen is on while the device is interactive or
  waits for a double tap.
-/
structure TouchPowered
    (s : PowerState)
    (on : Bool) : Prop where
  touchscreen :
    s.content s.mTouchControlPath = "1" ↔
      on = true ∨ s.mIsDT2WEnabled = true
  dt2w :
    s.content dt2wEnabledNode =
      (Datum.bool s.mIsDT2WEnabled).text

/-
  The feature is changed while the device is interactive, or
  it is not changed at all.
-/
def FeatureWhileAwake
    (state : PowerState × Bool) :
    PowerEvent → Prop
| .setFeature .doubleTapToWake activate =>
    state.2 = true ∨ activate = state.1.mIsDT2WEnabled
| _ => True

theorem touchscreenNodes_ne
    {path : String}
    (hPath : path ∈ touchscreenNodes) :
    path ≠ "" ∧ dt2wEnabledNode ≠ path ∧
      touchkeysEnabledNode ≠ path := by
  revert path
  decide

end Power

end Universal7420

------------------------------------------------------------
-- Input Calls And The Touchscreen
------------------------------------------------------------

namespace Universal7420

namespace Power

open Profiles Utils Fallible

/- The same touchscreen with the same feature. -/
structure SameTouch
    (s t : PowerState) : Prop where
  path : t.mTouchControlPath = s.mTouchControlPath
  dt2w : t.mIsDT2WEnabled = s.mIsDT2WEnabled
  access : s.SameAccess t

theorem SameTouch.trans
    {s t u : PowerState}
    (hFirst : SameTouch s t)
    (hSecond : SameTouch t u) :
    SameTouch s u where
  path := hSecond.path.trans hFirst.path
  dt2w := hSecond.dt2w.trans hFirst.dt2w
  access := SameAccess.trans hFirst.access hSecond.access

theorem KeepsInput.sameTouch
    {s t : PowerState}
    (hKeeps : KeepsInput s t) :
    SameTouch s t where
  path := congrArg InputView.touchControlPath hKeeps.view
  dt2w := congrArg InputView.dt2wEnabled hKeeps.view
  access := hKeeps.access

theorem setDT2WState_sameTouch
    (s : PowerState) :
    SameTouch s (setDT2WState s) :=
  ⟨rfl, rfl, setDT2WState_access s⟩

theorem setTouchscreen_sameTouch
    (enabled : Bool)
    (s : PowerState) :
    SameTouch s (setTouchscreen enabled s) := by
  have hView := inputView_setTouchscreen enabled s
  exact ⟨congrArg InputView.touchControlPath hView,
    congrArg InputView.dt2wEnabled hView,
    setTouchscreen_access enabled s⟩

theorem enableTouchkeys_sameTouch
    (s : PowerState) :
    SameTouch s (enableTouchkeys s) := by
  have hView := inputView_enableTouchkeys s
  exact ⟨congrArg InputView.touchControlPath hView,
    congrArg InputView.dt2wEnabled hView,
    enableTouchkeys_access s⟩

theorem disableTouchkeys_sameTouch
    {s t : PowerState}
    (hKeys : disableTouchkeys s = .ok t) :
    SameTouch s t := by
  have hView := disableTouchkeys_inputView hKeys
  exact ⟨congrArg InputView.touchControlPath hView,
    congrArg InputView.dt2wEnabled hView,
    disableTouchkeys_access hKeys⟩

/- The nodes are where they were and can be written. -/
structure TouchWritable
    (s : PowerState) : Prop where
  path : s.mTouchControlPath ∈ touchscreenNodes
  writable :
    ∀ node ∈ touchNodes,
      s.sysfs.world.writable node = true

theorem TouchWritable.of_sameTouch
    {s t : PowerState}
    (hWritable : TouchWritable s)
    (hSame : SameTouch s t) :
    TouchWritable t where
  path := by
    rw [hSame.path]
    exact hWritable.path
  writable := by
    intro node hNode
    rw [hSame.access.writable]
    exact hWritable.writable node hNode

/- The feature node follows the member. -/
theorem content_setDT2WState_self
    {s : PowerState}
    (hWritable : TouchWritable s) :
    (setDT2WState s).content dt2wEnabledNode =
      (Datum.bool s.mIsDT2WEnabled).text :=
  content_write_self
    (hWritable.writable _ (List.mem_cons_self ..)) _

/- The touchscreen node holds what it was set to. -/
theorem content_setTouchscreen_self
    {s : PowerState}
    (hWritable : TouchWritable s)
    (enabled : Bool) :
    (setTouchscreen enabled s).content
        s.mTouchControlPath =
      (Datum.bool enabled).text := by
  unfold setTouchscreen
  rw [if_pos (touchscreenNodes_ne hWritable.path).1]
  exact content_write_self
    (hWritable.writable _
      (List.mem_cons_of_mem _ hWritable.path)) _

/- Every input call ends by writing the feature node. -/
theorem setDT2WState_powered
    {s : PowerState}
    {on : Bool}
    (hWritable : TouchWritable s)
    (hTouch :
      s.content s.mTouchControlPath = "1" ↔
        on = true ∨ s.mIsDT2WEnabled = true) :
    TouchPowered (setDT2WState s) on where
  touchscreen := by
    have hNe := (touchscreenNodes_ne hWritable.path).2.1
    change (setDT2WState s).content s.mTouchControlPath =
      "1" ↔ on = true ∨ s.mIsDT2WEnabled = true
    rw [content_setDT2WState_of_ne s hNe]
    exact hTouch
  dt2w := content_setDT2WState_self hWritable

/- Switching the input devices on. -/
theorem setInputState_true_powered
    {s t : PowerState}
    (hWritable : TouchWritable s)
    (hInput : setInputState true s = .ok t) :
    SameTouch s t ∧ TouchPowered t true := by
  cases hInput
  have hScreen := setTouchscreen_sameTouch true s
  have hKeys := hScreen.trans
    (enableTouchkeys_sameTouch (setTouchscreen true s))
  refine ⟨hKeys.trans (setDT2WState_sameTouch _), ?_⟩
  apply setDT2WState_powered
    (hWritable.of_sameTouch hKeys)
  have hMem : s.mTouchControlPath ∈ inputNodes :=
    List.mem_append_right _ hWritable.path
  rw [hKeys.path, content_enableTouchkeys _ hMem,
    content_setTouchscreen_self hWritable]
  simp [Datum.text]

/- Switching the input devices off. -/
theorem setInputState_false_powered
    {s t : PowerState}
    {on : Bool}
    (hWritable : TouchWritable s)
    (hPowered : TouchPowered s on)
    (hInput : setInputState false s = .ok t) :
    SameTouch s t ∧ TouchPowered t false := by
  rcases bind_eq_ok_iff.mp hInput with ⟨r, hKeys, hNew⟩
  cases hNew
  have hFirst := disableTouchkeys_sameTouch hKeys
  have hReady := hWritable.of_sameTouch hFirst
  have hMem : s.mTouchControlPath ∈ inputNodes :=
    List.mem_append_right _ hWritable.path
  have hNe := (touchscreenNodes_ne hWritable.path).2.2
  unfold disableTouchscreen
  split
  · rename_i hOn
    refine ⟨hFirst.trans (setDT2WState_sameTouch r), ?_⟩
    apply setDT2WState_powered hReady
    have hTouch :
        s.content s.mTouchControlPath = "1" := by
      apply hPowered.touchscreen.mpr
      rw [← hFirst.dt2w]
      exact Or.inr hOn
    rw [hFirst.path,
      content_disableTouchkeys_of_ne hMem hNe hKeys,
      hTouch]
    simp [hOn]
  · rename_i hOff
    have hScreen := hFirst.trans
      (setTouchscreen_sameTouch false r)
    refine ⟨hScreen.trans (setDT2WState_sameTouch _), ?_⟩
    apply setDT2WState_powered
      (hWritable.of_sameTouch hScreen)
    rw [hScreen.path, ← hFirst.path,
      content_setTouchscreen_self hReady,
      hScreen.dt2w, ← hFirst.dt2w]
    simp [Datum.text, hOff]

end Power

end Universal7420

------------------------------------------------------------
-- Steps
------------------------------------------------------------

namespace Universal7420

namespace Power

open Profiles Utils Fallible

/- An event that touches neither node keeps them right. -/
theorem TouchPowered.of_same_content
    {s t : PowerState}
    {on : Bool}
    (hPowered : TouchPowered s on)
    (hSame : SameTouch s t)
    (hTouch :
      t.content s.mTouchControlPath =
        s.content s.mTouchControlPath)
    (hDt2w :
      t.content dt2wEnabledNode =
        s.content dt2wEnabledNode) :
    TouchPowered t on where
  touchscreen := by
    rw [hSame.path, hSame.dt2w, hTouch]
    exact hPowered.touchscreen
  dt2w := by
    rw [hSame.dt2w, hDt2w]
    exact hPowered.dt2w

theorem TouchPowered.of_keepsInput
    {s t : PowerState}
    {on : Bool}
    (hPath : s.mTouchControlPath ∈ touchscreenNodes)
    (hPowered : TouchPowered s on)
    (hKeeps : KeepsInput s t) :
    TouchPowered t on :=
  hPowered.of_same_content hKeeps.sameTouch
    (hKeeps.content _ (List.mem_append_right _ hPath))
    (hKeeps.content _ (List.mem_cons_self ..))

/- Both interactive calls set the touchscreen right. -/
theorem setInteractive_powered
    {interactive on : Bool}
    {s t : PowerState}
    (hWritable : TouchWritable s)
    (hPowered : TouchPowered s on)
    (hCall : setInteractive interactive s = .ok t) :
    SameTouch s t ∧
      TouchPowered t
        (appliedInteractive on s
          (.setInteractive interactive)) := by
  have hStored :
      KeepsInput s
        { s with mIsInteractive := interactive } :=
    .of_view rfl rfl
  unfold setInteractive applyInteractive at hCall
  cases interactive with
  | true =>
      rcases bind_eq_ok_iff.mp hCall with
        ⟨r, hReset, hInput⟩
      have hFirst : KeepsInput s r :=
        hStored.trans (resetProfile_keepsInput hReset)
      rcases setInputState_true_powered
          (hWritable.of_sameTouch hFirst.sameTouch)
          hInput with
        ⟨hSecond, hEnd⟩
      exact ⟨hFirst.sameTouch.trans hSecond, hEnd⟩
  | false =>
      rcases bind_eq_ok_iff.mp hCall with
        ⟨screenOn, hScreen, hRest⟩
      simp only [appliedInteractive, hScreen]
      cases screenOn with
      | true =>
          cases hRest
          exact ⟨hStored.sameTouch,
            hPowered.of_keepsInput hWritable.path hStored⟩
      | false =>
          rcases bind_eq_ok_iff.mp hRest with
            ⟨r, hSet, hInput⟩
          have hFirst : KeepsInput s r :=
            hStored.trans (setProfile_keepsInput hSet)
          rcases setInputState_false_powered
              (hWritable.of_sameTouch hFirst.sameTouch)
              (hPowered.of_keepsInput hWritable.path hFirst)
              hInput with
            ⟨hSecond, hEnd⟩
          exact ⟨hFirst.sameTouch.trans hSecond, hEnd⟩

/- A touchkey write is none of the touchscreen. -/
theorem touchkeyTask_powered
    {s t : PowerState}
    {on : Bool}
    (hWritable : TouchWritable s)
    (hPowered : TouchPowered s on)
    (hTask : perform .touchkeyTask s = .ok t) :
    SameTouch s t ∧ TouchPowered t on := by
  simp only [perform] at hTask
  split at hTask
  · cases hTask
    have hSame : SameTouch s
        ({ s with
          touchkeyTasks := s.touchkeyTasks - 1 }.write
            touchkeysEnabledNode
            (.bool s.mTouchkeysEnabled)) :=
      ⟨rfl, rfl, write_sameAccess _ _ _⟩
    refine ⟨hSame, hPowered.of_same_content hSame ?_ ?_⟩
    · exact content_write_of_ne _
        (touchscreenNodes_ne hWritable.path).2.2 _
    · exact content_write_of_ne _ (by decide) _
  · cases hTask
    exact ⟨⟨rfl, rfl, SameAccess.refl _⟩, hPowered⟩

/-
  The feature call rewrites only its own node: the touchscreen
  is right afterwards if it does not depend on the feature or
  the feature stays as it is.
-/
theorem setFeature_powered_iff
    {activate on : Bool}
    {s : PowerState}
    (hWritable : TouchWritable s)
    (hPowered : TouchPowered s on) :
    TouchPowered
        (setFeature .doubleTapToWake activate s) on ↔
      on = true ∨ activate = s.mIsDT2WEnabled := by
  let r : PowerState :=
    { s with mIsDT2WEnabled := activate }
  have hReady : TouchWritable r :=
    ⟨hWritable.path, hWritable.writable⟩
  change TouchPowered (setDT2WState r) on ↔ _
  have hNe := (touchscreenNodes_ne hWritable.path).2.1
  constructor
  · intro hAfter
    have hTouch :
        s.content s.mTouchControlPath = "1" ↔
          on = true ∨ activate = true := by
      have hNode := hAfter.touchscreen
      change (setDT2WState r).content
        s.mTouchControlPath = "1" ↔ _ at hNode
      rw [content_setDT2WState_of_ne r hNe] at hNode
      exact hNode
    have hBefore := hPowered.touchscreen
    by_cases hOn : on = true
    · exact Or.inl hOn
    · right
      rw [hTouch, or_iff_right hOn,
        or_iff_right hOn] at hBefore
      exact Bool.eq_iff_iff.mpr hBefore
  · intro hFine
    apply setDT2WState_powered hReady
    change s.content s.mTouchControlPath = "1" ↔
      on = true ∨ activate = true
    rw [hPowered.touchscreen]
    rcases hFine with hOn | hSame
    · simp [hOn]
    · rw [hSame]

/- Every event keeps the nodes writable and in place. -/
theorem perform_touchWritable
    {e : PowerEvent}
    {s t : PowerState}
    {on : Bool}
    (hWritable : TouchWritable s)
    (hPowered : TouchPowered s on)
    (hReserved : Reserved touchNodes s e)
    (hStep : perform e s = .ok t) :
    TouchWritable t ∧
      (TouchPowered t (appliedInteractive on s e) ↔
        FeatureWhileAwake (s, on) e) := by
  cases e with
  | setInteractive interactive =>
      rcases setInteractive_powered hWritable hPowered
        hStep with ⟨hSame, hEnd⟩
      exact ⟨hWritable.of_sameTouch hSame,
        iff_of_true hEnd trivial⟩
  | powerHint hint data =>
      have hKeeps := powerHint_keepsInput hStep
      exact ⟨hWritable.of_sameTouch hKeeps.sameTouch,
        iff_of_true
          (hPowered.of_keepsInput hWritable.path hKeeps)
          trivial⟩
  | setFeature feature activate =>
      cases hStep
      cases feature with
      | doubleTapToWake =>
          have hReady : TouchWritable
              { s with mIsDT2WEnabled := activate } :=
            ⟨hWritable.path, hWritable.writable⟩
          exact ⟨hReady.of_sameTouch
              (setDT2WState_sameTouch _),
            setFeature_powered_iff hWritable hPowered⟩
      | other =>
          exact ⟨hWritable, iff_of_true hPowered trivial⟩
  | delayedTask index =>
      have hKeeps := delayedTask_keepsInput hStep
      exact ⟨hWritable.of_sameTouch hKeeps.sameTouch,
        iff_of_true
          (hPowered.of_keepsInput hWritable.path hKeeps)
          trivial⟩
  | touchkeyTask =>
      rcases touchkeyTask_powered hWritable hPowered
        hStep with ⟨hSame, hEnd⟩
      exact ⟨hWritable.of_sameTouch hSame,
        iff_of_true hEnd trivial⟩
  | worldChanges w =>
      cases hStep
      have hTouch := (hReserved _
        (List.mem_cons_of_mem _ hWritable.path)).1
      have hDt2w := (hReserved _
        (List.mem_cons_self ..)).1
      refine ⟨⟨hWritable.path, ?_⟩,
        iff_of_true ⟨?_, ?_⟩ trivial⟩
      · intro node hNode
        exact (hReserved node hNode).2
      · change w.content s.mTouchControlPath = "1" ↔ _
        rw [hTouch]
        exact hPowered.touchscreen
      · change w.content dt2wEnabledNode = _
        rw [hDt2w]
        exact hPowered.dt2w

end Power

end Universal7420

------------------------------------------------------------
-- The Touchscreen Is Powered
------------------------------------------------------------

namespace Universal7420

namespace Power

open Profiles Utils Fallible

/- The constructor switches the touchscreen on. -/
theorem construct_powered
    {profiles : ProfileName → SecPowerProfile}
    {w : World}
    {s₀ : PowerState}
    (hWritable :
      ∀ node ∈ touchNodes, w.writable node = true)
    (hConstruct : construct profiles w = .ok s₀) :
    TouchWritable s₀ ∧ TouchPowered s₀ true := by
  unfold construct at hConstruct
  split at hConstruct
  · cases hConstruct
  · rcases bind_eq_ok_iff.mp hConstruct with
      ⟨r, hSet, hRest⟩
    rcases bind_eq_ok_iff.mp hRest with
      ⟨u, hInput, hLast⟩
    rw [pure_eq_ok_iff] at hLast
    have hKeeps := setProfile_keepsInput hSet
    have hReady : TouchWritable r := by
      constructor
      · rw [hKeeps.sameTouch.path]
        exact touchscreenPath_mem _
      · intro node hNode
        rw [hKeeps.sameTouch.access.writable]
        exact hWritable node hNode
    rcases setInputState_true_powered hReady hInput with
      ⟨hSame, hPowered⟩
    have hFinger : KeepsInput u s₀ := by
      rw [← hLast]
      exact setFingerprintState_keepsInput true u
    have hFirst := hReady.of_sameTouch hSame
    exact ⟨hFirst.of_sameTouch hFinger.sameTouch,
      hPowered.of_keepsInput hFirst.path hFinger⟩

/-
  The touchscreen and the feature node are right in every
  state of a run, if and only if the feature is never changed
  while the device sleeps.
-/
theorem touch_powered_iff
    {profiles : ProfileName → SecPowerProfile}
    {w : World}
    {s₀ : PowerState}
    (hWritable :
      ∀ node ∈ touchNodes, w.writable node = true)
    (hConstruct : construct profiles w = .ok s₀)
    {es : List PowerEvent}
    {final : PowerState × Bool}
    (hRun : (touchSystem s₀).run es = some final) :
    (∀ pre s on, pre <+: es →
        (touchSystem s₀).run pre = some (s, on) →
        TouchPowered s on) ↔
      (touchSystem s₀).Guarded FeatureWhileAwake
        (touchSystem s₀).init es := by
  have hStep :
      ∀ (state : PowerState × Bool) e state',
        TouchWritable state.1 ∧
          TouchPowered state.1 state.2 →
        (touchSystem s₀).step state e = some state' →
        TouchWritable state'.1 ∧
          (TouchPowered state'.1 state'.2 ↔
            FeatureWhileAwake state e) := by
    intro state e state' hReady hMove
    rcases ((system s₀).restrict
        (Reserved touchNodes)).withGhost_step_eq_some_iff.mp
      hMove with ⟨hAllowed, hOn⟩
    rcases (system s₀).restrict_step_eq_some_iff.mp
      hAllowed with ⟨hReserved, hPerform⟩
    rw [hOn]
    exact perform_touchWritable hReady.1 hReady.2 hReserved
      (system_step_eq_some_iff.mp hPerform)
  rw [← (touchSystem s₀).forall_prefix_iff_guarded
    (P := fun state => TouchPowered state.1 state.2)
    (fun state hReady => hReady.2)
    (fun state e state' hReady hMove =>
      (hStep state e state' hReady hMove).2)
    (fun state e state' hReady hAwake hMove =>
      ⟨(hStep state e state' hReady hMove).1,
        (hStep state e state' hReady hMove).2.mpr hAwake⟩)
    (construct_powered hWritable hConstruct) hRun]
  constructor
  · intro hAll pre state hPrefix hPre
    exact hAll pre state.1 state.2 hPrefix hPre
  · intro hAll pre s on hPrefix hPre
    exact hAll pre (s, on) hPrefix hPre

/- Enabling the feature before the screen goes off. -/
theorem touch_powered_early_feature :
    construct bootProfiles bootWorld = .ok bootState ∧
      ∃ final,
        (touchSystem bootState).run
            [.setFeature .doubleTapToWake true,
              .setInteractive false,
              .setInteractive true] =
          some final ∧
        TouchPowered final.1 final.2 := by
  refine ⟨construct_boot, ?_⟩
  have hRuns :
      ((touchSystem bootState).run
        [.setFeature .doubleTapToWake true,
          .setInteractive false,
          .setInteractive true]).isSome = true := by
    decide
  rcases Option.isSome_iff_exists.mp hRuns with
    ⟨final, hRun⟩
  refine ⟨final, hRun, ?_⟩
  refine (touch_powered_iff (fun _ _ => rfl) construct_boot
    hRun).mpr ?_ _ _ _ (List.prefix_refl _) hRun
  refine ⟨Or.inl rfl, fun _ _ => ⟨trivial, fun _ _ =>
    ⟨trivial, fun _ _ => trivial⟩⟩⟩

/-
  Enabling the feature after the screen went off: the
  touchscreen stays off and cannot see the double tap.
-/
theorem late_feature_leaves_touchscreen_off :
    construct bootProfiles bootWorld = .ok bootState ∧
      ∃ s on,
        (touchSystem bootState).run
            [.setInteractive false,
              .setFeature .doubleTapToWake true] =
          some (s, on) ∧
        s.content s.mTouchControlPath = "0" ∧
        s.mIsDT2WEnabled = true ∧
        ¬ TouchPowered s on := by
  refine ⟨construct_boot, ?_⟩
  have hEnd :
      ((touchSystem bootState).run
          [.setInteractive false,
            .setFeature .doubleTapToWake true]).map
        (fun state =>
          (state.1.content state.1.mTouchControlPath,
            state.1.mIsDT2WEnabled)) =
        some ("0", true) := by
    decide
  rcases Option.map_eq_some_iff.mp hEnd with
    ⟨⟨s, on⟩, hRun, hState⟩
  rcases Prod.mk.inj hState with ⟨hTouch, hFeature⟩
  refine ⟨s, on, hRun, hTouch, hFeature, ?_⟩
  intro hPowered
  have hNode := hPowered.touchscreen.mpr (Or.inr hFeature)
  rw [hTouch] at hNode
  exact absurd hNode (by decide)

end Power

end Universal7420
