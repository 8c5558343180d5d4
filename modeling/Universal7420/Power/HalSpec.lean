import Universal7420.Power.Hal

/-
  What an event does to the profile members of the service.

  `ProfileStep` is the complete list: a call applies the
  profile it chooses at once or starts a detached thread for
  it, a detached thread applies the profile it carries, and
  nothing else touches the current profile or the threads.

  Main declarations:
    * `Universal7420.Power.chosen`
    * `Universal7420.Power.ProfileStep`
    * `Universal7420.Power.perform_profileStep`
    * `Universal7420.Power.perform_requested`
    * `Universal7420.Power.construct_view`
-/

------------------------------------------------------------
-- Profile Members
------------------------------------------------------------

namespace Universal7420

namespace Power

open Profiles Utils Fallible

/- The members that decide which profile is in force. -/
structure ProfileView where
  requested : SecPowerProfiles
  current : SecPowerProfiles
  delayed : List SecPowerProfiles
deriving DecidableEq, Repr

def PowerState.view (s : PowerState) : ProfileView where
  requested := s.mRequestedProfile
  current := s.mCurrentProfile
  delayed := s.delayed

@[simp] theorem view_write
    (s : PowerState)
    (path : String)
    (d : Datum) :
    (s.write path d).view = s.view :=
  rfl

@[simp] theorem view_setDT2WState
    (s : PowerState) :
    (setDT2WState s).view = s.view :=
  rfl

theorem view_setTouchscreen
    (enabled : Bool)
    (s : PowerState) :
    (setTouchscreen enabled s).view = s.view := by
  unfold setTouchscreen
  split <;> rfl

theorem view_enableTouchkeys
    (s : PowerState) :
    (enableTouchkeys s).view = s.view := by
  unfold enableTouchkeys
  split <;> rfl

theorem view_disableTouchscreen
    (s : PowerState) :
    (disableTouchscreen s).view = s.view := by
  unfold disableTouchscreen
  split
  · rfl
  · exact view_setTouchscreen false s

theorem disableTouchkeys_view
    {s t : PowerState}
    (hKeys : disableTouchkeys s = .ok t) :
    t.view = s.view := by
  unfold disableTouchkeys at hKeys
  split at hKeys
  · rcases bind_eq_ok_iff.mp hKeys with ⟨_, _, hNew⟩
    cases hNew
    rfl
  · cases hKeys
    rfl

/- Input devices have nothing to do with profiles. -/
theorem setInputState_view
    {enabled : Bool}
    {s t : PowerState}
    (hInput : setInputState enabled s = .ok t) :
    t.view = s.view := by
  cases enabled with
  | true =>
      cases hInput
      rw [view_setDT2WState, view_enableTouchkeys,
        view_setTouchscreen]
  | false =>
      rcases bind_eq_ok_iff.mp hInput with
        ⟨r, hKeys, hRest⟩
      cases hRest
      rw [view_setDT2WState, view_disableTouchscreen,
        disableTouchkeys_view hKeys]

theorem view_setFingerprintState
    (enabled : Bool)
    (s : PowerState) :
    (setFingerprintState enabled s).view = s.view := by
  cases enabled <;> rfl

/- Applying a profile stores it. -/
theorem setProfile_view
    {profile : SecPowerProfiles}
    {s t : PowerState}
    (hSet : setProfile profile s = .ok t) :
    t.view = { s.view with current := profile } := by
  unfold setProfile applyProfile at hSet
  split at hSet
  · split at hSet
    · cases hSet
    · split at hSet
      · rcases bind_eq_ok_iff.mp hSet with ⟨_, _, hNew⟩
        cases hNew
        rfl
      · cases hSet
        rfl
  · cases hSet
    rfl

/- A boost changes no member. -/
theorem boostpulse_view
    {duration : Int32}
    {s t : PowerState}
    (hBoost : boostpulse duration s = .ok t) :
    t.view = s.view := by
  unfold boostpulse at hBoost
  split at hBoost
  · cases hBoost
  · rcases bind_eq_ok_iff.mp hBoost with ⟨_, _, hNew⟩
    cases hNew
    rfl

end Power

end Universal7420

------------------------------------------------------------
-- Choices And Steps
------------------------------------------------------------

namespace Universal7420

namespace Power

open Profiles Utils Fallible

/-
  The profile that a call asks for: the screen-off profile if
  the screen is off, the hinted profile, and otherwise the
  profile that a reset goes back to.
-/
def chosen
    (s : PowerState) :
    PowerEvent → Option SecPowerProfiles
| .setInteractive true => some (resetTarget s)
| .setInteractive false =>
    match screenIsOn s.sysfs.world with
    | .ok false => some SecPowerProfiles.screenOff
    | _ => none
| .powerHint .setProfile data => some data
| .powerHint .lowPower data =>
    some (if data ≠ 0 then SecPowerProfiles.powerSave
      else resetTarget s)
| .powerHint .sustainedPerformance data
| .powerHint .vrMode data =>
    some (if data ≠ 0 then SecPowerProfiles.highPerformance
      else resetTarget s)
| _ => none

/- All effects of an event on the profile in force. -/
inductive ProfileStep
    (s t : PowerState)
    (e : PowerEvent) : Prop where
| applied
    (profile : SecPowerProfiles)
    (hChosen : chosen s e = some profile)
    (hCurrent : t.mCurrentProfile = profile)
    (hDelayed : t.delayed = s.delayed)
| started
    (profile : SecPowerProfiles)
    (hChosen : chosen s e = some profile)
    (hCurrent : t.mCurrentProfile = s.mCurrentProfile)
    (hDelayed : t.delayed = s.delayed ++ [profile])
| ran
    (index : Nat)
    (profile : SecPowerProfiles)
    (hEvent : e = .delayedTask index)
    (hTask : s.delayed[index]? = some profile)
    (hCurrent : t.mCurrentProfile = profile)
    (hDelayed : t.delayed = s.delayed.eraseIdx index)
| idle
    (hChosen : chosen s e = none)
    (hCurrent : t.mCurrentProfile = s.mCurrentProfile)
    (hDelayed : t.delayed = s.delayed)

/- A call that stores its profile at once. -/
theorem ProfileStep.of_setProfile
    {s r t : PowerState}
    {e : PowerEvent}
    {profile : SecPowerProfiles}
    (hChosen : chosen s e = some profile)
    (hDelayed : r.delayed = s.delayed)
    (hView :
      t.view = { r.view with current := profile }) :
    ProfileStep s t e := by
  apply ProfileStep.applied profile hChosen
  · exact congrArg ProfileView.current hView
  · exact (congrArg ProfileView.delayed hView).trans
      hDelayed

/- An event that keeps the profile members. -/
theorem ProfileStep.of_view_eq
    {s t : PowerState}
    {e : PowerEvent}
    (hChosen : chosen s e = none)
    (hView : t.view = s.view) :
    ProfileStep s t e :=
  ProfileStep.idle hChosen
    (congrArg ProfileView.current hView)
    (congrArg ProfileView.delayed hView)

theorem setInteractive_view
    {interactive : Bool}
    {s t : PowerState}
    (hCall : setInteractive interactive s = .ok t) :
    t.view =
      match interactive, screenIsOn s.sysfs.world with
      | true, _ =>
          { s.view with
            delayed := s.delayed ++ [resetTarget s] }
      | false, .ok false =>
          { s.view with
            current := SecPowerProfiles.screenOff }
      | false, _ => s.view := by
  unfold setInteractive applyInteractive at hCall
  cases interactive with
  | true =>
      rcases bind_eq_ok_iff.mp hCall with
        ⟨r, hReset, hInput⟩
      rw [setInputState_view hInput]
      cases hReset
      rfl
  | false =>
      rcases bind_eq_ok_iff.mp hCall with
        ⟨screenOn, hScreen, hRest⟩
      rw [hScreen]
      cases screenOn with
      | true =>
          cases hRest
          rfl
      | false =>
          rcases bind_eq_ok_iff.mp hRest with
            ⟨r, hSet, hInput⟩
          rw [setInputState_view hInput,
            setProfile_view hSet]
          rfl

theorem profileHint_view
    {profile : SecPowerProfiles}
    {data : Int32}
    {s t : PowerState}
    (hHint : profileHint profile data s = .ok t) :
    t.view =
      { s.view with
        current :=
          if data ≠ 0 then profile else resetTarget s } := by
  unfold profileHint at hHint
  split at hHint
  · rename_i hOn
    rw [setProfile_view hHint, if_pos hOn]
  · rename_i hOff
    rw [setProfile_view hHint, if_neg hOff]

theorem delayedTask_profileStep
    {index : Nat}
    {s t : PowerState}
    (hTask : perform (.delayedTask index) s = .ok t) :
    ProfileStep s t (.delayedTask index) := by
  unfold perform at hTask
  cases hGet : s.delayed[index]? with
  | none =>
      simp only [hGet, Except.ok.injEq] at hTask
      exact ProfileStep.of_view_eq rfl (by rw [hTask])
  | some profile =>
      simp only [hGet] at hTask
      have hView := setProfile_view hTask
      exact ProfileStep.ran index profile rfl hGet
        (congrArg ProfileView.current hView)
        (congrArg ProfileView.delayed hView)

/- Every event makes one of the listed steps. -/
theorem perform_profileStep
    {e : PowerEvent}
    {s t : PowerState}
    (hStep : perform e s = .ok t) :
    ProfileStep s t e := by
  cases e with
  | setInteractive interactive =>
      have hView := setInteractive_view hStep
      cases interactive with
      | true =>
          exact ProfileStep.started (resetTarget s) rfl
            (congrArg ProfileView.current hView)
            (congrArg ProfileView.delayed hView)
      | false =>
          cases hScreen : screenIsOn s.sysfs.world with
          | error fault =>
              rw [hScreen] at hView
              exact ProfileStep.of_view_eq
                (by simp [chosen, hScreen]) hView
          | ok screenOn =>
              rw [hScreen] at hView
              cases screenOn with
              | true =>
                  exact ProfileStep.of_view_eq
                    (by simp [chosen, hScreen]) hView
              | false =>
                  exact ProfileStep.of_setProfile
                    (by simp [chosen, hScreen]) rfl hView
  | powerHint hint data =>
      cases hint with
      | setProfile =>
          have hView := setProfile_view hStep
          exact ProfileStep.applied data rfl
            (congrArg ProfileView.current hView)
            (congrArg ProfileView.delayed hView)
      | lowPower =>
          exact ProfileStep.of_setProfile rfl rfl
            (profileHint_view hStep)
      | sustainedPerformance =>
          exact ProfileStep.of_setProfile rfl rfl
            (profileHint_view hStep)
      | vrMode =>
          exact ProfileStep.of_setProfile rfl rfl
            (profileHint_view hStep)
      | interaction =>
          exact ProfileStep.of_view_eq rfl
            (boostpulse_view hStep)
      | launch =>
          cases hStep
          exact ProfileStep.of_view_eq rfl rfl
      | vsync =>
          cases hStep
          exact ProfileStep.of_view_eq rfl rfl
      | other =>
          cases hStep
          exact ProfileStep.of_view_eq rfl rfl
  | setFeature feature activate =>
      cases hStep
      cases feature with
      | doubleTapToWake =>
          exact ProfileStep.of_view_eq rfl rfl
      | other =>
          exact ProfileStep.of_view_eq rfl rfl
  | delayedTask index =>
      exact delayedTask_profileStep hStep
  | touchkeyTask =>
      simp only [perform] at hStep
      split at hStep
      · cases hStep
        exact ProfileStep.of_view_eq rfl rfl
      · cases hStep
        exact ProfileStep.of_view_eq rfl rfl
  | worldChanges w =>
      cases hStep
      exact ProfileStep.of_view_eq rfl rfl

/- Only a profile request changes the requested profile. -/
theorem perform_requested
    {e : PowerEvent}
    {s t : PowerState}
    (hStep : perform e s = .ok t) :
    t.mRequestedProfile =
      match e with
      | .powerHint .setProfile data => data
      | _ => s.mRequestedProfile := by
  cases e with
  | setInteractive interactive =>
      have hView := congrArg ProfileView.requested
        (setInteractive_view hStep)
      refine hView.trans ?_
      split <;> rfl
  | powerHint hint data =>
      cases hint with
      | setProfile =>
          exact congrArg ProfileView.requested
            (setProfile_view hStep)
      | lowPower =>
          exact congrArg ProfileView.requested
            (profileHint_view hStep)
      | sustainedPerformance =>
          exact congrArg ProfileView.requested
            (profileHint_view hStep)
      | vrMode =>
          exact congrArg ProfileView.requested
            (profileHint_view hStep)
      | interaction =>
          exact congrArg ProfileView.requested
            (boostpulse_view hStep)
      | launch =>
          cases hStep
          rfl
      | vsync =>
          cases hStep
          rfl
      | other =>
          cases hStep
          rfl
  | setFeature feature activate =>
      cases hStep
      cases feature <;> rfl
  | delayedTask index =>
      simp only [perform] at hStep
      split at hStep
      · cases hStep
        rfl
      · exact congrArg ProfileView.requested
          (setProfile_view hStep)
  | touchkeyTask =>
      simp only [perform] at hStep
      split at hStep
      · cases hStep
        rfl
      · cases hStep
        rfl
  | worldChanges w =>
      cases hStep
      rfl

/- The constructor leaves the balanced profile in force. -/
theorem construct_view
    {profiles : ProfileName → SecPowerProfile}
    {w : World}
    {s₀ : PowerState}
    (hConstruct : construct profiles w = .ok s₀) :
    s₀.view =
      { requested := SecPowerProfiles.balanced
        current := SecPowerProfiles.balanced
        delayed := [] } := by
  unfold construct at hConstruct
  split at hConstruct
  · cases hConstruct
  · rcases bind_eq_ok_iff.mp hConstruct with
      ⟨r, hSet, hRest⟩
    rcases bind_eq_ok_iff.mp hRest with
      ⟨u, hInput, hLast⟩
    rw [pure_eq_ok_iff] at hLast
    rw [← hLast, view_setFingerprintState,
      setInputState_view hInput, setProfile_view hSet]
    rfl

/- The service makes a step when the event returns. -/
theorem system_step_eq_some_iff
    {s₀ s t : PowerState}
    {e : PowerEvent} :
    (system s₀).step s e = some t ↔
      perform e s = .ok t :=
  toOption_eq_some_iff

end Power

end Universal7420

------------------------------------------------------------
-- A Booted Service
------------------------------------------------------------

namespace Universal7420

namespace Power

open Profiles Utils

/- A flat device with its screen off. -/
def bootWorld : World where
  property := fun _ => ""
  content := fun path =>
    if path = "/sys/class/input/input1/name" then
      "sec_touchscreen\n"
    else if path = panelBrightness then
      "0\n"
    else
      "1\n"
  readable := fun _ => true
  writable := fun _ => true
  regular := fun _ => false

/- Six enabled profiles without any section. -/
def bootProfiles : ProfileName → SecPowerProfile :=
  fun _ =>
    { SecPowerProfile.zero with
      switches := fun s => ⟨decide (s = .profile), true⟩ }

/- The service on that device. -/
def bootState : PowerState :=
  (construct bootProfiles bootWorld).toOption.get
    (by decide)

theorem construct_boot :
    construct bootProfiles bootWorld = .ok bootState :=
  rfl

end Power

end Universal7420
