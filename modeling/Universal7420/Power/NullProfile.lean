import Universal7420.Power.HalSpec

/-
  Null profile pointers.

  `getProfileData` has no record for most 32-bit values, and
  its callers use the pointer unchecked.  The only value that
  comes from outside is the data of a profile request, so the
  pointers are good exactly in the runs whose requests name a
  profile that can be loaded.

  Main declarations:
    * `Universal7420.Power.Loadable`
    * `Universal7420.Power.perform_eq_nullProfile`
    * `Universal7420.Power.no_null_profile_iff`
-/

------------------------------------------------------------
-- Where A Null Pointer Is Used
------------------------------------------------------------

namespace Universal7420

namespace Power

open Profiles Utils Fallible

/- A value that `getProfileData` knows. -/
def Loadable (profile : SecPowerProfiles) : Prop :=
  (getProfileData profile).isSome = true

instance (profile : SecPowerProfiles) :
    Decidable (Loadable profile) :=
  inferInstanceAs
    (Decidable ((getProfileData profile).isSome = true))

theorem not_loadable_iff
    {profile : SecPowerProfiles} :
    ¬ Loadable profile ↔ getProfileData profile = none := by
  simp [Loadable]

theorem loadable_screenOff :
    Loadable SecPowerProfiles.screenOff := by
  decide

theorem loadable_powerSave :
    Loadable SecPowerProfiles.powerSave := by
  decide

theorem loadable_balanced :
    Loadable SecPowerProfiles.balanced := by
  decide

theorem loadable_highPerformance :
    Loadable SecPowerProfiles.highPerformance := by
  decide

/- A fault that is not a null pointer stays one. -/
theorem bind_ne_nullProfile
    {α β : Type}
    {x : Except Fault α}
    {f : α → Except Fault β}
    (hFirst : x ≠ .error .nullProfile)
    (hRest : ∀ a, f a ≠ .error .nullProfile) :
    (x >>= f) ≠ .error .nullProfile := by
  intro hFault
  rcases bind_eq_error_iff.mp hFault with
    hFault | ⟨a, _, hFault⟩
  · exact hFirst hFault
  · exact hRest a hFault

/- Storing the nodes that a script leaves cannot fail. -/
theorem runOps_store_ne_nullProfile
    (ops : List SysfsOp)
    (s : PowerState) :
    (do
      let sysfs ← runOps ops s.sysfs
      return { s with sysfs := sysfs }) ≠
      Except.error Fault.nullProfile := by
  apply bind_ne_nullProfile
  · exact runOps_ne_nullProfile ops s.sysfs
  · intro sysfs hPure
    cases hPure

/- The pointer is used if the module is on. -/
theorem setProfile_eq_nullProfile_iff
    {profile : SecPowerProfiles}
    {s : PowerState} :
    setProfile profile s = .error .nullProfile ↔
      isModuleEnabled s.sysfs.world "profiles" = true ∧
        ¬ Loadable profile := by
  rw [not_loadable_iff]
  unfold setProfile applyProfile
  by_cases hOn :
      isModuleEnabled s.sysfs.world "profiles" = true
  · rw [if_pos hOn]
    cases hData : getProfileData profile with
    | none =>
        simp [hOn]
    | some id =>
        refine iff_of_false ?_ (by simp)
        dsimp only
        split
        · exact runOps_store_ne_nullProfile _
            { s with mCurrentProfile := profile }
        · simp
  · rw [if_neg hOn]
    simp [hOn]

/- A boost always uses the pointer. -/
theorem boostpulse_eq_nullProfile_iff
    {duration : Int32}
    {s : PowerState} :
    boostpulse duration s = .error .nullProfile ↔
      ¬ Loadable s.mCurrentProfile := by
  rw [not_loadable_iff]
  unfold boostpulse
  cases getProfileData s.mCurrentProfile with
  | none =>
      simp
  | some id =>
      refine iff_of_false ?_ (by simp)
      exact runOps_store_ne_nullProfile _ _

theorem readInt_ne_nullProfile
    (w : World)
    (path : String) :
    readInt w path ≠ .error .nullProfile := by
  unfold readInt
  split
  · simp
  · split <;> simp

theorem readBool_ne_nullProfile
    (w : World)
    (path : String) :
    readBool w path ≠ .error .nullProfile := by
  unfold readBool
  split
  · rename_i fault hRead
    intro hFault
    cases hFault
    exact readInt_ne_nullProfile w path hRead
  · simp

theorem screenIsOn_ne_nullProfile
    (w : World) :
    screenIsOn w ≠ .error .nullProfile := by
  unfold screenIsOn
  split
  · rename_i fault hRead
    intro hFault
    cases hFault
    exact readInt_ne_nullProfile w panelBrightness hRead
  · simp
  · simp

theorem setInputState_ne_nullProfile
    (enabled : Bool)
    (s : PowerState) :
    setInputState enabled s ≠ .error .nullProfile := by
  cases enabled with
  | true =>
      simp [setInputState]
  | false =>
      apply bind_ne_nullProfile
      · unfold disableTouchkeys
        split
        · apply bind_ne_nullProfile
          · exact readBool_ne_nullProfile _ _
          · intro saved hPure
            cases hPure
        · simp
      · intro r hPure
        cases hPure

/- The screen-off profile exists. -/
theorem setInteractive_ne_nullProfile
    (interactive : Bool)
    (s : PowerState) :
    setInteractive interactive s ≠
      .error .nullProfile := by
  cases interactive with
  | true =>
      exact setInputState_ne_nullProfile true _
  | false =>
      apply bind_ne_nullProfile
      · exact screenIsOn_ne_nullProfile _
      · intro screenOn
        cases screenOn with
        | true =>
            intro hPure
            cases hPure
        | false =>
            apply bind_ne_nullProfile
            · intro hFault
              exact (setProfile_eq_nullProfile_iff.mp
                hFault).2 loadable_screenOff
            · intro r
              exact setInputState_ne_nullProfile false r

/-
  All uses of a null pointer: by the profile that a call
  chooses, by the profile of a detached thread, and by a boost
  of the current profile.
-/
theorem perform_eq_nullProfile
    {e : PowerEvent}
    {s : PowerState}
    (hFault : perform e s = .error .nullProfile) :
    (∃ profile, chosen s e = some profile ∧
        ¬ Loadable profile) ∨
      (∃ (index : Nat) (profile : SecPowerProfiles),
        s.delayed[index]? = some profile ∧
          ¬ Loadable profile) ∨
      ¬ Loadable s.mCurrentProfile := by
  have hHint :
      ∀ profile data,
        profileHint profile data s = .error .nullProfile →
        ¬ Loadable
          (if data ≠ 0 then profile else resetTarget s) := by
    intro profile data hCall
    unfold profileHint at hCall
    split at hCall
    · rename_i hOn
      rw [if_pos hOn]
      exact (setProfile_eq_nullProfile_iff.mp hCall).2
    · rename_i hOff
      rw [if_neg hOff]
      exact (setProfile_eq_nullProfile_iff.mp hCall).2
  cases e with
  | setInteractive interactive =>
      exact absurd hFault
        (setInteractive_ne_nullProfile interactive s)
  | powerHint hint data =>
      cases hint with
      | setProfile =>
          exact Or.inl ⟨data, rfl,
            (setProfile_eq_nullProfile_iff.mp hFault).2⟩
      | lowPower =>
          exact Or.inl ⟨_, rfl, hHint _ data hFault⟩
      | sustainedPerformance =>
          exact Or.inl ⟨_, rfl, hHint _ data hFault⟩
      | vrMode =>
          exact Or.inl ⟨_, rfl, hHint _ data hFault⟩
      | interaction =>
          exact Or.inr (Or.inr
            (boostpulse_eq_nullProfile_iff.mp hFault))
      | launch =>
          cases hFault
      | vsync =>
          cases hFault
      | other =>
          cases hFault
  | setFeature feature activate =>
      cases hFault
  | delayedTask index =>
      cases hTask : s.delayed[index]? with
      | none =>
          simp [perform, hTask] at hFault
      | some profile =>
          simp only [perform, hTask] at hFault
          exact Or.inr (Or.inl ⟨index, profile, hTask,
            (setProfile_eq_nullProfile_iff.mp hFault).2⟩)
  | touchkeyTask =>
      simp only [perform] at hFault
      split at hFault <;> cases hFault
  | worldChanges w =>
      cases hFault

end Power

end Universal7420

------------------------------------------------------------
-- Loadable Runs
------------------------------------------------------------

namespace Universal7420

namespace Power

open Profiles Utils Fallible

/- A profile request names a profile with a record. -/
def RequestsLoadable (e : PowerEvent) : Prop :=
  ∀ data, e = .powerHint .setProfile data → Loadable data

/-
  An event does not use a null pointer, and neither does a
  boost right after it.
-/
def UsesNoNull
    (s : PowerState)
    (e : PowerEvent) : Prop :=
  perform e s ≠ .error .nullProfile ∧
    ∀ t duration, perform e s = .ok t →
      perform (.powerHint .interaction duration) t ≠
        .error .nullProfile

/- Every profile that the service may apply has a record. -/
structure AllLoadable (s : PowerState) : Prop where
  current : Loadable s.mCurrentProfile
  reset : Loadable (resetTarget s)
  waiting : ∀ pending ∈ s.delayed, Loadable pending

/- What a call chooses has a record. -/
theorem AllLoadable.chosen
    {s : PowerState}
    (hAll : AllLoadable s)
    {e : PowerEvent}
    (hRequest : RequestsLoadable e)
    {profile : SecPowerProfiles}
    (hChosen : chosen s e = some profile) :
    Loadable profile := by
  have hHint :
      ∀ (hinted : SecPowerProfiles) (data : Int32),
        Loadable hinted →
        Loadable
          (if data ≠ 0 then hinted else resetTarget s) := by
    intro hinted data hHinted
    split
    · exact hHinted
    · exact hAll.reset
  cases e with
  | setInteractive interactive =>
      cases interactive with
      | true =>
          cases hChosen
          exact hAll.reset
      | false =>
          simp only [Power.chosen] at hChosen
          split at hChosen
          · cases hChosen
            exact loadable_screenOff
          · cases hChosen
  | powerHint hint data =>
      cases hint with
      | setProfile =>
          cases hChosen
          exact hRequest _ rfl
      | lowPower =>
          cases hChosen
          exact hHint _ data loadable_powerSave
      | sustainedPerformance =>
          cases hChosen
          exact hHint _ data loadable_highPerformance
      | vrMode =>
          cases hChosen
          exact hHint _ data loadable_highPerformance
      | interaction =>
          cases hChosen
      | launch =>
          cases hChosen
      | vsync =>
          cases hChosen
      | other =>
          cases hChosen
  | setFeature feature activate =>
      cases hChosen
  | delayedTask index =>
      cases hChosen
  | touchkeyTask =>
      cases hChosen
  | worldChanges w =>
      cases hChosen

/- A reset after the step goes back to a loadable profile. -/
theorem AllLoadable.reset_step
    {s t : PowerState}
    {e : PowerEvent}
    (hAll : AllLoadable s)
    (hRequest : RequestsLoadable e)
    (hStep : perform e s = .ok t) :
    Loadable (resetTarget t) := by
  have hRequested := perform_requested hStep
  unfold resetTarget
  rw [hRequested]
  split
  · split
    · exact loadable_balanced
    · exact hRequest _ rfl
  · exact hAll.reset

/- Loadable requests keep every profile loadable. -/
theorem AllLoadable.step
    {s t : PowerState}
    {e : PowerEvent}
    (hAll : AllLoadable s)
    (hRequest : RequestsLoadable e)
    (hStep : perform e s = .ok t) :
    AllLoadable t := by
  have hReset := hAll.reset_step hRequest hStep
  cases perform_profileStep hStep with
  | applied profile hChosen hCurrent hDelayed =>
      refine ⟨?_, hReset, ?_⟩
      · rw [hCurrent]
        exact hAll.chosen hRequest hChosen
      · rw [hDelayed]
        exact hAll.waiting
  | started profile hChosen hCurrent hDelayed =>
      refine ⟨?_, hReset, ?_⟩
      · rw [hCurrent]
        exact hAll.current
      · intro pending hPending
        rw [hDelayed, List.mem_append,
          List.mem_singleton] at hPending
        rcases hPending with hOld | hNew
        · exact hAll.waiting pending hOld
        · rw [hNew]
          exact hAll.chosen hRequest hChosen
  | ran index profile hEvent hTask hCurrent hDelayed =>
      refine ⟨?_, hReset, ?_⟩
      · rw [hCurrent]
        exact hAll.waiting profile
          (List.mem_of_getElem? hTask)
      · intro pending hPending
        rw [hDelayed] at hPending
        exact hAll.waiting pending
          (List.mem_of_mem_eraseIdx hPending)
  | idle hChosen hCurrent hDelayed =>
      refine ⟨?_, hReset, ?_⟩
      · rw [hCurrent]
        exact hAll.current
      · rw [hDelayed]
        exact hAll.waiting

/- With loadable profiles no pointer is null. -/
theorem AllLoadable.perform_ne_nullProfile
    {s : PowerState}
    {e : PowerEvent}
    (hAll : AllLoadable s)
    (hRequest : RequestsLoadable e) :
    perform e s ≠ .error .nullProfile := by
  intro hFault
  rcases perform_eq_nullProfile hFault with
    ⟨profile, hChosen, hNull⟩ |
    ⟨index, profile, hTask, hNull⟩ | hNull
  · exact hNull (hAll.chosen hRequest hChosen)
  · exact hNull (hAll.waiting profile
      (List.mem_of_getElem? hTask))
  · exact hNull hAll.current

/- From a good state, exactly the bad requests go wrong. -/
theorem AllLoadable.usesNoNull_iff
    {s : PowerState}
    (hAll : AllLoadable s)
    (e : PowerEvent) :
    UsesNoNull s e ↔ RequestsLoadable e := by
  constructor
  · intro hSafe data hEvent
    by_contra hNull
    rw [hEvent] at hSafe
    rcases hSafe with ⟨hCall, hBoost⟩
    by_cases hOn :
        isModuleEnabled s.sysfs.world "profiles" = true
    · exact hCall
        (setProfile_eq_nullProfile_iff.mpr ⟨hOn, hNull⟩)
    · have hStored :
          perform (.powerHint .setProfile data) s =
            .ok { s with
              mRequestedProfile := data
              mCurrentProfile := data } := by
        simp [perform, powerHint, setProfile,
          applyProfile, hOn]
      exact hBoost _ 0 hStored
        (boostpulse_eq_nullProfile_iff.mpr hNull)
  · intro hRequest
    refine ⟨hAll.perform_ne_nullProfile hRequest, ?_⟩
    intro t duration hStep
    apply (hAll.step hRequest hStep).perform_ne_nullProfile
    intro data hEvent
    cases hEvent

theorem construct_allLoadable
    {profiles : ProfileName → SecPowerProfile}
    {w : World}
    {s₀ : PowerState}
    (hConstruct : construct profiles w = .ok s₀) :
    AllLoadable s₀ := by
  have hView := construct_view hConstruct
  have hRequested :
      s₀.mRequestedProfile = SecPowerProfiles.balanced :=
    congrArg ProfileView.requested hView
  have hCurrent :
      s₀.mCurrentProfile = SecPowerProfiles.balanced :=
    congrArg ProfileView.current hView
  have hDelayed : s₀.delayed = [] :=
    congrArg ProfileView.delayed hView
  refine ⟨?_, ?_, ?_⟩
  · rw [hCurrent]
    exact loadable_balanced
  · unfold resetTarget
    rw [hRequested]
    decide
  · simp [hDelayed]

/-
  No step of a run uses a null pointer, not even a boost after
  it, if and only if every profile request of the run names
  one of the six profiles.
-/
theorem no_null_profile_iff
    {profiles : ProfileName → SecPowerProfile}
    {w : World}
    {s₀ : PowerState}
    (hConstruct : construct profiles w = .ok s₀)
    (es : List PowerEvent) :
    (system s₀).Guarded UsesNoNull s₀ es ↔
      (system s₀).Guarded
        (fun _ e => RequestsLoadable e) s₀ es := by
  refine (system s₀).guarded_iff_guarded
    (fun s e hAll => hAll.usesNoNull_iff e) ?_
    (construct_allLoadable hConstruct) es
  intro s e t hAll hRequest hStep
  exact hAll.step hRequest
    (system_step_eq_some_iff.mp hStep)

/- A request for the power-save profile and a boost. -/
theorem no_null_profile_powerSave :
    construct bootProfiles bootWorld = .ok bootState ∧
      (system bootState).Guarded UsesNoNull bootState
        [.powerHint .setProfile 0,
          .powerHint .interaction 0] := by
  refine ⟨construct_boot, ?_⟩
  apply (no_null_profile_iff construct_boot _).mpr
  refine ⟨?_, fun _ _ => ⟨?_, fun _ _ => trivial⟩⟩
  · intro data hEvent
    cases hEvent
    decide
  · intro data hEvent
    cases hEvent

/-
  A request for profile 5 uses a null pointer at once, and with
  the profiles switched off it leaves one for the next boost.
-/
theorem null_profile_used :
    construct bootProfiles bootWorld = .ok bootState ∧
      perform (.powerHint .setProfile 5) bootState =
        .error .nullProfile ∧
      ∃ s,
        (system bootState).run
            [.worldChanges
                { bootWorld with property := fun _ => "false" },
              .powerHint .setProfile 5] =
          some s ∧
        perform (.powerHint .interaction 0) s =
          .error .nullProfile := by
  refine ⟨construct_boot, ?_, ?_⟩
  · have hNull :
        isModuleEnabled bootState.sysfs.world "profiles" =
            true ∧
          ¬ Loadable 5 := by
      decide
    exact setProfile_eq_nullProfile_iff.mpr hNull
  · have hEnd :
        ((system bootState).run
          [.worldChanges
              { bootWorld with property := fun _ => "false" },
            .powerHint .setProfile 5]).map
          PowerState.mCurrentProfile = some 5 := by
      decide
    rcases Option.map_eq_some_iff.mp hEnd with
      ⟨s, hRun, hCurrent⟩
    refine ⟨s, hRun, ?_⟩
    change boostpulse 0 s = .error .nullProfile
    rw [boostpulse_eq_nullProfile_iff, hCurrent]
    decide

end Power

end Universal7420
