import Universal7420.Power.HalSpec

/-
  Delayed profiles against later calls.

  A detached thread applies the profile it was started with,
  whatever has been chosen in the meantime.  The last choice
  wins exactly in the runs in which no choice is made while a
  thread with another profile is asleep.

  Main declarations:
    * `Universal7420.Power.history`
    * `Universal7420.Power.Settles`
    * `Universal7420.Power.NoStaleProfile`
    * `Universal7420.Power.last_choice_settles_iff`
-/

------------------------------------------------------------
-- The Last Choice
------------------------------------------------------------

namespace Universal7420

namespace Power

open Profiles Utils Fallible

/- The service, with the profile that was chosen last. -/
def history
    (s₀ : PowerState) :
    EventSystem (PowerState × SecPowerProfiles)
      PowerEvent :=
  (system s₀).withGhost SecPowerProfiles.balanced
    (fun last s e => (chosen s e).getD last)

/- The events that are not calls. -/
def PowerEvent.background : PowerEvent → Bool
| .delayedTask _ | .touchkeyTask | .worldChanges _ => true
| .setInteractive _ | .powerHint _ _
| .setFeature _ _ => false

/-
  Without further calls, a profile is in force whenever no
  detached thread is asleep.
-/
def Settles
    (s : PowerState)
    (last : SecPowerProfiles) : Prop :=
  ∀ es t,
    (∀ e ∈ es, PowerEvent.background e = true) →
    (system s).run es = some t →
    t.delayed = [] →
    t.mCurrentProfile = last

/-
  An event that chooses a profile finds no detached thread
  with another one.
-/
def NoStaleProfile
    (s : PowerState)
    (e : PowerEvent) : Prop :=
  ∀ profile, chosen s e = some profile →
    ∀ pending ∈ s.delayed, pending = profile

/- Only the last choice is waiting, or it is in force. -/
structure Tracks
    (s : PowerState)
    (last : SecPowerProfiles) : Prop where
  waiting : ∀ pending ∈ s.delayed, pending = last
  inForce : s.delayed = [] → s.mCurrentProfile = last

/- A step without a stale profile keeps track. -/
theorem Tracks.step
    {s t : PowerState}
    {last : SecPowerProfiles}
    {e : PowerEvent}
    (hTracks : Tracks s last)
    (hFresh : NoStaleProfile s e)
    (hStep : perform e s = .ok t) :
    Tracks t ((chosen s e).getD last) := by
  cases perform_profileStep hStep with
  | applied profile hChosen hCurrent hDelayed =>
      rw [hChosen]
      constructor
      · rw [hDelayed]
        exact hFresh profile hChosen
      · intro _
        exact hCurrent
  | started profile hChosen hCurrent hDelayed =>
      rw [hChosen]
      constructor
      · intro pending hPending
        rw [hDelayed, List.mem_append,
          List.mem_singleton] at hPending
        rcases hPending with hOld | hNew
        · exact hFresh profile hChosen pending hOld
        · exact hNew
      · intro hEmpty
        rw [hDelayed] at hEmpty
        simp at hEmpty
  | ran index profile hEvent hTask hCurrent hDelayed =>
      have hProfile : profile = last :=
        hTracks.waiting profile
          (List.mem_of_getElem? hTask)
      rw [hEvent]
      constructor
      · intro pending hPending
        rw [hDelayed] at hPending
        exact hTracks.waiting pending
          (List.mem_of_mem_eraseIdx hPending)
      · intro _
        exact hCurrent.trans hProfile
  | idle hChosen hCurrent hDelayed =>
      rw [hChosen]
      constructor
      · rw [hDelayed]
        exact hTracks.waiting
      · intro hEmpty
        rw [hDelayed] at hEmpty
        exact hCurrent.trans (hTracks.inForce hEmpty)

theorem chosen_background
    (s : PowerState)
    {e : PowerEvent}
    (hBackground : e.background = true) :
    chosen s e = none := by
  cases e with
  | setInteractive interactive =>
      cases hBackground
  | powerHint hint data =>
      cases hBackground
  | setFeature feature activate =>
      cases hBackground
  | delayedTask index =>
      rfl
  | touchkeyTask =>
      rfl
  | worldChanges w =>
      rfl

/- A state that keeps track settles on the last choice. -/
theorem Tracks.settles
    {s : PowerState}
    {last : SecPowerProfiles}
    (hTracks : Tracks s last) :
    Settles s last := by
  intro es t hBackground hRun hEmpty
  have hKeep :
      ∀ u e v, Tracks u last → e.background = true →
        (system s).step u e = some v → Tracks v last := by
    intro u e v hInv hBack hStep
    have hNone := chosen_background u hBack
    have hNext := hInv.step
      (by intro profile hChosen; simp [hNone] at hChosen)
      (system_step_eq_some_iff.mp hStep)
    rwa [hNone] at hNext
  have hGuard :=
    (system s).guarded_of_forall
      (G := fun _ e => e.background = true)
      (fun e he _ => hBackground e he) s
  have hEnd : Tracks t last :=
    (system s).invariant_of_guarded hKeep hTracks
      hGuard hRun
  exact hEnd.inForce hEmpty

end Power

end Universal7420

------------------------------------------------------------
-- A Stale Profile Wins
------------------------------------------------------------

namespace Universal7420

namespace Power

open Profiles Utils Fallible

/- The same world with the profiles switched off. -/
def withoutProfiles (w : World) : World :=
  { w with property := fun _ => "false" }

theorem isModuleEnabled_withoutProfiles
    (w : World)
    (module_ : String) :
    isModuleEnabled (withoutProfiles w) module_ = false :=
  rfl

/- With the profiles off, a thread only stores its profile. -/
theorem delayedTask_of_disabled
    {s : PowerState}
    {index : Nat}
    {profile : SecPowerProfiles}
    (hTask : s.delayed[index]? = some profile)
    (hOff :
      isModuleEnabled s.sysfs.world "profiles" = false) :
    perform (.delayedTask index) s =
      .ok { s with
        mCurrentProfile := profile
        delayed := s.delayed.eraseIdx index } := by
  simp only [perform, hTask, setProfile, applyProfile,
    hOff, Bool.false_eq_true, if_false]

/-
  There is a thread whose end leaves a waiting profile in
  place, unless that profile is the only one.
-/
theorem exists_next_task
    {tasks : List SecPowerProfiles}
    {stale : SecPowerProfiles}
    (hPending : stale ∈ tasks) :
    ∃ index profile,
      tasks[index]? = some profile ∧
      (stale ∈ tasks.eraseIdx index ∨
        (tasks.eraseIdx index = [] ∧ profile = stale)) := by
  rcases tasks with _ | ⟨first, rest⟩
  · cases hPending
  · by_cases hRest : stale ∈ rest
    · exact ⟨0, first, rfl, Or.inl hRest⟩
    · have hFirst : stale = first := by
        rcases List.mem_cons.mp hPending with hFirst | hLater
        · exact hFirst
        · exact absurd hLater hRest
      cases rest with
      | nil =>
          exact ⟨0, first, rfl, Or.inr ⟨rfl, hFirst.symm⟩⟩
      | cons second rest =>
          refine ⟨1, second, rfl, Or.inl ?_⟩
          simp [hFirst]

/-
  Any profile that is waiting can be made the last one to be
  applied.  The induction runs one of the other threads.
-/
theorem pending_can_run_last
    {s : PowerState}
    {stale : SecPowerProfiles}
    (hPending : stale ∈ s.delayed)
    (hOff :
      isModuleEnabled s.sysfs.world "profiles" = false)
    (s₀ : PowerState) :
    ∃ t,
      (system s₀).ReachesBy
          (fun e => e.background = true) s t ∧
      t.delayed = [] ∧
      t.mCurrentProfile = stale := by
  generalize hLength : s.delayed.length = n
  induction n generalizing s with
  | zero =>
      rw [List.length_eq_zero_iff] at hLength
      simp [hLength] at hPending
  | succ n ih =>
      rcases exists_next_task hPending with
        ⟨index, profile, hTask, hLeft⟩
      let u : PowerState :=
        { s with
          mCurrentProfile := profile
          delayed := s.delayed.eraseIdx index }
      have hStep :
          (system s₀).step s (.delayedTask index) =
            some u :=
        system_step_eq_some_iff.mpr
          (delayedTask_of_disabled hTask hOff)
      have hIndex : index < s.delayed.length :=
        (List.getElem?_eq_some_iff.mp hTask).1
      have hShort : u.delayed.length = n := by
        have hErase :=
          List.length_eraseIdx_of_lt hIndex
        change (s.delayed.eraseIdx index).length = n
        omega
      rcases hLeft with hStill | ⟨hAlone, hProfile⟩
      · rcases ih (s := u) hStill hOff hShort with
          ⟨t, hReaches, hEmpty, hLast⟩
        exact ⟨t, hReaches.head hStep rfl, hEmpty, hLast⟩
      · exact ⟨u, (EventSystem.ReachesBy.refl _ _ u).head
          hStep rfl, hAlone, hProfile⟩

/- A state that settles is waiting for one profile only. -/
theorem Settles.waiting
    {s : PowerState}
    {last : SecPowerProfiles}
    (hSettles : Settles s last) :
    ∀ pending ∈ s.delayed, pending = last := by
  intro pending hPending
  let u : PowerState :=
    { s with
      sysfs := { s.sysfs with
        world := withoutProfiles s.sysfs.world } }
  rcases pending_can_run_last (s := u) hPending
      (isModuleEnabled_withoutProfiles _ _) s with
    ⟨t, hReaches, hEmpty, hLast⟩
  have hWorld :
      (system s).step s
          (.worldChanges (withoutProfiles s.sysfs.world)) =
        some u :=
    rfl
  rcases hReaches.head hWorld rfl with
    ⟨es, hBackground, hRun⟩
  rw [← hLast]
  exact hSettles es t hBackground hRun hEmpty

/- Nothing that is chosen removes a waiting profile. -/
theorem delayed_subset_of_chosen
    {s t : PowerState}
    {e : PowerEvent}
    {profile : SecPowerProfiles}
    (hChosen : chosen s e = some profile)
    (hStep : perform e s = .ok t) :
    s.delayed ⊆ t.delayed := by
  intro pending hPending
  cases perform_profileStep hStep with
  | applied _ _ _ hDelayed =>
      rwa [hDelayed]
  | started _ _ _ hDelayed =>
      rw [hDelayed]
      exact List.mem_append_left _ hPending
  | ran index _ hEvent _ _ _ =>
      rw [hEvent] at hChosen
      cases hChosen
  | idle hNone _ _ =>
      rw [hNone] at hChosen
      cases hChosen

end Power

end Universal7420

------------------------------------------------------------
-- The Last Choice Wins
------------------------------------------------------------

namespace Universal7420

namespace Power

open Profiles Utils Fallible

theorem construct_tracks
    {profiles : ProfileName → SecPowerProfile}
    {w : World}
    {s₀ : PowerState}
    (hConstruct : construct profiles w = .ok s₀) :
    Tracks s₀ SecPowerProfiles.balanced := by
  have hView := construct_view hConstruct
  have hDelayed : s₀.delayed = [] :=
    congrArg ProfileView.delayed hView
  constructor
  · simp [hDelayed]
  · intro _
    exact congrArg ProfileView.current hView

/-
  Where the last choice is tracked, a step may only lead to a
  state that settles if it meets no stale profile.
-/
theorem Tracks.step_settles_iff
    {s t : PowerState}
    {last : SecPowerProfiles}
    {e : PowerEvent}
    (hTracks : Tracks s last)
    (hStep : perform e s = .ok t) :
    Settles t ((chosen s e).getD last) ↔
      NoStaleProfile s e := by
  constructor
  · intro hSettles profile hChosen pending hPending
    rw [hChosen] at hSettles
    exact hSettles.waiting pending
      (delayed_subset_of_chosen hChosen hStep hPending)
  · intro hFresh
    exact (hTracks.step hFresh hStep).settles

/-
  In every state of a run the last choice is what the service
  settles on, if and only if every choice of the run is made
  while no thread with another profile is asleep.
-/
theorem last_choice_settles_iff
    {profiles : ProfileName → SecPowerProfile}
    {w : World}
    {s₀ : PowerState}
    (hConstruct : construct profiles w = .ok s₀)
    {es : List PowerEvent}
    {final : PowerState × SecPowerProfiles}
    (hRun : (history s₀).run es = some final) :
    (∀ pre s last, pre <+: es →
        (history s₀).run pre = some (s, last) →
        Settles s last) ↔
      (history s₀).Guarded
        (fun state e => NoStaleProfile state.1 e)
        (history s₀).init es := by
  have hInit :
      Tracks (history s₀).init.1 (history s₀).init.2 :=
    construct_tracks hConstruct
  have hStepIff :
      ∀ (state : PowerState × SecPowerProfiles) e state',
        Tracks state.1 state.2 →
        (history s₀).step state e = some state' →
        (Settles state'.1 state'.2 ↔
          NoStaleProfile state.1 e) := by
    intro state e state' hTracks hStep
    rcases (system s₀).withGhost_step_eq_some_iff.mp hStep
      with ⟨hPerform, hLast⟩
    rw [hLast]
    exact hTracks.step_settles_iff
      (system_step_eq_some_iff.mp hPerform)
  have hKeep :
      ∀ (state : PowerState × SecPowerProfiles) e state',
        Tracks state.1 state.2 →
        NoStaleProfile state.1 e →
        (history s₀).step state e = some state' →
        Tracks state'.1 state'.2 := by
    intro state e state' hTracks hFresh hStep
    rcases (system s₀).withGhost_step_eq_some_iff.mp hStep
      with ⟨hPerform, hLast⟩
    rw [hLast]
    exact hTracks.step hFresh
      (system_step_eq_some_iff.mp hPerform)
  rw [← (history s₀).forall_prefix_iff_guarded
    (P := fun state => Settles state.1 state.2)
    (fun state hTracks => hTracks.settles)
    hStepIff hKeep hInit hRun]
  constructor
  · intro hAll pre state hPrefix hPre
    exact hAll pre state.1 state.2 hPrefix hPre
  · intro hAll pre s last hPrefix hPre
    exact hAll pre (s, last) hPrefix hPre

/- Waking up and letting the thread run is such a run. -/
theorem last_choice_settles_wake :
    construct bootProfiles bootWorld = .ok bootState ∧
      ∃ final,
        (history bootState).run
            [.setInteractive true, .delayedTask 0] =
          some final ∧
        ∀ pre s last,
          pre <+: [.setInteractive true, .delayedTask 0] →
          (history bootState).run pre = some (s, last) →
          Settles s last := by
  refine ⟨construct_boot, ?_⟩
  have hRuns :
      ((history bootState).run
        [.setInteractive true, .delayedTask 0]).isSome =
          true := by
    decide
  rcases Option.isSome_iff_exists.mp hRuns with
    ⟨final, hRun⟩
  refine ⟨final, hRun, ?_⟩
  apply (last_choice_settles_iff construct_boot hRun).mpr
  refine ⟨?_, fun state hStep => ⟨?_, fun _ _ => trivial⟩⟩
  · intro profile hChosen pending hPending
    have hNone : bootState.delayed = [] := by
      decide
    change pending ∈ bootState.delayed at hPending
    rw [hNone] at hPending
    cases hPending
  · intro profile hChosen
    cases hChosen

/-
  The screen goes off while the thread of the last wake-up is
  asleep: the screen-off profile does not stay.
-/
theorem stale_profile_overrides_screenOff :
    construct bootProfiles bootWorld = .ok bootState ∧
      ∃ s,
        (history bootState).run
            [.setInteractive true, .setInteractive false,
              .delayedTask 0] =
          some (s, SecPowerProfiles.screenOff) ∧
        s.delayed = [] ∧
        s.mCurrentProfile = SecPowerProfiles.balanced ∧
        s.mCurrentProfile ≠ SecPowerProfiles.screenOff := by
  refine ⟨construct_boot, ?_⟩
  have hEnd :
      ((history bootState).run
          [.setInteractive true, .setInteractive false,
            .delayedTask 0]).map
        (fun state => (state.1.view, state.2)) =
      some (
        { requested := SecPowerProfiles.balanced
          current := SecPowerProfiles.balanced
          delayed := [] },
        SecPowerProfiles.screenOff) := by
    decide
  rcases Option.map_eq_some_iff.mp hEnd with
    ⟨⟨s, last⟩, hRun, hState⟩
  rcases Prod.mk.inj hState with ⟨hView, hLast⟩
  have hCurrent :
      s.mCurrentProfile = SecPowerProfiles.balanced :=
    congrArg ProfileView.current hView
  refine ⟨s, ?_, congrArg ProfileView.delayed hView,
    hCurrent, ?_⟩
  · change last = SecPowerProfiles.screenOff at hLast
    rw [hRun, hLast]
  · rw [hCurrent]
    decide

end Power

end Universal7420
