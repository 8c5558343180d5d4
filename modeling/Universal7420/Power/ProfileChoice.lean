import Universal7420.Power.DelayedProfile

/-
  The profile in force as a function of the calls.

  With one call at a time and all delayed work finished, the
  profile in force is decided by the last call that chooses a
  profile and by the last profile request.  Only the request
  is remembered: the modes are not.

  Main declarations:
    * `Universal7420.Power.ProfileInput`
    * `Universal7420.Power.OneAtATime`
    * `Universal7420.Power.inForce`
    * `Universal7420.Power.run_inForce`
    * `Universal7420.Power.profile_of_last_inputs`
-/

------------------------------------------------------------
-- Inputs
------------------------------------------------------------

namespace Universal7420

namespace Power

open Profiles Utils Fallible

/- The five inputs that a profile is chosen from. -/
inductive ProfileInput where
| setProfile
| lowPower
| sustainedPerformance
| vrMode
| interactive
deriving DecidableEq, Repr

/- The input that a call sets, and its value. -/
def PowerEvent.input? :
    PowerEvent → Option (ProfileInput × Int32)
| .powerHint .setProfile data => some (.setProfile, data)
| .powerHint .lowPower data => some (.lowPower, data)
| .powerHint .sustainedPerformance data =>
    some (.sustainedPerformance, data)
| .powerHint .vrMode data => some (.vrMode, data)
| .setInteractive interactive =>
    some (.interactive, if interactive then 1 else 0)
| _ => none

/- The inputs of a run, the last one first. -/
def latestInputs
    (es : List PowerEvent) :
    List (ProfileInput × Int32) :=
  (es.filterMap PowerEvent.input?).reverse

/- The last value of an input. -/
def lastValueOf
    (i : ProfileInput)
    (inputs : List (ProfileInput × Int32)) :
    Option Int32 :=
  inputs.lookup i

/-
  Calls come one at a time, after all delayed work, and the
  screen is off when the device goes to sleep.
-/
def OneAtATime
    (s : PowerState) :
    PowerEvent → Prop
| .setInteractive interactive =>
    s.delayed = [] ∧
      (interactive = false →
        screenIsOn s.sysfs.world = .ok false)
| .powerHint _ _ => s.delayed = []
| _ => True

instance decidableOneAtATime
    (s : PowerState)
    (e : PowerEvent) :
    Decidable (OneAtATime s e) := by
  unfold OneAtATime
  split <;> infer_instance

/- The profile that a reset goes back to. -/
def fallback
    (request : SecPowerProfiles) : SecPowerProfiles :=
  if request = SecPowerProfiles.invalid then
    SecPowerProfiles.balanced
  else
    request

/- The last request; the constructor asks for balanced. -/
def requestOf
    (inputs : List (ProfileInput × Int32)) :
    SecPowerProfiles :=
  (lastValueOf .setProfile inputs).getD
    SecPowerProfiles.balanced

/- The profile that a value of an input selects. -/
def ProfileInput.select
    (i : ProfileInput)
    (value : Int32)
    (request : SecPowerProfiles) : SecPowerProfiles :=
  match i with
  | .setProfile => value
  | .lowPower =>
      if value ≠ 0 then SecPowerProfiles.powerSave
      else fallback request
  | .sustainedPerformance | .vrMode =>
      if value ≠ 0 then SecPowerProfiles.highPerformance
      else fallback request
  | .interactive =>
      if value ≠ 0 then fallback request
      else SecPowerProfiles.screenOff

/- The profile in force after some inputs. -/
def inForce :
    List (ProfileInput × Int32) → SecPowerProfiles
| [] => SecPowerProfiles.balanced
| (i, value) :: inputs =>
    i.select value (requestOf ((i, value) :: inputs))

end Power

end Universal7420

------------------------------------------------------------
-- Runs
------------------------------------------------------------

namespace Universal7420

namespace Power

open Profiles Utils Fallible

/- Every other input leaves the request alone. -/
theorem requestOf_cons
    (i : ProfileInput)
    (value : Int32)
    (inputs : List (ProfileInput × Int32)) :
    requestOf ((i, value) :: inputs) =
      if i = .setProfile then value
      else requestOf inputs := by
  unfold requestOf lastValueOf
  rw [List.lookup_cons]
  cases i <;> rfl

/- What a call chooses is what its input selects. -/
theorem chosen_of_input
    {s : PowerState}
    {e : PowerEvent}
    {i : ProfileInput}
    {value : Int32}
    (hInput : e.input? = some (i, value))
    (hTurn : OneAtATime s e) :
    s.delayed = [] ∧
      chosen s e =
        some (i.select value s.mRequestedProfile) := by
  cases e with
  | setInteractive interactive =>
      cases hInput
      refine ⟨hTurn.1, ?_⟩
      cases interactive with
      | true =>
          rfl
      | false =>
          simp only [chosen, hTurn.2 rfl]
          rfl
  | powerHint hint data =>
      refine ⟨hTurn, ?_⟩
      cases hint with
      | setProfile | lowPower | sustainedPerformance
      | vrMode =>
          cases hInput
          rfl
      | interaction | launch | vsync | other =>
          cases hInput
  | setFeature feature activate =>
      cases hInput
  | delayedTask index =>
      cases hInput
  | touchkeyTask =>
      cases hInput
  | worldChanges w =>
      cases hInput

theorem chosen_of_no_input
    (s : PowerState)
    {e : PowerEvent}
    (hInput : e.input? = none) :
    chosen s e = none := by
  cases e with
  | powerHint hint data =>
      cases hint with
      | setProfile | lowPower | sustainedPerformance
      | vrMode =>
          cases hInput
      | interaction | launch | vsync | other =>
          rfl
  | setInteractive interactive =>
      cases hInput
  | setFeature feature activate =>
      rfl
  | delayedTask index =>
      rfl
  | touchkeyTask =>
      rfl
  | worldChanges w =>
      rfl

/- The members agree with the inputs so far. -/
structure Agrees
    (s : PowerState)
    (inputs : List (ProfileInput × Int32)) : Prop where
  tracks : Tracks s (inForce inputs)
  request : s.mRequestedProfile = requestOf inputs

/- Only a request changes the request. -/
theorem perform_requestOf
    {s t : PowerState}
    {e : PowerEvent}
    {inputs : List (ProfileInput × Int32)}
    (hRequest : s.mRequestedProfile = requestOf inputs)
    (hStep : perform e s = .ok t) :
    t.mRequestedProfile =
      requestOf (e.input?.toList ++ inputs) := by
  rw [perform_requested hStep]
  cases e with
  | powerHint hint data =>
      cases hint with
      | setProfile =>
          exact (requestOf_cons .setProfile data
            inputs).symm
      | lowPower =>
          exact hRequest.trans
            (requestOf_cons .lowPower data inputs).symm
      | sustainedPerformance =>
          exact hRequest.trans (requestOf_cons
            .sustainedPerformance data inputs).symm
      | vrMode =>
          exact hRequest.trans
            (requestOf_cons .vrMode data inputs).symm
      | interaction | launch | vsync | other =>
          exact hRequest
  | setInteractive interactive =>
      exact hRequest.trans
        (requestOf_cons .interactive _ inputs).symm
  | setFeature feature activate =>
      exact hRequest
  | delayedTask index =>
      exact hRequest
  | touchkeyTask =>
      exact hRequest
  | worldChanges w =>
      exact hRequest

/- Where the request is not read, it does not matter. -/
theorem select_requestOf_cons
    (i : ProfileInput)
    (value : Int32)
    (inputs : List (ProfileInput × Int32)) :
    i.select value (requestOf inputs) =
      inForce ((i, value) :: inputs) := by
  rw [inForce, requestOf_cons]
  cases i <;> rfl

/- Every event keeps the agreement. -/
theorem Agrees.step
    {s t : PowerState}
    {e : PowerEvent}
    {inputs : List (ProfileInput × Int32)}
    (hAgrees : Agrees s inputs)
    (hTurn : OneAtATime s e)
    (hStep : perform e s = .ok t) :
    Agrees t (e.input?.toList ++ inputs) := by
  refine ⟨?_, perform_requestOf hAgrees.request hStep⟩
  cases hInput : e.input? with
  | none =>
      have hNone := chosen_of_no_input s hInput
      have hFresh : NoStaleProfile s e := by
        intro profile hChosen
        rw [hNone] at hChosen
        cases hChosen
      have hTracks := hAgrees.tracks.step hFresh hStep
      rw [hNone] at hTracks
      exact hTracks
  | some input =>
      rcases input with ⟨i, value⟩
      rcases chosen_of_input hInput hTurn with
        ⟨hEmpty, hChosen⟩
      have hFresh : NoStaleProfile s e := by
        intro profile _ pending hPending
        rw [hEmpty] at hPending
        cases hPending
      have hTracks := hAgrees.tracks.step hFresh hStep
      rw [hChosen, hAgrees.request, Option.getD_some,
        select_requestOf_cons] at hTracks
      exact hTracks

theorem latestInputs_cons
    (e : PowerEvent)
    (es : List PowerEvent) :
    latestInputs (e :: es) =
      latestInputs es ++ e.input?.toList := by
  unfold latestInputs
  cases hInput : e.input? with
  | none =>
      rw [List.filterMap_cons_none hInput]
      simp
  | some input =>
      rw [List.filterMap_cons_some hInput]
      simp

/- The agreement holds along every run. -/
theorem Agrees.run
    {s₀ s t : PowerState}
    {es : List PowerEvent}
    {inputs : List (ProfileInput × Int32)}
    (hAgrees : Agrees s inputs)
    (hTurns : (system s₀).Guarded OneAtATime s es)
    (hRun : (system s₀).runFrom s es = some t) :
    Agrees t (latestInputs es ++ inputs) := by
  induction es generalizing s inputs with
  | nil =>
      cases hRun
      exact hAgrees
  | cons e es ih =>
      rcases (system s₀).runFrom_cons_eq_some_iff.mp hRun
        with ⟨s', hFirst, hRest⟩
      have hNext := hAgrees.step hTurns.1
        (system_step_eq_some_iff.mp hFirst)
      have hEnd := ih hNext (hTurns.2 s' hFirst) hRest
      rw [latestInputs_cons, List.append_assoc]
      exact hEnd

/-
  The profile in force after a run of single calls is the one
  that the last input selects.
-/
theorem run_inForce
    {profiles : ProfileName → SecPowerProfile}
    {w : World}
    {s₀ t : PowerState}
    {es : List PowerEvent}
    (hConstruct : construct profiles w = .ok s₀)
    (hTurns : (system s₀).Guarded OneAtATime s₀ es)
    (hRun : (system s₀).run es = some t)
    (hDone : t.delayed = []) :
    t.mCurrentProfile = inForce (latestInputs es) := by
  have hInit : Agrees s₀ [] :=
    ⟨construct_tracks hConstruct,
      congrArg ProfileView.requested
        (construct_view hConstruct)⟩
  have hEnd := hInit.run hTurns hRun
  rw [List.append_nil] at hEnd
  exact hEnd.tracks.inForce hDone

end Power

end Universal7420

------------------------------------------------------------
-- The Last Inputs Decide
------------------------------------------------------------

namespace Universal7420

namespace Power

open Profiles Utils Fallible

/- The input that was set last. -/
def lastInput
    (inputs : List (ProfileInput × Int32)) :
    Option ProfileInput :=
  inputs.head?.map (fun input => input.1)

/- The last values and the last input decide the profile. -/
theorem inForce_eq_of_last
    {inputs inputs' : List (ProfileInput × Int32)}
    (hValues :
      ∀ i, lastValueOf i inputs = lastValueOf i inputs')
    (hLast : lastInput inputs = lastInput inputs') :
    inForce inputs = inForce inputs' := by
  have hRequest : requestOf inputs = requestOf inputs' := by
    unfold requestOf
    rw [hValues .setProfile]
  cases inputs with
  | nil =>
      cases inputs' with
      | nil =>
          rfl
      | cons input' rest' =>
          cases hLast
  | cons input rest =>
      cases inputs' with
      | nil =>
          cases hLast
      | cons input' rest' =>
          rcases input with ⟨i, value⟩
          rcases input' with ⟨i', value'⟩
          have hInput : i = i' := Option.some.inj hLast
          subst hInput
          have hValue := hValues i
          simp only [lastValueOf, List.lookup_cons_self,
            Option.some.injEq] at hValue
          rw [inForce, inForce, hRequest, hValue]

/-
  Two runs of single calls with the same last values, in which
  the same input was set last, end with the same profile.
  After a wake-up that is the last request, or balanced,
  whatever modes are on.
-/
theorem profile_of_last_inputs
    {profiles : ProfileName → SecPowerProfile}
    {w : World}
    {s₀ t t' : PowerState}
    {es es' : List PowerEvent}
    (hConstruct : construct profiles w = .ok s₀)
    (hTurns : (system s₀).Guarded OneAtATime s₀ es)
    (hTurns' : (system s₀).Guarded OneAtATime s₀ es')
    (hRun : (system s₀).run es = some t)
    (hRun' : (system s₀).run es' = some t')
    (hDone : t.delayed = [])
    (hDone' : t'.delayed = [])
    (hValues :
      ∀ i, lastValueOf i (latestInputs es) =
        lastValueOf i (latestInputs es'))
    (hLast :
      lastInput (latestInputs es) =
        lastInput (latestInputs es')) :
    t.mCurrentProfile = t'.mCurrentProfile ∧
      (lastInput (latestInputs es) = some .interactive →
        lastValueOf .interactive (latestInputs es) =
          some 1 →
        t.mCurrentProfile =
          fallback (requestOf (latestInputs es))) := by
  have hFirst := run_inForce hConstruct hTurns hRun hDone
  have hSecond :=
    run_inForce hConstruct hTurns' hRun' hDone'
  constructor
  · rw [hFirst, hSecond]
    exact inForce_eq_of_last hValues hLast
  · intro hInput hAwake
    rw [hFirst]
    cases hLatest : latestInputs es with
    | nil =>
        rw [hLatest] at hInput
        cases hInput
    | cons input rest =>
        rcases input with ⟨i, value⟩
        rw [hLatest] at hInput hAwake
        have hKind : i = .interactive :=
          Option.some.inj hInput
        subst hKind
        simp only [lastValueOf, List.lookup_cons_self,
          Option.some.injEq] at hAwake
        subst hAwake
        rfl

/- Two requests in either order before a wake-up. -/
def wakeLast
    (first second : PowerEvent) : List PowerEvent :=
  [first, second, .setInteractive false,
    .setInteractive true, .delayedTask 0]

theorem profile_of_last_inputs_wake :
    construct bootProfiles bootWorld = .ok bootState ∧
      ∃ t t',
        (system bootState).run
            (wakeLast (.powerHint .lowPower 1)
              (.powerHint .setProfile 2)) = some t ∧
        (system bootState).run
            (wakeLast (.powerHint .setProfile 2)
              (.powerHint .lowPower 1)) = some t' ∧
        t.mCurrentProfile = t'.mCurrentProfile := by
  refine ⟨construct_boot, ?_⟩
  have hEnd :
      ((system bootState).run
          (wakeLast (.powerHint .lowPower 1)
            (.powerHint .setProfile 2))).map
        (fun s => s.delayed) = some [] := by
    decide
  have hEnd' :
      ((system bootState).run
          (wakeLast (.powerHint .setProfile 2)
            (.powerHint .lowPower 1))).map
        (fun s => s.delayed) = some [] := by
    decide
  rcases Option.map_eq_some_iff.mp hEnd with
    ⟨t, hRun, hDone⟩
  rcases Option.map_eq_some_iff.mp hEnd' with
    ⟨t', hRun', hDone'⟩
  refine ⟨t, t', hRun, hRun', ?_⟩
  have hValues :
      ∀ i,
        lastValueOf i (latestInputs
            (wakeLast (.powerHint .lowPower 1)
              (.powerHint .setProfile 2))) =
          lastValueOf i (latestInputs
            (wakeLast (.powerHint .setProfile 2)
              (.powerHint .lowPower 1))) := by
    intro i
    cases i <;> rfl
  exact (profile_of_last_inputs construct_boot (by decide)
    (by decide) hRun hRun' hDone hDone' hValues rfl).1

/-
  Low power before and after a screen cycle: the last values
  are the same, but only the second run ends in power save.
  In the first one low power is still on after the wake-up.
-/
theorem profile_depends_on_order :
    construct bootProfiles bootWorld = .ok bootState ∧
      ∃ es es' t t',
        (system bootState).Guarded OneAtATime
          bootState es ∧
        (system bootState).Guarded OneAtATime
          bootState es' ∧
        (system bootState).run es = some t ∧
        (system bootState).run es' = some t' ∧
        t.delayed = [] ∧ t'.delayed = [] ∧
        (∀ i, lastValueOf i (latestInputs es) =
          lastValueOf i (latestInputs es')) ∧
        lastValueOf .lowPower (latestInputs es) = some 1 ∧
        t.mCurrentProfile = SecPowerProfiles.balanced ∧
        t'.mCurrentProfile =
          SecPowerProfiles.powerSave ∧
        t.mCurrentProfile ≠ t'.mCurrentProfile := by
  refine ⟨construct_boot,
    [.powerHint .lowPower 1, .setInteractive false,
      .setInteractive true, .delayedTask 0],
    [.setInteractive false, .setInteractive true,
      .delayedTask 0, .powerHint .lowPower 1], ?_⟩
  have hEnd :
      ((system bootState).run
          [.powerHint .lowPower 1, .setInteractive false,
            .setInteractive true, .delayedTask 0]).map
        (fun s => (s.delayed, s.mCurrentProfile)) =
      some ([], SecPowerProfiles.balanced) := by
    decide
  have hEnd' :
      ((system bootState).run
          [.setInteractive false, .setInteractive true,
            .delayedTask 0, .powerHint .lowPower 1]).map
        (fun s => (s.delayed, s.mCurrentProfile)) =
      some ([], SecPowerProfiles.powerSave) := by
    decide
  rcases Option.map_eq_some_iff.mp hEnd with
    ⟨t, hRun, hState⟩
  rcases Option.map_eq_some_iff.mp hEnd' with
    ⟨t', hRun', hState'⟩
  simp only [Prod.mk.injEq] at hState hState'
  refine ⟨t, t', by decide, by decide, hRun, hRun',
    hState.1, hState'.1, ?_, rfl, hState.2, hState'.2,
    ?_⟩
  · intro i
    cases i <;> rfl
  · rw [hState.2, hState'.2]
    decide

end Power

end Universal7420
