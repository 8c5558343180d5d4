import Universal7420.Power.ScriptSteps

/-
  Applications of profiles at the same time.

  A call of `setProfile` stores its profile, looks up the data
  of the profile that is stored then, and writes the nodes one
  after the other.  A delayed call does so on a thread of its
  own, without a lock.  Whatever the order of the steps, the
  nodes hold the values of the stored profile in the end if no
  call stores a profile while another one has still to write
  values of a different one.

  Main declarations:
    * `Universal7420.Power.Application`
    * `Universal7420.Power.applySystem`
    * `Universal7420.Power.ProfileApplied`
    * `Universal7420.Power.StoresAlone`
    * `Universal7420.Power.setProfile_of_alone`
    * `Universal7420.Power.stored_profile_applied`
-/

------------------------------------------------------------
-- Steps Of An Application
------------------------------------------------------------

namespace Universal7420

namespace Power

open Profiles Utils

/- How far a call of `setProfile` has come. -/
inductive Application where
| entered (profile : SecPowerProfiles)
| stored
| applying (id : ProfileName) (remaining : List SysfsOp)
| returned
deriving DecidableEq, Repr

/-
  The next step of a call.  Every read and write succeeds; a
  null profile or an overrun ends the service.
-/
def advanceApplication
    (s : PowerState) :
    Application → Option (PowerState × Application)
| .entered profile =>
    some ({ s with mCurrentProfile := profile }, .stored)
| .stored =>
    if isModuleEnabled s.sysfs.world "profiles" then
      match getProfileData s.mCurrentProfile with
      | none => none
      | some id =>
          if (s.profiles id).enabled then
            some (s, .applying id (profileOps (s.profiles id)))
          else
            some (s, .returned)
    else
      some (s, .returned)
| .applying id (op :: ops) =>
    (opStep s.sysfs op).map (fun sysfs =>
      ({ s with sysfs := sysfs }, .applying id ops))
| .applying _ [] => some (s, .returned)
| .returned => none

/- A new call, or a step of one that has been made. -/
inductive ApplyEvent where
| call (profile : SecPowerProfiles)
| advance (index : Nat)
deriving DecidableEq, Repr

/- The service and the calls that have been made. -/
abbrev Applications : Type :=
  PowerState × List Application

def applyStep
    (c : Applications) :
    ApplyEvent → Option Applications
| .call profile => some (c.1, c.2 ++ [.entered profile])
| .advance index =>
    c.2[index]?.bind (fun app =>
      (advanceApplication c.1 app).map (fun next =>
        (next.1, c.2.set index next.2)))

/- Any number of calls, from some state of the service. -/
def applySystem
    (s₀ : PowerState) :
    EventSystem Applications ApplyEvent where
  init := (s₀, [])
  step := applyStep

/-
  Every node that the stored profile sets holds the value that
  the profile sets it to.
-/
def ProfileApplied (s : PowerState) : Prop :=
  ∀ id, getProfileData s.mCurrentProfile = some id →
    (s.profiles id).enabled = true →
    ∀ path text,
      lastSetting (governorOf s.sysfs.world) path
          (profileOps (s.profiles id)) = some text →
        s.sysfs.world.content path = text

/- The profile whose values a call has still to write. -/
def Application.inHand : Application → Option ProfileName
| .applying id (_ :: _) => some id
| .entered _ | .stored | .applying _ [] | .returned => none

/-
  A profile is stored while no call has still to write values
  of a different one, and the user has not disabled profiles.
-/
def Application.MayGoOn
    (c : Applications) :
    Application → Prop
| .entered profile =>
    ∀ app ∈ c.2,
      app.inHand = none ∨
        app.inHand = getProfileData profile
| .stored =>
    isModuleEnabled c.1.sysfs.world "profiles" = true
| .applying _ _ | .returned => True

instance decidableMayGoOn
    (c : Applications) :
    (app : Application) → Decidable (app.MayGoOn c)
| .entered profile =>
    inferInstanceAs (Decidable (∀ app ∈ c.2,
      app.inHand = none ∨
        app.inHand = getProfileData profile))
| .stored =>
    inferInstanceAs (Decidable
      (isModuleEnabled c.1.sysfs.world "profiles" = true))
| .applying _ _ => isTrue trivial
| .returned => isTrue trivial

def StoresAlone
    (c : Applications) :
    ApplyEvent → Prop
| .call _ => True
| .advance index =>
    ∀ app ∈ c.2[index]?, app.MayGoOn c

instance decidableStoresAlone
    (c : Applications) :
    (e : ApplyEvent) → Decidable (StoresAlone c e)
| .call _ => isTrue trivial
| .advance index =>
    inferInstanceAs (Decidable
      (∀ app ∈ c.2[index]?, app.MayGoOn c))

end Power

end Universal7420

------------------------------------------------------------
-- What A Step Can Do
------------------------------------------------------------

namespace Universal7420

namespace Power

open Profiles Utils

inductive ApplyTransition
    (s : PowerState)
    (apps : List Application) :
    ApplyEvent → Applications → Prop where
| called
    {profile : SecPowerProfiles} :
    ApplyTransition s apps (.call profile)
      (s, apps ++ [.entered profile])
| stored
    {index : Nat}
    {profile : SecPowerProfiles}
    (hApp : apps[index]? = some (.entered profile)) :
    ApplyTransition s apps (.advance index)
      ({ s with mCurrentProfile := profile },
        apps.set index .stored)
| disabled
    {index : Nat}
    (hApp : apps[index]? = some .stored)
    (hModule :
      isModuleEnabled s.sysfs.world "profiles" = false) :
    ApplyTransition s apps (.advance index)
      (s, apps.set index .returned)
| lookedUp
    {index : Nat}
    {id : ProfileName}
    (hApp : apps[index]? = some .stored)
    (hModule :
      isModuleEnabled s.sysfs.world "profiles" = true)
    (hData : getProfileData s.mCurrentProfile = some id)
    (hEnabled : (s.profiles id).enabled = true) :
    ApplyTransition s apps (.advance index)
      (s, apps.set index
        (.applying id (profileOps (s.profiles id))))
| off
    {index : Nat}
    {id : ProfileName}
    (hApp : apps[index]? = some .stored)
    (hModule :
      isModuleEnabled s.sysfs.world "profiles" = true)
    (hData : getProfileData s.mCurrentProfile = some id)
    (hOff : (s.profiles id).enabled = false) :
    ApplyTransition s apps (.advance index)
      (s, apps.set index .returned)
| executed
    {index : Nat}
    {id : ProfileName}
    {op : SysfsOp}
    {ops : List SysfsOp}
    {sysfs : Sysfs}
    (hApp : apps[index]? = some (.applying id (op :: ops)))
    (hOp : opStep s.sysfs op = some sysfs) :
    ApplyTransition s apps (.advance index)
      ({ s with sysfs := sysfs },
        apps.set index (.applying id ops))
| finished
    {index : Nat}
    {id : ProfileName}
    (hApp : apps[index]? = some (.applying id [])) :
    ApplyTransition s apps (.advance index)
      (s, apps.set index .returned)

/- Every step is one of the transitions. -/
theorem applyStep_transition
    {s : PowerState}
    {apps : List Application}
    {e : ApplyEvent}
    {c : Applications}
    (hStep : applyStep (s, apps) e = some c) :
    ApplyTransition s apps e c := by
  cases e with
  | call profile =>
      cases hStep
      exact .called
  | advance index =>
      rcases Option.bind_eq_some_iff.mp hStep with
        ⟨app, hApp, hNext⟩
      rcases Option.map_eq_some_iff.mp hNext with
        ⟨next, hAdvance, rfl⟩
      cases app with
      | entered profile =>
          cases hAdvance
          exact .stored hApp
      | stored =>
          simp only [advanceApplication] at hAdvance
          split at hAdvance
          · rename_i hModule
            split at hAdvance
            · cases hAdvance
            · rename_i id hData
              split at hAdvance
              · rename_i hEnabled
                cases hAdvance
                exact .lookedUp hApp hModule hData hEnabled
              · rename_i hOff
                cases hAdvance
                exact .off hApp hModule hData
                  (by simpa using hOff)
          · rename_i hModule
            cases hAdvance
            exact .disabled hApp (by simpa using hModule)
      | applying id ops =>
          cases ops with
          | nil =>
              cases hAdvance
              exact .finished hApp
          | cons op ops =>
              rcases Option.map_eq_some_iff.mp hAdvance with
                ⟨sysfs, hOp, rfl⟩
              exact .executed hApp hOp
      | returned =>
          cases hAdvance

end Power

end Universal7420

------------------------------------------------------------
-- A Call On Its Own
------------------------------------------------------------

namespace Universal7420

namespace Power

open Profiles Utils

/- Nothing happens after the only call has returned. -/
theorem run_returned
    {s₀ s s' : PowerState}
    {apps : List Application}
    {es : List ApplyEvent}
    (hEvents : ∀ e ∈ es, e = .advance 0)
    (hRun :
      (applySystem s₀).runFrom (s, [.returned]) es =
        some (s', apps)) :
    s' = s := by
  cases es with
  | nil =>
      cases hRun
      rfl
  | cons e es =>
      have hFirst := hEvents e (by simp)
      subst hFirst
      cases hRun

/- The writes of a call on its own are those of its script. -/
theorem runOps_of_alone
    {s₀ s s' : PowerState}
    {id : ProfileName}
    {ops : List SysfsOp}
    {es : List ApplyEvent}
    (hEvents : ∀ e ∈ es, e = .advance 0)
    (hRun :
      (applySystem s₀).runFrom (s, [.applying id ops]) es =
        some (s', [.returned])) :
    ∃ sysfs, runOps ops s.sysfs = .ok sysfs ∧
      s' = { s with sysfs := sysfs } := by
  induction es generalizing s ops with
  | nil =>
      cases hRun
  | cons e es ih =>
      have hFirst := hEvents e (by simp)
      subst hFirst
      have hRest : ∀ e ∈ es, e = .advance 0 := by
        intro e hMem
        exact hEvents e (List.mem_cons_of_mem _ hMem)
      rcases EventSystem.runFrom_cons_eq_some_iff _ |>.mp hRun
        with ⟨next, hStep, hRun⟩
      change applyStep (s, [.applying id ops]) (.advance 0) =
        some next at hStep
      cases applyStep_transition hStep with
      | stored hApp =>
          cases hApp
      | disabled hApp hModule =>
          cases hApp
      | lookedUp hApp hModule hData hEnabled =>
          cases hApp
      | off hApp hModule hData hOff =>
          cases hApp
      | executed hApp hOp =>
          cases hApp
          rcases ih hRest hRun with ⟨sysfs, hOps, hState⟩
          refine ⟨sysfs, ?_, hState⟩
          rw [runOps_of_opStep hOp]
          exact hOps
      | finished hApp =>
          exact ⟨s.sysfs, by cases hApp; rfl,
            run_returned hRest hRun⟩

/- After the store a call looks the profile up and applies it. -/
theorem applyProfile_of_alone
    {s₀ s s' : PowerState}
    {es : List ApplyEvent}
    (hEvents : ∀ e ∈ es, e = .advance 0)
    (hRun :
      (applySystem s₀).runFrom (s, [.stored]) es =
        some (s', [.returned])) :
    applyProfile s = .ok s' := by
  cases es with
  | nil =>
      cases hRun
  | cons e es =>
      have hFirst := hEvents e (by simp)
      subst hFirst
      have hRest : ∀ e ∈ es, e = .advance 0 := by
        intro e hMem
        exact hEvents e (List.mem_cons_of_mem _ hMem)
      rcases EventSystem.runFrom_cons_eq_some_iff _ |>.mp hRun
        with ⟨next, hStep, hRun⟩
      change applyStep (s, [.stored]) (.advance 0) =
        some next at hStep
      unfold applyProfile
      cases applyStep_transition hStep with
      | stored hApp =>
          cases hApp
      | disabled hApp hModule =>
          rw [hModule, run_returned hRest hRun]
          rfl
      | lookedUp hApp hModule hData hEnabled =>
          rcases runOps_of_alone hRest hRun with
            ⟨sysfs, hOps, hState⟩
          rw [hState]
          simp only [hModule, hData, hEnabled, hOps, if_true]
          rfl
      | off hApp hModule hData hOff =>
          rw [run_returned hRest hRun]
          simp only [hModule, hData, hOff, if_true]
          rfl
      | executed hApp hOp =>
          cases hApp
      | finished hApp =>
          cases hApp

/- A call on its own does what `setProfile` does. -/
theorem setProfile_of_alone
    {s s' : PowerState}
    {profile : SecPowerProfiles}
    {es : List ApplyEvent}
    (hEvents : ∀ e ∈ es, e = .advance 0)
    (hRun :
      (applySystem s).run (.call profile :: es) =
        some (s', [.returned])) :
    setProfile profile s = .ok s' := by
  cases es with
  | nil =>
      cases hRun
  | cons e es =>
      have hFirst := hEvents e (by simp)
      subst hFirst
      have hRest : ∀ e ∈ es, e = .advance 0 := by
        intro e hMem
        exact hEvents e (List.mem_cons_of_mem _ hMem)
      exact applyProfile_of_alone hRest hRun

end Power

end Universal7420

------------------------------------------------------------
-- The Invariant
------------------------------------------------------------

namespace Universal7420

namespace Power

open Profiles Utils

/-
  A call that still writes does so for the stored profile, in
  the order of its script.
-/
def Application.Fits
    (s : PowerState) :
    Application → Prop
| .applying id ops =>
    (ops ≠ [] →
      getProfileData s.mCurrentProfile = some id) ∧
    ops <:+ profileOps (s.profiles id) ∧
    Prepared
      (Settled (profileOps (s.profiles id)) s.sysfs.world)
      (Known (profileOps (s.profiles id)) s.sysfs) ops
| .entered _ | .stored | .returned => True

/- A call that has stored its profile. -/
def Application.hasStored : Application → Bool
| .entered _ => false
| .stored | .applying _ _ | .returned => true

/- A call that is going to set a node. -/
def Application.sets
    (governor : Nat → String)
    (path : String) :
    Application → Bool
| .stored => true
| .applying _ ops =>
    (lastSetting governor path ops).isSome
| .entered _ | .returned => false

/-
  Each node that the stored profile sets holds its value, or
  some call is going to set it.
-/
def Covered (c : Applications) : Prop :=
  ∀ id, getProfileData c.1.mCurrentProfile = some id →
    (c.1.profiles id).enabled = true →
    ∀ path text,
      lastSetting
          (goal (profileOps (c.1.profiles id))
            c.1.sysfs.world) path
          (profileOps (c.1.profiles id)) = some text →
        c.1.sysfs.world.content path = text ∨
          ∃ app ∈ c.2,
            app.sets
              (goal (profileOps (c.1.profiles id))
                c.1.sysfs.world) path = true

structure InStep (c : Applications) : Prop where
  fits : ∀ app ∈ c.2, app.Fits c.1
  covered :
    (∃ app ∈ c.2, app.hasStored = true) → Covered c

theorem inStep_start
    (s : PowerState) :
    InStep (s, []) where
  fits := by
    intro app hMem
    cases hMem
  covered := by
    rintro ⟨app, hMem, _⟩
    cases hMem

/- Another call stays where it is when one of them moves. -/
theorem mem_set_or_eq
    {apps : List Application}
    {index : Nat}
    {old app : Application}
    (hOld : apps[index]? = some old)
    (hMem : app ∈ apps)
    (new : Application) :
    app = old ∨ app ∈ apps.set index new := by
  rcases List.mem_iff_getElem?.mp hMem with ⟨place, hPlace⟩
  by_cases hSame : index = place
  · left
    rw [← hSame, hOld] at hPlace
    exact (Option.some.inj hPlace).symm
  · right
    apply List.mem_iff_getElem?.mpr
    refine ⟨place, ?_⟩
    rw [List.getElem?_set_ne hSame]
    exact hPlace

theorem mem_set_self
    {apps : List Application}
    {index : Nat}
    {old : Application}
    (hOld : apps[index]? = some old)
    (new : Application) :
    new ∈ apps.set index new := by
  rcases List.getElem?_eq_some_iff.mp hOld with ⟨hIndex, _⟩
  exact List.mem_set hIndex new

/- In the end the governors are those of the nodes. -/
theorem goal_eq_governorOf
    {ops : List SysfsOp}
    {w : World}
    (hContent :
      ∀ path text,
        lastSetting (goal ops w) path ops = some text →
          w.content path = text) :
    goal ops w = governorOf w := by
  funext core
  cases hNamed : namedGovernor ops core with
  | none =>
      rw [goal, hNamed]
  | some text =>
      have hNode := hContent (governorNode core) text
        ((lastSetting_governorNode _ _ _).trans hNamed)
      rw [goal, hNamed, governorOf, hNode]

/- When all calls have returned, the profile is applied. -/
theorem InStep.applied
    {s : PowerState}
    {apps : List Application}
    (hInv : InStep (s, apps))
    (hSome : apps ≠ [])
    (hReturned : ∀ app ∈ apps, app = .returned) :
    ProfileApplied s := by
  rcases List.exists_mem_of_ne_nil apps hSome with
    ⟨app, hMem⟩
  have hStored : app.hasStored = true := by
    rw [hReturned app hMem]
    rfl
  have hCovered := hInv.covered ⟨app, hMem, hStored⟩
  intro id hId hEnabled
  have hContent :
      ∀ path text,
        lastSetting
            (goal (profileOps (s.profiles id))
              s.sysfs.world) path
            (profileOps (s.profiles id)) = some text →
          s.sysfs.world.content path = text := by
    intro path text hLast
    rcases hCovered id hId hEnabled path text hLast with
      hHolds | ⟨other, hOther, hSets⟩
    · exact hHolds
    · rw [hReturned other hOther] at hSets
      cases hSets
  rw [← goal_eq_governorOf hContent]
  exact hContent

end Power

end Universal7420

------------------------------------------------------------
-- Steps
------------------------------------------------------------

namespace Universal7420

namespace Power

open Profiles Utils

/- A step that leaves the service alone. -/
theorem InStep.replace
    {s : PowerState}
    {apps : List Application}
    {index : Nat}
    {old new : Application}
    (hInv : InStep (s, apps))
    (hOld : apps[index]? = some old)
    (hFits : new.Fits s)
    (hStored : old.hasStored = true)
    (hSets :
      ∀ id, getProfileData s.mCurrentProfile = some id →
        (s.profiles id).enabled = true →
        ∀ path,
          (lastSetting
            (goal (profileOps (s.profiles id)) s.sysfs.world)
            path (profileOps (s.profiles id))).isSome →
          old.sets
            (goal (profileOps (s.profiles id)) s.sysfs.world)
            path = true →
          new.sets
            (goal (profileOps (s.profiles id)) s.sysfs.world)
            path = true) :
    InStep (s, apps.set index new) := by
  refine ⟨?_, ?_⟩
  · intro app hMem
    rcases List.mem_or_eq_of_mem_set hMem with hKept | hNew
    · exact hInv.fits app hKept
    · rw [hNew]
      exact hFits
  · intro _ id hId hEnabled path text hLast
    have hBefore := hInv.covered
      ⟨old, List.mem_of_getElem? hOld, hStored⟩
    rcases hBefore id hId hEnabled path text hLast with
      hHolds | ⟨app, hMem, hApp⟩
    · exact Or.inl hHolds
    · right
      rcases mem_set_or_eq hOld hMem new with hSame | hKept
      · rw [hSame] at hApp
        refine ⟨new, mem_set_self hOld new, ?_⟩
        refine hSets id hId hEnabled path ?_ hApp
        change lastSetting _ _ _ = _ at hLast
        rw [hLast]
        rfl
      · exact ⟨app, hKept, hApp⟩

/- A profile is stored, and will be looked up. -/
theorem InStep.store
    {s : PowerState}
    {apps : List Application}
    {index : Nat}
    {profile : SecPowerProfiles}
    (hInv : InStep (s, apps))
    (hApp : apps[index]? = some (.entered profile))
    (hAlone :
      ∀ app ∈ apps,
        app.inHand = none ∨
          app.inHand = getProfileData profile) :
    InStep
      ({ s with mCurrentProfile := profile },
        apps.set index .stored) := by
  refine ⟨?_, ?_⟩
  · intro app hMem
    rcases List.mem_or_eq_of_mem_set hMem with hKept | hNew
    · have hFits := hInv.fits app hKept
      cases app with
      | applying id ops =>
          refine ⟨?_, hFits.2⟩
          intro hMore
          cases ops with
          | nil =>
              exact absurd rfl hMore
          | cons op ops =>
              rcases hAlone _ hKept with hNone | hSame
              · cases hNone
              · exact hSame.symm
      | _ =>
          trivial
    · rw [hNew]
      trivial
  · intro _ id _ _ path text _
    right
    exact ⟨.stored, mem_set_self hApp .stored, rfl⟩

/- A call can go on after a write for the stored profile. -/
theorem Application.Fits.after
    {s : PowerState}
    {id : ProfileName}
    {op : SysfsOp}
    {sysfs : Sysfs}
    {app : Application}
    (hFits : app.Fits s)
    (hId : getProfileData s.mCurrentProfile = some id)
    (hScript :
      ScriptStep (profileOps (s.profiles id)) s.sysfs sysfs
        op) :
    app.Fits { s with sysfs := sysfs } := by
  cases app with
  | applying other rest =>
      refine ⟨hFits.1, hFits.2.1, ?_⟩
      cases rest with
      | nil =>
          trivial
      | cons next rest =>
          have hOther := hFits.1 (by simp)
          rw [hId] at hOther
          cases hOther
          exact hFits.2.2.mono hScript.settled hScript.known
  | _ =>
      trivial

/- The nodes stay covered by such a write. -/
theorem Covered.after
    {s : PowerState}
    {apps : List Application}
    {index : Nat}
    {id : ProfileName}
    {op : SysfsOp}
    {ops : List SysfsOp}
    {sysfs : Sysfs}
    (hCovered : Covered (s, apps))
    (hApp : apps[index]? = some (.applying id (op :: ops)))
    (hId : getProfileData s.mCurrentProfile = some id)
    (hSuffix : op :: ops <:+ profileOps (s.profiles id))
    (hScript :
      ScriptStep (profileOps (s.profiles id)) s.sysfs sysfs
        op) :
    Covered
      ({ s with sysfs := sysfs },
        apps.set index (.applying id ops)) := by
  intro other hOther hEnabled path text hLast
  change getProfileData s.mCurrentProfile = _ at hOther
  rw [hId] at hOther
  cases hOther
  change lastSetting
    (goal (profileOps (s.profiles id)) sysfs.world) path
    (profileOps (s.profiles id)) = some text at hLast
  change sysfs.world.content path = text ∨
    ∃ app ∈ apps.set index (.applying id ops),
      app.sets
        (goal (profileOps (s.profiles id)) sysfs.world)
        path = true
  rw [hScript.goal] at hLast ⊢
  rcases settles_of_scriptStep hScript hSuffix hLast with
    hHolds | hLater | ⟨hSame, hNone⟩
  · exact Or.inl hHolds
  · exact Or.inr ⟨_, mem_set_self hApp _, hLater⟩
  · rw [hSame]
    rcases hCovered id hId hEnabled path text hLast with
      hHolds | ⟨app, hMem, hSets⟩
    · exact Or.inl hHolds
    · right
      rcases mem_set_or_eq hApp hMem (.applying id ops) with
        hMoved | hKept
      · rw [hMoved] at hSets
        simp only [Application.sets, hNone] at hSets
        cases hSets
      · exact ⟨app, hKept, hSets⟩

/- A node is written for the stored profile. -/
theorem InStep.execute
    {s : PowerState}
    {apps : List Application}
    {index : Nat}
    {id : ProfileName}
    {op : SysfsOp}
    {ops : List SysfsOp}
    {sysfs : Sysfs}
    (hInv : InStep (s, apps))
    (hApp : apps[index]? = some (.applying id (op :: ops)))
    (hOp : opStep s.sysfs op = some sysfs) :
    InStep
      ({ s with sysfs := sysfs },
        apps.set index (.applying id ops)) := by
  have hMem := List.mem_of_getElem? hApp
  have hOrder := profileOps_wellOrdered (s.profiles id)
  rcases hInv.fits _ hMem with
    ⟨hCurrent, hSuffix, hPrepared⟩
  have hId := hCurrent (by simp)
  have hIn : op ∈ profileOps (s.profiles id) :=
    hSuffix.subset (by simp)
  have hScript := hOrder.step hIn hPrepared hOp
  refine ⟨?_, ?_⟩
  · intro app hApps
    rcases List.mem_or_eq_of_mem_set hApps with
      hKept | hNew
    · exact (hInv.fits app hKept).after hId hScript
    · rw [hNew]
      refine ⟨fun _ => hId, ?_, ?_⟩
      · exact (List.suffix_cons op ops).trans hSuffix
      · exact hScript.prepared hOrder hIn hPrepared hOp
  · intro _
    have hCovered := hInv.covered ⟨_, hMem, rfl⟩
    exact hCovered.after hApp hId hSuffix hScript

/- A new call has done nothing yet. -/
theorem InStep.call
    {s : PowerState}
    {apps : List Application}
    (hInv : InStep (s, apps))
    (profile : SecPowerProfiles) :
    InStep (s, apps ++ [.entered profile]) := by
  refine ⟨?_, ?_⟩
  · intro app hMem
    rcases List.mem_append.mp hMem with hOld | hNew
    · exact hInv.fits app hOld
    · rw [List.mem_singleton.mp hNew]
      trivial
  · rintro ⟨app, hMem, hStored⟩ id hId hEnabled path text
      hLast
    have hOld : app ∈ apps := by
      rcases List.mem_append.mp hMem with hOld | hNew
      · exact hOld
      · rw [List.mem_singleton.mp hNew] at hStored
        cases hStored
    have hCovered := hInv.covered ⟨app, hOld, hStored⟩
    rcases hCovered id hId hEnabled path text hLast with
      hHolds | ⟨other, hOther, hSets⟩
    · exact Or.inl hHolds
    · exact Or.inr
        ⟨other, List.mem_append_left _ hOther, hSets⟩

/- Every step that stores alone keeps the calls in step. -/
theorem InStep.step
    {c c' : Applications}
    {e : ApplyEvent}
    (hInv : InStep c)
    (hAlone : StoresAlone c e)
    (hStep : applyStep c e = some c') :
    InStep c' := by
  rcases c with ⟨s, apps⟩
  cases applyStep_transition hStep with
  | called =>
      exact hInv.call _
  | stored hApp =>
      exact hInv.store hApp (hAlone _ hApp)
  | disabled hApp hModule =>
      have hOn := hAlone _ hApp
      rw [Application.MayGoOn, hModule] at hOn
      cases hOn
  | lookedUp hApp hModule hData hEnabled =>
      rename_i index id
      refine hInv.replace hApp ?_ rfl ?_
      · refine ⟨fun _ => hData, List.suffix_rfl, ?_⟩
        exact (profileOps_wellOrdered _).start s.sysfs
      · intro other hOther _ path hSome _
        rw [hData] at hOther
        cases hOther
        exact hSome
  | off hApp hModule hData hOff =>
      refine hInv.replace hApp trivial rfl ?_
      intro other hOther hEnabled
      rw [hData] at hOther
      cases hOther
      rw [hOff] at hEnabled
      cases hEnabled
  | executed hApp hOp =>
      exact hInv.execute hApp hOp
  | finished hApp =>
      refine hInv.replace hApp trivial rfl ?_
      intro other _ _ path _ hSets
      cases hSets

/-
  In every run in which profiles are stored alone, once all
  calls have returned, the stored profile is the applied one.
-/
theorem stored_profile_applied
    {s₀ s : PowerState}
    {apps : List Application}
    {es : List ApplyEvent}
    (hAlone :
      (applySystem s₀).Guarded StoresAlone (s₀, []) es)
    (hRun : (applySystem s₀).run es = some (s, apps))
    (hSome : apps ≠ [])
    (hReturned : ∀ app ∈ apps, app = .returned) :
    ProfileApplied s := by
  have hStep :
      ∀ c e c', InStep c → StoresAlone c e →
        (applySystem s₀).step c e = some c' →
        InStep c' := by
    intro c e c' hInv hGuard hNext
    exact hInv.step hGuard hNext
  have hEnd : InStep (s, apps) :=
    (applySystem s₀).invariant_of_guarded hStep
      (inStep_start s₀) hAlone hRun
  exact hEnd.applied hSome hReturned

/- Profiles that differ in the boost of the scheduler. -/
def boostProfiles : ProfileName → SecPowerProfile :=
  fun id =>
    { SecPowerProfile.zero with
      switches := fun s =>
        ⟨decide (s = .profile ∨ s = .ofSection .hmp), true⟩
      leaves := fun l =>
        match l with
        | .boost => ⟨decide (id = .performance), true⟩
        | l => ⟨l.kind.zero, false⟩ }

def boostState : PowerState :=
  { bootState with profiles := boostProfiles }

/- All writes of a call and its return. -/
def writesOf (index : Nat) : List ApplyEvent :=
  List.replicate 5 (.advance index)

/- Two calls for one profile at the same time. -/
def sharedRun : List ApplyEvent :=
  [ .call SecPowerProfiles.highPerformance
  , .advance 0, .advance 0
  , .call SecPowerProfiles.highPerformance
  , .advance 1, .advance 1 ] ++
    writesOf 1 ++ writesOf 0

theorem stored_profile_applied_sharedRun :
    ∃ s,
      (applySystem boostState).run sharedRun =
        some (s, [.returned, .returned]) ∧
      s.mCurrentProfile = SecPowerProfiles.highPerformance ∧
      ProfileApplied s := by
  have hAlone :
      (applySystem boostState).Guarded StoresAlone
        (boostState, []) sharedRun := by
    decide
  have hReturned :
      ∀ app ∈ [Application.returned, Application.returned],
        app = .returned := by
    simp
  refine ⟨_, rfl, rfl, ?_⟩
  exact stored_profile_applied hAlone rfl
    (List.cons_ne_nil _ _) hReturned

/-
  A delayed call has looked up its profile when a call of the
  service stores and applies another one, and writes the old
  values over the new ones.
-/
theorem profiles_mixed :
    ∃ s,
      (applySystem boostState).run
          ([ .call SecPowerProfiles.balanced
           , .advance 0, .advance 0
           , .call SecPowerProfiles.highPerformance
           , .advance 1, .advance 1 ] ++
            writesOf 1 ++ writesOf 0) =
        some (s, [.returned, .returned]) ∧
      s.mCurrentProfile = SecPowerProfiles.highPerformance ∧
      s.sysfs.world.content "/sys/kernel/hmp/boost" = "0" ∧
      ¬ ProfileApplied s := by
  refine ⟨_, rfl, rfl, rfl, ?_⟩
  intro hApplied
  have hBoost := hApplied .performance rfl rfl
    "/sys/kernel/hmp/boost" "1" (by decide)
  exact absurd hBoost (by decide)

end Power

end Universal7420
