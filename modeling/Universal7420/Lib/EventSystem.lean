import Mathlib.Data.List.Basic

/-
  Finite runs of partial event-driven systems.

  A system consumes events one at a time.  An event that is
  not enabled, or that ends the program, has no successor.
  A guard is a condition on a step: it may look at the state
  before the step and at the event, and it is imposed on
  every step that the run really makes.

  Main declarations:
    * `EventSystem.runFrom`
    * `EventSystem.ReachesBy`
    * `EventSystem.Guarded`
    * `EventSystem.withGhost`
    * `EventSystem.restrict`
    * `EventSystem.invariant_of_guarded`
    * `EventSystem.history_of_guarded`
    * `EventSystem.guarded_iff_guarded`
    * `EventSystem.forall_prefix_iff_guarded`
    * `EventSystem.exists_idle_prefix`
    * `EventSystem.runFrom_simulated`
-/

------------------------------------------------------------
-- Runs
------------------------------------------------------------

/- An initial state and a partial step function. -/
structure EventSystem
    (S E : Type) where
  init : S
  step : S → E → Option S

namespace EventSystem

variable {S E : Type}
variable (sys : EventSystem S E)

/- Run a list of events from a given state. -/
def runFrom
    (s : S)
    (es : List E) : Option S :=
  es.foldlM sys.step s

/- Run a list of events from the initial state. -/
def run
    (es : List E) : Option S :=
  sys.runFrom sys.init es

@[simp] theorem runFrom_nil
    (s : S) :
    sys.runFrom s [] = some s :=
  rfl

theorem runFrom_cons
    (s : S)
    (e : E)
    (es : List E) :
    sys.runFrom s (e :: es) =
      (sys.step s e).bind
        (fun s' => sys.runFrom s' es) :=
  rfl

/- A nonempty run makes one step and then runs the rest. -/
theorem runFrom_cons_eq_some_iff
    {s t : S}
    {e : E}
    {es : List E} :
    sys.runFrom s (e :: es) = some t ↔
      ∃ s', sys.step s e = some s' ∧
        sys.runFrom s' es = some t := by
  rw [runFrom_cons, Option.bind_eq_some_iff]

/- A run of two parts goes through a middle state. -/
theorem runFrom_append_eq_some_iff
    {s t : S}
    {es fs : List E} :
    sys.runFrom s (es ++ fs) = some t ↔
      ∃ s', sys.runFrom s es = some s' ∧
        sys.runFrom s' fs = some t := by
  induction es generalizing s with
  | nil =>
      simp
  | cons e es ih =>
      simp only [List.cons_append,
        runFrom_cons_eq_some_iff, ih]
      constructor
      · rintro ⟨s₁, hStep, s₂, hRun, hRest⟩
        exact ⟨s₂, ⟨s₁, hStep, hRun⟩, hRest⟩
      · rintro ⟨s₂, ⟨s₁, hStep, hRun⟩, hRest⟩
        exact ⟨s₁, hStep, s₂, hRun, hRest⟩

/- A system that is never stuck runs all events. -/
theorem exists_runFrom_of_total
    (hTotal : ∀ s e, ∃ s', sys.step s e = some s')
    (s : S)
    (es : List E) :
    ∃ t, sys.runFrom s es = some t := by
  induction es generalizing s with
  | nil =>
      exact ⟨s, rfl⟩
  | cons e es ih =>
      rcases hTotal s e with ⟨s', hStep⟩
      rcases ih s' with ⟨t, hRest⟩
      exact ⟨t, sys.runFrom_cons_eq_some_iff.mpr
        ⟨s', hStep, hRest⟩⟩

/- Events of one kind lead from one state to another. -/
def ReachesBy
    (kind : E → Prop)
    (s t : S) : Prop :=
  ∃ es, (∀ e ∈ es, kind e) ∧ sys.runFrom s es = some t

theorem ReachesBy.refl
    (kind : E → Prop)
    (s : S) :
    sys.ReachesBy kind s s :=
  ⟨[], by simp, rfl⟩

theorem ReachesBy.head
    {sys : EventSystem S E}
    {kind : E → Prop}
    {s s' t : S}
    {e : E}
    (hRest : sys.ReachesBy kind s' t)
    (hStep : sys.step s e = some s')
    (hKind : kind e) :
    sys.ReachesBy kind s t := by
  rcases hRest with ⟨es, hKinds, hRun⟩
  refine ⟨e :: es, ?_, ?_⟩
  · intro e' he'
    rcases List.mem_cons.mp he' with hHead | hTail
    · rw [hHead]
      exact hKind
    · exact hKinds e' hTail
  · exact sys.runFrom_cons_eq_some_iff.mpr
      ⟨s', hStep, hRun⟩

end EventSystem

------------------------------------------------------------
-- Guarded Runs
------------------------------------------------------------

namespace EventSystem

variable {S E : Type}
variable (sys : EventSystem S E)

/- Every step that the run makes meets the guard. -/
def Guarded
    (G : S → E → Prop) :
    S → List E → Prop
| _, [] => True
| s, e :: es =>
    G s e ∧
      ∀ s', sys.step s e = some s' →
        Guarded G s' es

/- A guard that can be decided, can be along a run. -/
instance decidableGuarded
    (G : S → E → Prop)
    [∀ s e, Decidable (G s e)] :
    ∀ s es, Decidable (sys.Guarded G s es)
| _, [] => isTrue trivial
| s, e :: es =>
    match hStep : sys.step s e with
    | none =>
        decidable_of_iff (G s e) (by simp [Guarded, hStep])
    | some s' =>
        have := decidableGuarded G s' es
        decidable_of_iff (G s e ∧ sys.Guarded G s' es)
          (by simp [Guarded, hStep])

/- A guard that holds in every state does not restrict. -/
theorem guarded_of_forall
    {G : S → E → Prop}
    {es : List E}
    (hGuard : ∀ e ∈ es, ∀ s, G s e)
    (s : S) :
    sys.Guarded G s es := by
  induction es generalizing s with
  | nil =>
      trivial
  | cons e es ih =>
      refine ⟨hGuard e (by simp) s, fun s' _ => ?_⟩
      apply ih
      intro e' he'
      exact hGuard e' (by simp [he'])

/- An invariant kept by guarded steps holds at the end. -/
theorem invariant_of_guarded
    {G : S → E → Prop}
    {Inv : S → Prop}
    (hStep :
      ∀ s e s', Inv s → G s e →
        sys.step s e = some s' → Inv s')
    {s t : S}
    {es : List E}
    (hInv : Inv s)
    (hGuard : sys.Guarded G s es)
    (hRun : sys.runFrom s es = some t) :
    Inv t := by
  induction es generalizing s with
  | nil =>
      cases hRun
      exact hInv
  | cons e es ih =>
      rcases sys.runFrom_cons_eq_some_iff.mp hRun with
        ⟨s', hFirst, hRest⟩
      exact ih (hStep s e s' hInv hGuard.1 hFirst)
        (hGuard.2 s' hFirst) hRest

/-
  An invariant about the events that led to a state, along the
  rest of a run.
-/
theorem history_from
    {G : S → E → Prop}
    {Inv : List E → S → Prop}
    (hStep :
      ∀ before s e s', Inv before s → G s e →
        sys.step s e = some s' → Inv (before ++ [e]) s')
    {s t : S}
    {before es : List E}
    (hInv : Inv before s)
    (hGuard : sys.Guarded G s es)
    (hRun : sys.runFrom s es = some t) :
    Inv (before ++ es) t := by
  induction es generalizing before s with
  | nil =>
      cases hRun
      rwa [List.append_nil]
  | cons e es ih =>
      rcases sys.runFrom_cons_eq_some_iff.mp hRun with
        ⟨s', hFirst, hRest⟩
      have hAll :=
        ih (hStep before s e s' hInv hGuard.1 hFirst)
          (hGuard.2 s' hFirst) hRest
      rwa [List.append_assoc, List.singleton_append] at hAll

/- Such an invariant, kept by guarded steps. -/
theorem history_of_guarded
    {G : S → E → Prop}
    {Inv : List E → S → Prop}
    (hStep :
      ∀ before s e s', Inv before s → G s e →
        sys.step s e = some s' → Inv (before ++ [e]) s')
    {t : S}
    {es : List E}
    (hInv : Inv [] sys.init)
    (hGuard : sys.Guarded G sys.init es)
    (hRun : sys.run es = some t) :
    Inv es t :=
  sys.history_from hStep hInv hGuard hRun

/- Such an invariant, kept by every step. -/
theorem history_of_step
    {Inv : List E → S → Prop}
    (hStep :
      ∀ before s e s', Inv before s →
        sys.step s e = some s' → Inv (before ++ [e]) s')
    {t : S}
    {es : List E}
    (hInv : Inv [] sys.init)
    (hRun : sys.run es = some t) :
    Inv es t :=
  sys.history_of_guarded
    (fun before s e s' hBefore _ =>
      hStep before s e s' hBefore)
    hInv
    (sys.guarded_of_forall (fun _ _ _ => trivial) sys.init)
    hRun

/- The guard holds wherever the run makes a step. -/
theorem guard_of_guarded
    {G : S → E → Prop}
    {s t : S}
    {e : E}
    {pre es : List E}
    (hGuard : sys.Guarded G s es)
    (hPrefix : pre ++ [e] <+: es)
    (hRun : sys.runFrom s pre = some t) :
    G t e := by
  induction pre generalizing s es with
  | nil =>
      cases hRun
      rcases hPrefix with ⟨rest, hEvents⟩
      rw [← hEvents] at hGuard
      exact hGuard.1
  | cons e' pre ih =>
      rcases sys.runFrom_cons_eq_some_iff.mp hRun with
        ⟨s', hFirst, hRest⟩
      rcases hPrefix with ⟨rest, hEvents⟩
      rw [← hEvents] at hGuard
      exact ih (hGuard.2 s' hFirst) ⟨rest, rfl⟩ hRest

/- An invariant kept by every step holds along every run. -/
theorem invariant_of_step
    {Inv : S → Prop}
    (hStep :
      ∀ s e s', Inv s →
        sys.step s e = some s' → Inv s')
    {s t : S}
    {es : List E}
    (hInv : Inv s)
    (hRun : sys.runFrom s es = some t) :
    Inv t := by
  induction es generalizing s with
  | nil =>
      cases hRun
      exact hInv
  | cons e es ih =>
      rcases sys.runFrom_cons_eq_some_iff.mp hRun with
        ⟨s', hFirst, hRest⟩
      exact ih (hStep s e s' hInv hFirst) hRest

/-
  Two guards that agree wherever an invariant holds accept
  the same runs, provided the second one keeps the invariant.
-/
theorem guarded_iff_guarded
    {G H : S → E → Prop}
    {Inv : S → Prop}
    (hAgree : ∀ s e, Inv s → (G s e ↔ H s e))
    (hStep :
      ∀ s e s', Inv s → H s e →
        sys.step s e = some s' → Inv s')
    {s : S}
    (hInv : Inv s)
    (es : List E) :
    sys.Guarded G s es ↔ sys.Guarded H s es := by
  induction es generalizing s with
  | nil =>
      simp [Guarded]
  | cons e es ih =>
      simp only [Guarded, hAgree s e hInv]
      constructor
      · rintro ⟨hHead, hTail⟩
        refine ⟨hHead, fun s' hFirst => ?_⟩
        exact (ih (hStep s e s' hInv hHead hFirst)).mp
          (hTail s' hFirst)
      · rintro ⟨hHead, hTail⟩
        refine ⟨hHead, fun s' hFirst => ?_⟩
        exact (ih (hStep s e s' hInv hHead hFirst)).mpr
          (hTail s' hFirst)

/-
  A condition on the states of a run and a guard on its steps
  say the same, if they do so for every step from a state in
  which the invariant holds, and the guard keeps the invariant.
-/
theorem forall_prefix_iff_guarded
    {G : S → E → Prop}
    {P Inv : S → Prop}
    (hHolds : ∀ s, Inv s → P s)
    (hStepIff :
      ∀ s e s', Inv s → sys.step s e = some s' →
        (P s' ↔ G s e))
    (hStep :
      ∀ s e s', Inv s → G s e →
        sys.step s e = some s' → Inv s')
    {s t : S}
    {es : List E}
    (hInv : Inv s)
    (hRun : sys.runFrom s es = some t) :
    (∀ pre u, pre <+: es →
        sys.runFrom s pre = some u → P u) ↔
      sys.Guarded G s es := by
  induction es generalizing s with
  | nil =>
      simp only [Guarded, List.prefix_nil, iff_true]
      rintro pre u rfl hPre
      cases hPre
      exact hHolds s hInv
  | cons e es ih =>
      rcases sys.runFrom_cons_eq_some_iff.mp hRun with
        ⟨s', hFirst, hRest⟩
      have hHead := hStepIff s e s' hInv hFirst
      constructor
      · intro hAll
        have hGuard : G s e := by
          apply hHead.mp
          refine hAll [e] s' (by simp) ?_
          exact sys.runFrom_cons_eq_some_iff.mpr
            ⟨s', hFirst, rfl⟩
        refine ⟨hGuard, fun s'' hSame => ?_⟩
        rw [hFirst] at hSame
        cases hSame
        apply (ih (hStep s e s' hInv hGuard hFirst) hRest).mp
        intro pre u hPrefix hPre
        refine hAll (e :: pre) u ?_ ?_
        · exact List.cons_prefix_cons.mpr ⟨rfl, hPrefix⟩
        · exact sys.runFrom_cons_eq_some_iff.mpr
            ⟨s', hFirst, hPre⟩
      · rintro ⟨hGuard, hTail⟩ pre u hPrefix hPre
        cases pre with
        | nil =>
            cases hPre
            exact hHolds s hInv
        | cons e' pre =>
            rcases List.cons_prefix_cons.mp hPrefix with
              ⟨rfl, hPreRest⟩
            rcases sys.runFrom_cons_eq_some_iff.mp hPre with
              ⟨s'', hSame, hRunRest⟩
            rw [hFirst] at hSame
            cases hSame
            have hNext := hStep s e' s' hInv hGuard hFirst
            exact (ih hNext hRest).mpr (hTail s' hFirst)
              pre u hPreRest hRunRest

/-
  What the steps of a busy system keep can still be seen when
  it is idle for the next time.
-/
theorem exists_idle_prefix
    {V : Type}
    {Inv Busy : S → Prop}
    {view : S → V}
    (hStep :
      ∀ s e s', Inv s → sys.step s e = some s' → Inv s')
    (hKeep :
      ∀ s e s', Inv s → Busy s →
        sys.step s e = some s' → view s' = view s)
    {s t : S}
    {es : List E}
    (hInv : Inv s)
    (hRun : sys.runFrom s es = some t)
    (hIdle : ¬ Busy t) :
    ∃ pre u, pre <+: es ∧
      sys.runFrom s pre = some u ∧
      ¬ Busy u ∧ view u = view s := by
  induction es generalizing s with
  | nil =>
      cases hRun
      exact ⟨[], _, List.prefix_rfl, rfl, hIdle, rfl⟩
  | cons e es ih =>
      by_cases hBusy : Busy s
      · rcases sys.runFrom_cons_eq_some_iff.mp hRun with
          ⟨s', hFirst, hRest⟩
        rcases ih (hStep s e s' hInv hFirst) hRest with
          ⟨pre, u, hPrefix, hPre, hEnd, hView⟩
        refine ⟨e :: pre, u, ?_, ?_, hEnd, ?_⟩
        · exact List.cons_prefix_cons.mpr ⟨rfl, hPrefix⟩
        · exact sys.runFrom_cons_eq_some_iff.mpr
            ⟨s', hFirst, hPre⟩
        · exact hView.trans (hKeep s e s' hInv hBusy hFirst)
      · exact ⟨[], s, List.nil_prefix, rfl, hBusy, rfl⟩

end EventSystem

------------------------------------------------------------
-- Ghost State
------------------------------------------------------------

namespace EventSystem

variable {S E Γ : Type}
variable (sys : EventSystem S E)

/-
  Record a history value beside the state.  The history
  never influences a step.
-/
def withGhost
    (ghost : Γ)
    (update : Γ → S → E → Γ) :
    EventSystem (S × Γ) E where
  init := (sys.init, ghost)
  step := fun ⟨s, g⟩ e =>
    (sys.step s e).map (fun s' => (s', update g s e))

theorem withGhost_step_eq_some_iff
    {ghost : Γ}
    {update : Γ → S → E → Γ}
    {s s' : S}
    {g g' : Γ}
    {e : E} :
    (sys.withGhost ghost update).step (s, g) e =
        some (s', g') ↔
      sys.step s e = some s' ∧ g' = update g s e := by
  simp only [withGhost, Option.map_eq_some_iff,
    Prod.mk.injEq]
  constructor
  · rintro ⟨t, hStep, rfl, rfl⟩
    exact ⟨hStep, rfl⟩
  · rintro ⟨hStep, rfl⟩
    exact ⟨s', hStep, rfl, rfl⟩

end EventSystem

------------------------------------------------------------
-- Restricted Environments
------------------------------------------------------------

namespace EventSystem

variable {S E : Type}
variable (sys : EventSystem S E)

/- The same system in an environment that does less. -/
def restrict
    (allowed : S → E → Prop)
    [∀ s e, Decidable (allowed s e)] :
    EventSystem S E where
  init := sys.init
  step := fun s e =>
    if allowed s e then sys.step s e else none

theorem restrict_step_eq_some_iff
    {allowed : S → E → Prop}
    [∀ s e, Decidable (allowed s e)]
    {s s' : S}
    {e : E} :
    (sys.restrict allowed).step s e = some s' ↔
      allowed s e ∧ sys.step s e = some s' := by
  simp only [restrict]
  by_cases hAllowed : allowed s e
  · simp [hAllowed]
  · simp [hAllowed]

end EventSystem

------------------------------------------------------------
-- Simulation
------------------------------------------------------------

namespace EventSystem

variable {S E T F : Type}
variable (sys : EventSystem S E)
variable (inner : EventSystem T F)

/-
  If every step of a system is a run of another one, so is
  every run.
-/
theorem runFrom_simulated
    (view : S → T)
    (hStep :
      ∀ s e s', sys.step s e = some s' →
        ∃ fs, inner.runFrom (view s) fs = some (view s'))
    {s t : S}
    {es : List E}
    (hRun : sys.runFrom s es = some t) :
    ∃ fs, inner.runFrom (view s) fs = some (view t) := by
  induction es generalizing s with
  | nil =>
      cases hRun
      exact ⟨[], rfl⟩
  | cons e es ih =>
      rcases sys.runFrom_cons_eq_some_iff.mp hRun with
        ⟨s', hFirst, hRest⟩
      rcases hStep s e s' hFirst with ⟨fs, hHead⟩
      rcases ih hRest with ⟨gs, hTail⟩
      refine ⟨fs ++ gs, ?_⟩
      exact inner.runFrom_append_eq_some_iff.mpr
        ⟨view s', hHead, hTail⟩

end EventSystem
