import Mathlib.Data.List.Basic

/-
  Rules for programs in the exception monad.

  A successful sequence of two programs succeeds in both, and
  a successful fold is a run through successful steps.

  Main declarations:
    * `Fallible.bind_eq_ok_iff`
    * `Fallible.bind_eq_error_iff`
    * `Fallible.toOption_eq_some_iff`
    * `Fallible.foldlM_cons_eq_ok_iff`
    * `Fallible.foldlM_preserves`
    * `Fallible.foldlM_invariant`
    * `Fallible.foldlM_once`
    * `Fallible.foldlM_map`
    * `Fallible.bind_succeeds_iff`
    * `Fallible.foldlM_succeeds_iff`
-/

------------------------------------------------------------
-- Sequencing
------------------------------------------------------------

namespace Fallible

variable {ε α β : Type}

/- A sequence succeeds when both of its parts do. -/
theorem bind_eq_ok_iff
    {x : Except ε α}
    {f : α → Except ε β}
    {b : β} :
    (x >>= f) = .ok b ↔
      ∃ a, x = .ok a ∧ f a = .ok b := by
  cases x with
  | error e =>
      simp [bind, Except.bind]
  | ok a =>
      simp [bind, Except.bind]

/- A sequence fails in its first or in its second part. -/
theorem bind_eq_error_iff
    {x : Except ε α}
    {f : α → Except ε β}
    {e : ε} :
    (x >>= f) = .error e ↔
      x = .error e ∨ ∃ a, x = .ok a ∧ f a = .error e := by
  cases x with
  | error e' =>
      simp [bind, Except.bind]
  | ok a =>
      simp [bind, Except.bind]

@[simp] theorem pure_eq_ok_iff
    {a b : α} :
    (pure a : Except ε α) = .ok b ↔ a = b := by
  simp [pure, Except.pure]

/- The result of a program that succeeds. -/
theorem toOption_eq_some_iff
    {x : Except ε α}
    {a : α} :
    x.toOption = some a ↔ x = .ok a := by
  cases x with
  | error e =>
      simp [Except.toOption]
  | ok b =>
      simp [Except.toOption]

/- A program does not fail. -/
def Succeeds (x : Except ε α) : Prop :=
  ∃ a, x = .ok a

theorem succeeds_ok (a : α) :
    Succeeds (.ok a : Except ε α) :=
  ⟨a, rfl⟩

/- Sequencing succeeds when the continuation always does. -/
theorem Succeeds.bind
    {x : Except ε α}
    {f : α → Except ε β}
    (hFirst : Succeeds x)
    (hRest : ∀ a, x = .ok a → Succeeds (f a)) :
    Succeeds (x >>= f) := by
  rcases hFirst with ⟨a, hFirst⟩
  rcases hRest a hFirst with ⟨b, hRest⟩
  exact ⟨b, bind_eq_ok_iff.mpr ⟨a, hFirst, hRest⟩⟩

/- A sequence succeeds when its parts do, one by one. -/
theorem bind_succeeds_iff
    {x : Except ε α}
    {f : α → Except ε β} :
    Succeeds (x >>= f) ↔
      ∃ a, x = .ok a ∧ Succeeds (f a) := by
  constructor
  · rintro ⟨b, hBoth⟩
    rcases bind_eq_ok_iff.mp hBoth with ⟨a, hFirst, hRest⟩
    exact ⟨a, hFirst, b, hRest⟩
  · rintro ⟨a, hFirst, b, hRest⟩
    exact ⟨b, bind_eq_ok_iff.mpr ⟨a, hFirst, hRest⟩⟩

end Fallible

------------------------------------------------------------
-- Folds
------------------------------------------------------------

namespace Fallible

variable {ε α σ : Type}
variable {f : σ → α → Except ε σ}

/- A successful nonempty fold makes one successful step. -/
theorem foldlM_cons_eq_ok_iff
    {s t : σ}
    {a : α}
    {as : List α} :
    (a :: as).foldlM f s = .ok t ↔
      ∃ s', f s a = .ok s' ∧ as.foldlM f s' = .ok t := by
  rw [List.foldlM_cons, bind_eq_ok_iff]

/- What every step keeps, the fold keeps. -/
theorem foldlM_preserves
    {γ : Type}
    (view : σ → γ)
    {as : List α}
    (hStep :
      ∀ a ∈ as, ∀ s s', f s a = .ok s' →
        view s' = view s)
    {s t : σ}
    (hFold : as.foldlM f s = .ok t) :
    view t = view s := by
  induction as generalizing s with
  | nil =>
      cases hFold
      rfl
  | cons a as ih =>
      rcases foldlM_cons_eq_ok_iff.mp hFold with
        ⟨s', hFirst, hRest⟩
      have hTail : view t = view s' := by
        apply ih _ hRest
        intro b hb
        exact hStep b (by simp [hb])
      rw [hTail]
      exact hStep a (by simp) s s' hFirst

/- An invariant that every step keeps holds after the fold. -/
theorem foldlM_invariant
    {Inv : σ → Prop}
    {as : List α}
    (hStep :
      ∀ a ∈ as, ∀ s s', Inv s → f s a = .ok s' → Inv s')
    {s t : σ}
    (hInv : Inv s)
    (hFold : as.foldlM f s = .ok t) :
    Inv t := by
  induction as generalizing s with
  | nil =>
      cases hFold
      exact hInv
  | cons a as ih =>
      rcases foldlM_cons_eq_ok_iff.mp hFold with
        ⟨s', hFirst, hRest⟩
      have hNext := hStep a (by simp) s s' hInv hFirst
      apply ih _ hNext hRest
      intro b hb
      exact hStep b (by simp [hb])

/-
  What all steps but one keep is left to that one: the fold
  keeps it before and after.
-/
theorem foldlM_once
    {γ : Type}
    (view : σ → γ)
    {named : α → Bool}
    (hOther :
      ∀ a s t,
        named a = false → f s a = .ok t → view t = view s)
    {as : List α}
    {a : α}
    (hOnce : as.filter named = [a])
    {s t : σ}
    (hFold : as.foldlM f s = .ok t) :
    ∃ s' t',
      view s' = view s ∧ f s' a = .ok t' ∧
        view t = view t' := by
  induction as generalizing s with
  | nil =>
      cases hOnce
  | cons b bs ih =>
      rcases foldlM_cons_eq_ok_iff.mp hFold with
        ⟨u, hFirst, hRest⟩
      cases hNamed : named b with
      | true =>
          rw [List.filter_cons_of_pos hNamed] at hOnce
          rcases List.cons.inj hOnce with ⟨hHead, hTail⟩
          have hKeep : view t = view u := by
            apply foldlM_preserves view _ hRest
            intro c hMem v v' hStep
            have hNone := List.filter_eq_nil_iff.mp hTail
            exact
              hOther c v v' (by simpa using hNone c hMem)
                hStep
          rw [hHead] at hFirst
          exact ⟨s, u, rfl, hFirst, hKeep⟩
      | false =>
          rw [List.filter_cons_of_neg (by simp [hNamed])]
            at hOnce
          rcases ih hOnce hRest with
            ⟨s', t', hView, hStep, hLast⟩
          exact
            ⟨s', t',
              hView.trans (hOther b s u hNamed hFirst),
              hStep, hLast⟩

/- A fold over more state is one over the state it shows. -/
theorem foldlM_map
    {τ : Type}
    {g : τ → α → Except ε τ}
    (view : σ → τ)
    (hStep :
      ∀ s a, (f s a).map view = g (view s) a)
    (as : List α)
    (s : σ) :
    (as.foldlM f s).map view = as.foldlM g (view s) := by
  induction as generalizing s with
  | nil => rfl
  | cons a as ih =>
      rw [List.foldlM_cons, List.foldlM_cons, ← hStep]
      cases f s a with
      | error e => rfl
      | ok t => exact ih t

/-
  If every step succeeds exactly under a condition of its own,
  as long as an invariant holds, the fold succeeds exactly
  under all of them.
-/
theorem foldlM_succeeds_iff
    {as : List α}
    (Inv : σ → Prop)
    {C : α → Prop}
    (hIff :
      ∀ a ∈ as, ∀ s, Inv s → (Succeeds (f s a) ↔ C a))
    (hKeep :
      ∀ a ∈ as, ∀ s s', Inv s → f s a = .ok s' → Inv s')
    {s : σ}
    (hInv : Inv s) :
    Succeeds (as.foldlM f s) ↔ ∀ a ∈ as, C a := by
  induction as generalizing s with
  | nil =>
      exact iff_of_true (succeeds_ok s) (by simp)
  | cons a as ih =>
      have hHead := hIff a (by simp) s hInv
      have hTail :
          ∀ s', f s a = .ok s' →
            (Succeeds (as.foldlM f s') ↔
              ∀ b ∈ as, C b) := by
        intro s' hFirst
        apply ih
        · intro b hb
          exact hIff b (by simp [hb])
        · intro b hb
          exact hKeep b (by simp [hb])
        · exact hKeep a (by simp) s s' hInv hFirst
      rw [List.foldlM_cons, bind_succeeds_iff,
        List.forall_mem_cons]
      constructor
      · rintro ⟨s', hFirst, hRest⟩
        exact ⟨hHead.mp ⟨s', hFirst⟩,
          (hTail s' hFirst).mp hRest⟩
      · rintro ⟨hCond, hConds⟩
        rcases hHead.mpr hCond with ⟨s', hFirst⟩
        exact ⟨s', hFirst, (hTail s' hFirst).mpr hConds⟩

end Fallible
