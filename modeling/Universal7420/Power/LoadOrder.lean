import Universal7420.Power.LoaderTotality

/-
  Parents and the order in which profiles are loaded.

  A profile may name any profile, or none at all, as its
  parent.  The record that it copies is a finished one exactly
  if the name is that of a profile loaded earlier; an unknown
  name gives a null pointer, and a later one a record that is
  still zero.

  Main declarations:
    * `Universal7420.Profiles.ParentFinished`
    * `Universal7420.Profiles.ExtendsEarlier`
    * `Universal7420.Profiles.parent_finished_iff`
-/

------------------------------------------------------------
-- Finished Parents
------------------------------------------------------------

namespace Universal7420

namespace Profiles

open Xml Fallible

/- The records after some profiles have been loaded. -/
def loadFirst
    (doc : Document)
    (finished : List ProfileName) :
    Except LoadFault Store :=
  finished.foldlM (loadInto doc)
    (fun _ => SecPowerProfile.zero)

/-
  Whenever the loader comes to the copy of a parent record,
  the parent is one of the finished profiles, and its record
  is what is copied.
-/
def ParentFinished
    (doc : Document)
    (finished : List ProfileName)
    (id : ProfileName) : Prop :=
  ∀ store p name,
    loadFirst doc finished = .ok store →
    switchPass doc id (store id) = .ok p →
    p.enabled = true →
    extendsOf doc id = some name →
    ∃ parent,
      ProfileName.ofElement? name = some parent ∧
      parent ∈ finished ∧
      inheritParent doc store id p = .ok (store parent)

/-
  A profile whose switches can be read and which is enabled
  extends nothing, or a profile that is loaded earlier.
-/
def ExtendsEarlier
    (doc : Document)
    (id : ProfileName) : Prop :=
  SwitchesPresent doc id →
  ownEnabled doc id = true →
  ∀ name, extendsOf doc id = some name →
    NamesEarlier id name

/- The finished profiles are those of lower rank. -/
theorem mem_finished_iff
    {finished : List ProfileName}
    {id : ProfileName}
    (hTurn : finished ++ [id] <+: ProfileName.loadOrder)
    (q : ProfileName) :
    q ∈ finished ↔ q.rank < id.rank := by
  rcases hTurn with ⟨rest, hOrder⟩
  have hSorted :
      (finished ++ [id] ++ rest).Pairwise
        (fun a b => a.rank < b.rank) := by
    rw [hOrder]
    decide
  rw [List.append_assoc, List.pairwise_append] at hSorted
  rcases hSorted with ⟨_, hLater, hBefore⟩
  constructor
  · intro hMem
    exact hBefore q hMem id (by simp)
  · intro hLower
    have hMem : q ∈ finished ++ [id] ++ rest := by
      rw [hOrder]
      exact mem_loadOrder q
    rw [List.append_assoc, List.mem_append] at hMem
    rcases hMem with hDone | hTodo
    · exact hDone
    · rcases List.mem_cons.mp hTodo with hSelf | hRest
      · rw [hSelf] at hLower
        exact absurd hLower (Nat.lt_irrefl _)
      · have hUp := (List.pairwise_cons.mp hLater).1 q hRest
        omega

/- A profile is untouched until its turn. -/
theorem loadFirst_untouched
    {doc : Document}
    {finished : List ProfileName}
    {id : ProfileName}
    {store : Store}
    (hTurn : finished ++ [id] <+: ProfileName.loadOrder)
    (hFirst : loadFirst doc finished = .ok store) :
    store id = SecPowerProfile.zero := by
  apply loadIntos_other _ hFirst
  intro hMem
  have hLower := (mem_finished_iff hTurn id).mp hMem
  exact Nat.lt_irrefl _ hLower

/- A name of an earlier profile is that of a finished one. -/
theorem namesEarlier_iff
    {finished : List ProfileName}
    {id : ProfileName}
    (hTurn : finished ++ [id] <+: ProfileName.loadOrder)
    (name : String) :
    NamesEarlier id name ↔
      ∃ parent,
        ProfileName.ofElement? name = some parent ∧
        parent ∈ finished := by
  unfold NamesEarlier
  cases ProfileName.ofElement? name with
  | none =>
      simp
  | some parent =>
      simp [mem_finished_iff hTurn]

/- One profile, when the loader comes to it. -/
theorem parentFinished_iff_extendsEarlier
    {doc : Document}
    {finished : List ProfileName}
    {id : ProfileName}
    {store : Store}
    (hTurn : finished ++ [id] <+: ProfileName.loadOrder)
    (hFirst : loadFirst doc finished = .ok store) :
    ParentFinished doc finished id ↔
      ExtendsEarlier doc id := by
  have hZero := loadFirst_untouched hTurn hFirst
  have hEnabled :
      ∀ p, switchPass doc id (store id) = .ok p →
        p.enabled = ownEnabled doc id := by
    intro p hPass
    exact switchPass_switch (by rw [hZero]) hPass .profile
  constructor
  · intro hFinished hPresent hOwn name hExtends
    rcases (switchPass_succeeds_iff (store id)).mpr hPresent
      with ⟨p, hPass⟩
    rcases hFinished store p name hFirst hPass
        ((hEnabled p hPass).trans hOwn) hExtends with
      ⟨parent, hName, hMem, _⟩
    exact (namesEarlier_iff hTurn name).mpr
      ⟨parent, hName, hMem⟩
  · intro hEarlier store' p name hFirst' hPass hOn hExtends
    rw [hFirst] at hFirst'
    cases hFirst'
    have hPresent :=
      (switchPass_succeeds_iff (store id)).mp ⟨p, hPass⟩
    rw [hEnabled p hPass] at hOn
    rcases (namesEarlier_iff hTurn name).mp
        (hEarlier hPresent hOn name hExtends) with
      ⟨parent, hName, hMem⟩
    refine ⟨parent, hName, hMem, ?_⟩
    have hNe : parent ≠ id := by
      intro hSame
      have hLower := (mem_finished_iff hTurn parent).mp hMem
      rw [hSame] at hLower
      exact Nat.lt_irrefl _ hLower
    simp only [inheritParent, hExtends, hName,
      Function.update_of_ne hNe]

/-
  Every copy that the loader makes is that of a finished
  record, if and only if every profile that it comes to names
  an earlier one or none.
-/
theorem parent_finished_iff
    (doc : Document) :
    (∀ finished id,
      finished ++ [id] <+: ProfileName.loadOrder →
        ParentFinished doc finished id) ↔
      ∀ finished id,
        finished ++ [id] <+: ProfileName.loadOrder →
        Succeeds (loadFirst doc finished) →
          ExtendsEarlier doc id := by
  constructor
  · rintro hAll finished id hTurn ⟨store, hFirst⟩
    exact (parentFinished_iff_extendsEarlier hTurn
      hFirst).mp (hAll finished id hTurn)
  · intro hAll finished id hTurn store p name hFirst
    exact (parentFinished_iff_extendsEarlier hTurn
      hFirst).mpr (hAll finished id hTurn ⟨store, hFirst⟩)
        store p name hFirst

/- An enabled `screen_off` profile with a given parent. -/
def extendingDocument (parent : String) : Document where
  nodes :=
    [.element "profiles" []
      [.element "screen_off" [("extends", parent)]
          [textElement "enabled" "true"],
        profileElement .performance none
          [textElement "enabled" "true"]]]

/-
  The first profile extends the last one, whose record is
  still zero, or a profile that does not exist, also by an
  attribute that is empty.
-/
theorem parent_not_finished :
    ¬ ParentFinished (extendingDocument "performance") []
        .screenOff ∧
      ¬ ParentFinished (extendingDocument "turbo") []
        .screenOff ∧
      ¬ ParentFinished (extendingDocument "") []
        .screenOff ∧
      faultOf (loadProfilesImpl
        (extendingDocument "turbo")) =
          some .nullParent ∧
      faultOf (loadProfilesImpl (extendingDocument "")) =
        some .nullParent := by
  have hTurn :
      [] ++ [ProfileName.screenOff] <+:
        ProfileName.loadOrder := by
    decide
  have hWrong :
      ∀ name ∈ ["performance", "turbo", ""],
        ¬ ParentFinished (extendingDocument name) []
          .screenOff := by
    intro name hName hFinished
    have hChecks :
        ∀ name ∈ ["performance", "turbo", ""],
          (switchPass (extendingDocument name) .screenOff
            SecPowerProfile.zero).toOption.isSome = true ∧
          ownEnabled (extendingDocument name) .screenOff =
            true ∧
          extendsOf (extendingDocument name) .screenOff =
            some name ∧
          ¬ NamesEarlier .screenOff name := by
      decide +kernel
    rcases hChecks name hName with
      ⟨hPass, hOwn, hExtends, hLate⟩
    have hEarlier := (parentFinished_iff_extendsEarlier
      hTurn rfl).mp hFinished
    have hPresent :
        SwitchesPresent (extendingDocument name)
          .screenOff := by
      apply (switchPass_succeeds_iff
        SecPowerProfile.zero).mp
      cases hResult :
          switchPass (extendingDocument name) .screenOff
            SecPowerProfile.zero with
      | error fault =>
          rw [hResult] at hPass
          cases hPass
      | ok p =>
          exact succeeds_ok p
    exact hLate (hEarlier hPresent hOwn name hExtends)
  refine ⟨hWrong _ (by simp), hWrong _ (by simp),
    hWrong _ (by simp), ?_, ?_⟩
  · decide +kernel
  · decide +kernel

end Profiles

end Universal7420
