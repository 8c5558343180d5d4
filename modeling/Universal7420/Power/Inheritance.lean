import Universal7420.Power.LoaderSpec

/-
  How the record of a loaded profile starts from the record of
  the profile it extends.

  The parent is loaded before, and its record is copied whole
  between the first pass and the leaf pass.  So the `enabled`
  switches, which were read before the copy, do not follow the
  rule that an own node decides.

  Main declarations:
    * `Universal7420.Profiles.ExtendsChain`
    * `Universal7420.Profiles.NamesEarlier`
    * `Universal7420.Profiles.leafPass_start`
    * `Universal7420.Profiles.switch_inherited_iff`
-/

------------------------------------------------------------
-- Chains Of Parents
------------------------------------------------------------

namespace Universal7420

namespace Profiles

open Xml Fallible

/- A profile, its parent, the parent's parent, and so on. -/
inductive ExtendsChain
    (doc : Document) :
    ProfileName → List ProfileName → Prop where
| root
    {id : ProfileName}
    (hRoot : extendsOf doc id = none) :
    ExtendsChain doc id [id]
| step
    {id parent : ProfileName}
    {name : String}
    {chain : List ProfileName}
    (hExtends : extendsOf doc id = some name)
    (hName : ProfileName.ofElement? name = some parent)
    (hRest : ExtendsChain doc parent chain) :
    ExtendsChain doc id (id :: chain)

/- Some profile with this name is loaded earlier. -/
def NamesEarlier
    (id : ProfileName)
    (name : String) : Prop :=
  match ProfileName.ofElement? name with
  | some parent => parent.rank < id.rank
  | none => False

instance
    (id : ProfileName)
    (name : String) :
    Decidable (NamesEarlier id name) := by
  unfold NamesEarlier
  cases ProfileName.ofElement? name <;> infer_instance

/- A text that the conversion of the member accepts. -/
def Kind.accepts
    (k : Kind)
    (text : String) : Bool :=
  match k.convert text with
  | .ok _ => true
  | .error _ => false

theorem Kind.accepts_iff
    {k : Kind}
    {text : String} :
    k.accepts text = true ↔
      Succeeds (k.convert text) := by
  unfold Kind.accepts Succeeds
  cases k.convert text with
  | ok v => simp
  | error e => simp

theorem NamesEarlier.parent
    {id : ProfileName}
    {name : String}
    (hEarlier : NamesEarlier id name) :
    ∃ parent, ProfileName.ofElement? name = some parent ∧
      parent.rank < id.rank := by
  unfold NamesEarlier at hEarlier
  cases hName : ProfileName.ofElement? name with
  | none =>
      simp [hName] at hEarlier
  | some parent =>
      simp only [hName] at hEarlier
      exact ⟨parent, rfl, hEarlier⟩

end Profiles

end Universal7420

------------------------------------------------------------
-- Where The Leaf Pass Starts
------------------------------------------------------------

namespace Universal7420

namespace Profiles

open Xml Fallible

variable {doc : Document}

/-
  An enabled profile goes through all three passes: the leaf
  pass starts from the untouched record, or from the final
  record of the parent.
-/
theorem leafPass_start
    {ps : Store}
    {id : ProfileName}
    (hLoad : loadProfilesImpl doc = .ok ps)
    (hEnabled :
      (readAt doc
        (id.path ++ Switch.profile.path)).any toBool = true)
    (hParents :
      ∀ name, extendsOf doc id = some name →
        NamesEarlier id name) :
    ∃ r, loadScript.foldlM (loadStmt doc id) r =
        .ok (ps id) ∧
      ((extendsOf doc id = none ∧
          r.leaves = SecPowerProfile.zero.leaves ∧
          r.governorData =
            SecPowerProfile.zero.governorData) ∨
        ∃ name parent,
          extendsOf doc id = some name ∧
          ProfileName.ofElement? name = some parent ∧
          parent.rank < id.rank ∧
          r = ps parent) := by
  rcases loadProfilesImpl_record hLoad id with
    ⟨store, hRecord, hZero, hFinal⟩
  rcases loadProfileImpl_cases hRecord with
    ⟨p, hSwitches, hOff | ⟨_, r, hParent, hLeaves⟩⟩
  · have hOn : p.enabled = true := by
      have hValue := switchPass_switch (by rw [hZero])
        hSwitches .profile
      rw [SecPowerProfile.enabled, hValue]
      exact hEnabled
    rw [hOff.1] at hOn
    cases hOn
  · refine ⟨r, hLeaves, ?_⟩
    cases hExtends : extendsOf doc id with
    | none =>
        rw [inheritParent_none hExtends hParent,
          switchPass_leaves hSwitches,
          switchPass_governorData hSwitches, hZero]
        exact Or.inl ⟨rfl, rfl, rfl⟩
    | some name =>
        rcases (hParents name hExtends).parent with
          ⟨parent, hName, hEarlier⟩
        refine Or.inr
          ⟨name, parent, rfl, hName, hEarlier, ?_⟩
        have hNe : parent ≠ id := by
          intro hEq
          rw [hEq] at hEarlier
          exact Nat.lt_irrefl _ hEarlier
        rw [inheritParent_some hExtends hName hNe hParent]
        exact hFinal parent hEarlier

end Profiles

end Universal7420

------------------------------------------------------------
-- Texts And Lists That Load
------------------------------------------------------------

namespace Universal7420

namespace Profiles

open Xml Fallible

variable {doc : Document}

/- A node that fits into an entry of the governor buffers. -/
def FitsEntry (node : Node) : Prop :=
  match node.children with
  | [] => True
  | child :: _ =>
      node.name.utf8ByteSize < governorDataSize ∧
        child.content.any (fun data =>
          decide (data.utf8ByteSize < governorDataSize)) =
            true

instance (node : Node) : Decidable (FitsEntry node) := by
  unfold FitsEntry
  cases node.children <;> infer_instance

/- The number of entries that a list of nodes fills. -/
def entryCount (nodes : List Node) : Nat :=
  nodes.countP (fun node => !node.children.isEmpty)

/- Copying entries that fit succeeds. -/
theorem copyGovernorData_succeeds
    {nodes : List Node}
    (hFits : ∀ node ∈ nodes, FitsEntry node)
    {index : Nat}
    (hRoom :
      index + entryCount nodes < governorDataSize)
    (entries : Nat → String × String) :
    ∃ index' entries',
      copyGovernorData nodes index entries =
        .ok (index', entries') ∧
      index' < governorDataSize := by
  induction nodes generalizing index entries with
  | nil =>
      refine ⟨index, entries, rfl, ?_⟩
      simpa [entryCount] using hRoom
  | cons node nodes ih =>
      have hRest : ∀ n ∈ nodes, FitsEntry n := by
        intro n hn
        exact hFits n (by simp [hn])
      have hNode := hFits node (by simp)
      unfold FitsEntry at hNode
      unfold copyGovernorData
      cases hChildren : node.children with
      | nil =>
          apply ih hRest
          simpa [entryCount, hChildren] using hRoom
      | cons child children =>
          simp only [hChildren] at hNode
          cases hContent : child.content with
          | none =>
              simp [hContent] at hNode
          | some data =>
              have hData :
                  data.utf8ByteSize < governorDataSize := by
                simpa [hContent] using hNode.2
              have hCount :
                  index + 1 + entryCount nodes <
                    governorDataSize := by
                simp only [entryCount, List.countP_cons,
                  hChildren] at hRoom ⊢
                simp at hRoom
                omega
              have hIndex : index < governorDataSize := by
                omega
              simp only [hContent, hIndex, hNode.1, hData,
                and_self, if_true]
              exact ih hRest hCount _

/- Every hard-coded default parses as its own type. -/
theorem defaultText_accepted
    (l : Leaf) :
    l.kind.accepts l.defaultText = true := by
  cases l with
  | freqMin c => cases c <;> decide
  | freqMax c => cases c <;> decide
  | freqHispeed c => cases c <;> decide
  | freqBoost c => cases c <;> decide
  | _ => rfl

end Profiles

end Universal7420

------------------------------------------------------------
-- The Inheritance Of Switches
------------------------------------------------------------

namespace Universal7420

namespace Profiles

open Xml Fallible

/- An element with a text. -/
def textElement
    (name text : String) : Node :=
  .element name [] [.text text]

/- A profile element. -/
def profileElement
    (id : ProfileName)
    (parent : Option ProfileName)
    (children : List Node) : Node :=
  .element id.element
    (parent.toList.map (fun p => ("extends", p.element)))
    children

/-
  Six enabled profiles in a chain.  The root sets two ipa
  and cluster members, and `balanced` overrides one of them.
-/
def chainDocument : Document where
  nodes :=
    [.element "profiles" []
      [profileElement .screenOff none
        [textElement "enabled" "true",
          .element "cpu" []
            [textElement "enabled" "true",
              .element "apollo" []
                [textElement "enabled" "true",
                  textElement "freq_max" "600000"]],
          .element "ipa" []
            [textElement "enabled" "1",
              textElement "control_temp" "45"]],
        profileElement .powerSave (some .screenOff)
          [textElement "enabled" "true"],
        profileElement .biasPowerSave (some .powerSave)
          [textElement "enabled" "true"],
        profileElement .balanced (some .biasPowerSave)
          [textElement "enabled" "TRUE",
            .element "ipa" []
              [textElement "control_temp" "65"]],
        profileElement .biasPerformance (some .balanced)
          [textElement "enabled" "true"],
        profileElement .performance (some .biasPerformance)
          [textElement "enabled" "true"]]]

/-
  The rule one would expect of a switch: the own text decides
  whatever the parent has, and without an own node the
  parent's value is taken over.
-/
def SwitchInherited
    (doc : Document)
    (id : ProfileName)
    (sw : Switch)
    (loaded parent : SecPowerProfile) : Prop :=
  (∀ text, textAt doc (id.path ++ sw.path) = some text →
    (loaded.switches sw).value = toBool text) ∧
  (¬ HasMatch doc (id.path ++ sw.path) →
    (loaded.switches sw).value =
      (parent.switches sw).value)

/- What is read of the profile's own `<enabled>` is true. -/
def ownEnabled
    (doc : Document)
    (id : ProfileName) : Bool :=
  (readAt doc (id.path ++ Switch.profile.path)).any toBool

/- The first pass gets to the `<enabled>` node of a switch. -/
def switchRead
    (doc : Document)
    (id : ProfileName) :
    Switch → Bool
| .profile => true
| .ofSection s => xmlHasNode doc (id.path ++ s.path)

/-
  A profile whose own `<enabled>` reads true must agree with
  its parent wherever it has an own node.  For any other one
  the text of an own node must be true exactly if the first
  element of the section is not empty and the first child of
  the node reads true, and its parent must be off wherever
  the profile has no own node.
-/
def SwitchAgrees
    (doc : Document)
    (id : ProfileName)
    (sw : Switch)
    (parent : SecPowerProfile) : Prop :=
  if ownEnabled doc id = true then
    ∀ text, textAt doc (id.path ++ sw.path) = some text →
      (parent.switches sw).value = toBool text
  else
    (∀ text, textAt doc (id.path ++ sw.path) = some text →
      (toBool text = true ↔
        switchRead doc id sw = true ∧
          (readAt doc (id.path ++ sw.path)).any toBool =
            true)) ∧
    (¬ HasMatch doc (id.path ++ sw.path) →
      (parent.switches sw).value = false)

theorem firstPassSwitch_eq
    (doc : Document)
    (id : ProfileName)
    (sw : Switch) :
    firstPassSwitch doc id sw =
      (switchRead doc id sw &&
        (readAt doc (id.path ++ sw.path)).any toBool) := by
  cases sw with
  | profile => simp [firstPassSwitch, switchRead]
  | ofSection s => rfl

/- A child's switches are its own or its parent's. -/
theorem loaded_switches
    {doc : Document}
    {ps : Store}
    {id parent : ProfileName}
    {name : String}
    (hLoad : loadProfilesImpl doc = .ok ps)
    (hExtends : extendsOf doc id = some name)
    (hName : ProfileName.ofElement? name = some parent)
    (hEarlier : parent.rank < id.rank)
    (sw : Switch) :
    ((ps id).switches sw).value =
      if ownEnabled doc id = true then
        ((ps parent).switches sw).value
      else
        firstPassSwitch doc id sw := by
  rcases loadProfilesImpl_record hLoad id with
    ⟨store, hRecord, hZero, hFinal⟩
  rcases loadProfileImpl_cases hRecord with
    ⟨p, hSwitches, hCase⟩
  have hValue :=
    switchPass_switch (by rw [hZero]) hSwitches
  have hOwn : p.enabled = ownEnabled doc id :=
    hValue .profile
  rcases hCase with
    ⟨hOff, hSame⟩ | ⟨hOn, r, hParent, hLeaves⟩
  · rw [hOwn] at hOff
    rw [hOff, hSame]
    exact hValue sw
  · rw [hOwn] at hOn
    have hNe : parent ≠ id := by
      intro hEq
      rw [hEq] at hEarlier
      exact Nat.lt_irrefl _ hEarlier
    have hCopy : r = ps parent := by
      rw [inheritParent_some hExtends hName hNe hParent]
      exact hFinal parent hEarlier
    rw [hOn, if_pos rfl, loadStmts_switches hLeaves, hCopy]

/-
  A switch of a child follows the expected rule exactly when
  the child and its parent agree in the above sense.
-/
theorem switch_inherited_iff
    (doc : Document)
    (ps : Store)
    (id parent : ProfileName)
    (name : String)
    (sw : Switch)
    (hLoad : loadProfilesImpl doc = .ok ps)
    (hExtends : extendsOf doc id = some name)
    (hName : ProfileName.ofElement? name = some parent)
    (hEarlier : parent.rank < id.rank) :
    SwitchInherited doc id sw (ps id) (ps parent) ↔
      SwitchAgrees doc id sw (ps parent) := by
  have hLoaded :=
    loaded_switches hLoad hExtends hName hEarlier sw
  unfold SwitchInherited SwitchAgrees
  rw [hLoaded]
  cases hOwn : ownEnabled doc id with
  | true =>
      simp
  | false =>
      rw [if_neg (by simp), if_neg (by simp),
        firstPassSwitch_eq]
      apply and_congr
      · apply forall_congr'
        intro text
        apply imp_congr_right
        intro _
        rw [← Bool.and_eq_true, eq_comm, Bool.eq_iff_iff]
      · apply imp_congr_right
        intro hNoMatch
        rw [readAt_eq_none_of_not_hasMatch hNoMatch,
          Option.any_none, Bool.and_false]
        exact eq_comm

theorem switch_inherited_iff_chainDocument :
    ∃ ps, loadProfilesImpl chainDocument = .ok ps ∧
      (SwitchInherited chainDocument .powerSave
          (.ofSection .ipa) (ps .powerSave)
          (ps .screenOff) ↔
        SwitchAgrees chainDocument .powerSave
          (.ofSection .ipa) (ps .screenOff)) := by
  have hLoads :
      (loadProfilesImpl chainDocument).toOption.isSome =
        true := by
    decide +kernel
  rcases Option.isSome_iff_exists.mp hLoads with ⟨ps, hLoad⟩
  rw [toOption_eq_some_iff] at hLoad
  refine ⟨ps, hLoad, ?_⟩
  exact switch_inherited_iff chainDocument ps .powerSave
    .screenOff "screen_off" (.ofSection .ipa) hLoad
    (by decide +kernel) (by decide) (by decide)

/-
  `power_save` extends `screen_off` and switches the cpu
  section off, which its parent has switched on.
-/
def overrideDocument : Document where
  nodes :=
    [.element "profiles" []
      [profileElement .screenOff none
        [textElement "enabled" "true",
          .element "cpu" [] [textElement "enabled" "true"]],
        profileElement .powerSave (some .screenOff)
          [textElement "enabled" "true",
            .element "cpu" []
              [textElement "enabled" "false"]]]]

/- The overridden switch keeps the value of the parent. -/
theorem switch_not_inherited :
    ¬ ∀ (doc : Document) (ps : Store)
        (id parent : ProfileName) (name : String)
        (sw : Switch),
        loadProfilesImpl doc = .ok ps →
        extendsOf doc id = some name →
        ProfileName.ofElement? name = some parent →
        parent.rank < id.rank →
        SwitchInherited doc id sw (ps id) (ps parent) := by
  intro hAll
  have hOn :
      (loadProfilesImpl overrideDocument).toOption.any
        (fun ps => (ps .powerSave).on .cpu) = true := by
    decide +kernel
  cases hLoad : loadProfilesImpl overrideDocument with
  | error fault =>
      rw [hLoad] at hOn
      cases hOn
  | ok ps =>
      have hRule := hAll overrideDocument ps .powerSave
        .screenOff "screen_off" (.ofSection .cpu) hLoad
        (by decide +kernel) (by decide) (by decide)
      have hValue := hRule.1 "false" (by decide +kernel)
      rw [hLoad] at hOn
      have hTrue :
          ((ps .powerSave).switches
            (.ofSection .cpu)).value = true := hOn
      rw [hTrue] at hValue
      exact absurd hValue (by decide)

end Profiles

end Universal7420
