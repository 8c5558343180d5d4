import Universal7420.Power.Inheritance

/-
  The documents that the profile loader survives.

  Without `extends` attributes, the loader reads a fixed set of
  nodes: the `<enabled>` nodes, and for an enabled profile the
  leaves and governor lists of its enabled sections.  It
  survives a document exactly if every node it reads has a
  child, every number parses and every governor list fits into
  the buffers.

  Main declarations:
    * `Universal7420.Profiles.ChildPresent`
    * `Universal7420.Profiles.switchPass_succeeds_iff`
    * `Universal7420.Profiles.ProfileLoadable`
    * `Universal7420.Profiles.load_succeeds_iff`
-/

------------------------------------------------------------
-- Reading A Node
------------------------------------------------------------

namespace Universal7420

namespace Profiles

open Xml Fallible

/- The first match, if there is one, has a child. -/
def ChildPresent
    (doc : Document)
    (path : List String) : Prop :=
  ∀ node ∈ (doc.select path).head?, node.children ≠ []

/- A query faults on a match without children. -/
theorem xmlGet_eq_ok_iff
    {doc : Document}
    {path : List String}
    {text : Option String} :
    xmlGet doc path = .ok text ↔
      ChildPresent doc path ∧ text = readAt doc path := by
  unfold xmlGet ChildPresent readAt
  cases hSelect : doc.select path with
  | nil =>
      simp only [List.head?_nil, Option.not_mem_none,
        Option.bind_none, Except.ok.injEq, false_imp_iff,
        implies_true, true_and]
      exact eq_comm
  | cons node nodes =>
      cases hChildren : node.children with
      | nil =>
          simp [hChildren]
      | cons child children =>
          simp only [List.head?_cons, Option.mem_some_iff,
            forall_eq', hChildren, Option.bind_some,
            Except.ok.injEq, ne_eq, List.cons_ne_nil,
            not_false_eq_true, true_and]
          exact eq_comm

theorem map_succeeds_iff
    {α β : Type}
    {x : Except LoadFault α}
    (g : α → β) :
    Succeeds (do let v ← x; return g v) ↔ Succeeds x := by
  rw [bind_succeeds_iff]
  constructor
  · rintro ⟨a, hFirst, _⟩
    exact ⟨a, hFirst⟩
  · rintro ⟨a, hFirst⟩
    exact ⟨a, hFirst, succeeds_ok _⟩

/-
  A member can be loaded if its node has a child and a text
  that parses; the defaults always parse.
-/
theorem profileSetting_succeeds_iff
    {doc : Document}
    {path : List String}
    {k : Kind}
    {defaultText : String}
    (hDefault : k.accepts defaultText = true)
    (old : Setting k.Val) :
    Succeeds (profileSetting doc path k defaultText old) ↔
      ChildPresent doc path ∧
        (readAt doc path).all k.accepts = true := by
  unfold profileSetting
  rw [bind_succeeds_iff]
  simp only [xmlGet_eq_ok_iff, and_assoc,
    exists_and_left, exists_eq_left]
  apply and_congr_right
  intro _
  cases readAt doc path with
  | some c =>
      rw [Option.all_some, Kind.accepts_iff]
      exact map_succeeds_iff _
  | none =>
      refine iff_of_true ?_ rfl
      cases old.set with
      | true =>
          exact succeeds_ok old
      | false =>
          exact (map_succeeds_iff _).mpr
            (Kind.accepts_iff.mp hDefault)

end Profiles

end Universal7420

------------------------------------------------------------
-- The Switch Pass
------------------------------------------------------------

namespace Universal7420

namespace Profiles

open Xml Fallible

/- Every `<enabled>` node that is read has a child. -/
def SwitchesPresent
    (doc : Document)
    (id : ProfileName) : Prop :=
  ∀ sw, switchRead doc id sw = true →
    ChildPresent doc (id.path ++ sw.path)

theorem profileSetSwitch_succeeds_iff
    {doc : Document}
    {id : ProfileName}
    (p : SecPowerProfile)
    (sw : Switch) :
    Succeeds (profileSetSwitch doc id p sw) ↔
      ChildPresent doc (id.path ++ sw.path) := by
  unfold profileSetSwitch
  rw [map_succeeds_iff, profileSetting_succeeds_iff rfl]
  have hParses :
      (readAt doc (id.path ++ sw.path)).all
        Kind.bool.accepts = true := by
    cases readAt doc (id.path ++ sw.path) with
    | none => rfl
    | some c => rfl
  exact and_iff_left hParses

theorem profileInit_succeeds_iff
    {doc : Document}
    {id : ProfileName}
    (p : SecPowerProfile)
    (s : Section) :
    Succeeds (profileInit doc id p s) ↔
      (xmlHasNode doc (id.path ++ s.path) = true →
        ChildPresent doc
          (id.path ++ (Switch.ofSection s).path)) := by
  unfold profileInit
  cases hNode : xmlHasNode doc (id.path ++ s.path) with
  | true =>
      simp only [if_true, true_imp_iff]
      rw [map_succeeds_iff, profileSetSwitch_succeeds_iff]
  | false =>
      exact iff_of_true (succeeds_ok _) (by simp)

/- The first pass reads the `<enabled>` nodes, nothing else. -/
theorem switchPass_succeeds_iff
    {doc : Document}
    {id : ProfileName}
    (p : SecPowerProfile) :
    Succeeds (switchPass doc id p) ↔
      SwitchesPresent doc id := by
  have hSections :
      ∀ q, Succeeds
          (Section.initOrder.foldlM
            (profileInit doc id) q) ↔
        ∀ s ∈ Section.initOrder,
          xmlHasNode doc (id.path ++ s.path) = true →
            ChildPresent doc
              (id.path ++ (Switch.ofSection s).path) := by
    intro q
    exact foldlM_succeeds_iff (fun _ => True)
      (fun s _ r _ => profileInit_succeeds_iff r s)
      (fun _ _ _ _ _ _ => trivial) trivial
  unfold switchPass
  rw [bind_succeeds_iff]
  constructor
  · rintro ⟨q, hOwn, hRest⟩ sw hRead
    cases sw with
    | profile =>
        exact (profileSetSwitch_succeeds_iff p
          .profile).mp ⟨q, hOwn⟩
    | ofSection s =>
        exact (hSections q).mp hRest s
          (section_mem_initOrder s) hRead
  · intro hPresent
    have hOwn := (profileSetSwitch_succeeds_iff p
      .profile).mpr (hPresent .profile rfl)
    rcases hOwn with ⟨q, hOwn⟩
    refine ⟨q, hOwn, (hSections q).mpr ?_⟩
    intro s _ hNode
    exact hPresent (.ofSection s) hNode

end Profiles

end Universal7420

------------------------------------------------------------
-- The Leaf Pass
------------------------------------------------------------

namespace Universal7420

namespace Profiles

open Xml Fallible

/- A governor list that fits into its buffers. -/
def GovernorListFits
    (doc : Document)
    (id : ProfileName)
    (c : Cluster) : Prop :=
  ∀ node ∈ (doc.select (id.path ++
      ["cpu", c.element, "governor_data"])).head?,
    entryCount node.children < governorDataSize ∧
      ∀ child ∈ node.children, FitsEntry child

/- Copying counts the entries, and all of them fit. -/
theorem copyGovernorData_eq_ok
    {nodes : List Node}
    {index index' : Nat}
    {entries entries' : Nat → String × String}
    (hCopy :
      copyGovernorData nodes index entries =
        .ok (index', entries')) :
    index' = index + entryCount nodes ∧
      ∀ node ∈ nodes, FitsEntry node := by
  induction nodes generalizing index entries with
  | nil =>
      cases hCopy
      simp [entryCount]
  | cons node nodes ih =>
      rw [List.forall_mem_cons]
      unfold copyGovernorData at hCopy
      unfold FitsEntry
      cases hChildren : node.children with
      | nil =>
          simp only [hChildren] at hCopy
          rcases ih hCopy with ⟨hIndex, hFits⟩
          refine ⟨?_, trivial, hFits⟩
          simpa [entryCount, hChildren] using hIndex
      | cons child children =>
          simp only [hChildren] at hCopy
          cases hContent : child.content with
          | none =>
              simp only [hContent] at hCopy
              cases hCopy
          | some data =>
              simp only [hContent] at hCopy
              split at hCopy
              · rename_i hRoom
                rcases ih hCopy with ⟨hIndex, hFits⟩
                refine ⟨?_, ⟨hRoom.2.1, ?_⟩, hFits⟩
                · simp only [entryCount, List.countP_cons,
                    hChildren] at hIndex ⊢
                  simp
                  omega
                · simpa [hContent] using hRoom.2.2
              · cases hCopy

/- The copy succeeds exactly if the list fits. -/
theorem xmlGetCpugov_succeeds_iff
    {doc : Document}
    {id : ProfileName}
    (p : SecPowerProfile)
    (c : Cluster) :
    Succeeds (xmlGetCpugov doc id p c) ↔
      GovernorListFits doc id c := by
  unfold xmlGetCpugov GovernorListFits
  cases hSelect :
      doc.select
        (id.path ++
          ["cpu", c.element, "governor_data"]) with
  | nil =>
      exact iff_of_true (succeeds_ok p) (by simp)
  | cons node nodes =>
      simp only [List.head?_cons, Option.mem_some_iff,
        forall_eq']
      split
      · rename_i hEmpty
        have hNone : node.children = [] := by
          simpa using hEmpty
        refine iff_of_true (succeeds_ok p) ?_
        rw [hNone]
        simp [entryCount, governorDataSize]
      · rw [bind_succeeds_iff]
        constructor
        · rintro ⟨⟨index, entries⟩, hCopy, hLast⟩
          rcases copyGovernorData_eq_ok hCopy with
            ⟨hIndex, hFits⟩
          refine ⟨?_, hFits⟩
          by_contra hFull
          rw [Nat.zero_add] at hIndex
          simp only at hLast
          rw [if_neg (by rw [hIndex]; exact hFull)]
            at hLast
          rcases hLast with ⟨q, hLast⟩
          cases hLast
        · rintro ⟨hCount, hFits⟩
          have hRoom :
              0 + entryCount node.children <
                governorDataSize := by
            rw [Nat.zero_add]
            exact hCount
          rcases copyGovernorData_succeeds hFits hRoom
              (p.governorData c) with
            ⟨index, entries, hCopy, hIndex⟩
          refine ⟨(index, entries), hCopy, ?_⟩
          simp only [hIndex, if_true]
          exact succeeds_ok _

/- What a statement of the leaf pass needs. -/
def ActionLoadable
    (doc : Document)
    (id : ProfileName) :
    LoadAction → Prop
| .set l =>
    ChildPresent doc (id.path ++ l.path) ∧
      (readAt doc (id.path ++ l.path)).all
        l.kind.accepts = true
| .cpugov c => GovernorListFits doc id c

theorem loadStmt_succeeds_iff
    {doc : Document}
    {id : ProfileName}
    (p : SecPowerProfile)
    (stmt : LoadStmt) :
    Succeeds (loadStmt doc id p stmt) ↔
      (stmt.guards.all p.on = true →
        ActionLoadable doc id stmt.action) := by
  unfold loadStmt
  split
  · rename_i hOn
    rw [forall_prop_of_true hOn]
    cases stmt.action with
    | set l =>
        unfold profileSet
        rw [map_succeeds_iff]
        exact profileSetting_succeeds_iff
          (defaultText_accepted l) _
    | cpugov c =>
        exact xmlGetCpugov_succeeds_iff p c
  · rename_i hOff
    exact iff_of_true (succeeds_ok p)
      (fun hOn => absurd hOn hOff)

/- The pass needs what its statements need. -/
theorem leafPass_succeeds_iff
    {doc : Document}
    {id : ProfileName}
    (p : SecPowerProfile) :
    Succeeds (loadScript.foldlM (loadStmt doc id) p) ↔
      ∀ stmt ∈ loadScript,
        stmt.guards.all p.on = true →
          ActionLoadable doc id stmt.action := by
  apply foldlM_succeeds_iff
    (fun r => r.switches = p.switches)
  · intro stmt _ r hSame
    have hOn : r.on = p.on := by
      funext s
      simp [SecPowerProfile.on, hSame]
    rw [loadStmt_succeeds_iff, hOn]
  · intro stmt _ r r' hSame hStmt
    exact (loadStmt_eq_ok hStmt).1.trans hSame
  · rfl

end Profiles

end Universal7420

------------------------------------------------------------
-- Loadable Documents
------------------------------------------------------------

namespace Universal7420

namespace Profiles

open Xml Fallible

/-
  What a profile must look like in a document: its `<enabled>`
  nodes have children, and if it is enabled, so do its leaves
  in enabled sections, whose numbers parse and whose governor
  lists fit.
-/
structure ProfileLoadable
    (doc : Document)
    (id : ProfileName) : Prop where
  switches : SwitchesPresent doc id
  leaves :
    ownEnabled doc id = true →
      ∀ stmt ∈ loadScript,
        stmt.guards.all (fun s =>
          firstPassSwitch doc id (.ofSection s)) = true →
        ActionLoadable doc id stmt.action

/- One profile without a parent. -/
theorem loadProfileImpl_succeeds_iff
    {doc : Document}
    {id : ProfileName}
    (hRoot : extendsOf doc id = none)
    {store : Store}
    (hZero : store id = SecPowerProfile.zero) :
    Succeeds (loadProfileImpl doc store id) ↔
      ProfileLoadable doc id := by
  have hValues :
      ∀ p, switchPass doc id (store id) = .ok p →
        p.enabled = ownEnabled doc id ∧
          p.on = fun s =>
            firstPassSwitch doc id (.ofSection s) := by
    intro p hPass
    have hValue :=
      switchPass_switch (by rw [hZero]) hPass
    exact ⟨hValue .profile,
      funext (fun s => hValue (.ofSection s))⟩
  have hLeaves :
      ∀ p, switchPass doc id (store id) = .ok p →
        (Succeeds
            (if p.enabled = true then do
              let r ← inheritParent doc store id p
              loadScript.foldlM (loadStmt doc id) r
            else
              return p) ↔
          (ownEnabled doc id = true →
            ∀ stmt ∈ loadScript,
              stmt.guards.all (fun s =>
                firstPassSwitch doc id
                  (.ofSection s)) = true →
              ActionLoadable doc id stmt.action)) := by
    intro p hPass
    rcases hValues p hPass with ⟨hEnabled, hOn⟩
    rw [hEnabled]
    split
    · rename_i hOwn
      rw [forall_prop_of_true hOwn, ← hOn,
        ← leafPass_succeeds_iff]
      simp only [inheritParent, hRoot]
      rfl
    · rename_i hOff
      exact iff_of_true (succeeds_ok p)
        (fun hOwn => absurd hOwn hOff)
  unfold loadProfileImpl
  rw [bind_succeeds_iff]
  constructor
  · rintro ⟨p, hPass, hRest⟩
    exact ⟨(switchPass_succeeds_iff _).mp ⟨p, hPass⟩,
      (hLeaves p hPass).mp hRest⟩
  · intro hLoadable
    rcases (switchPass_succeeds_iff (store id)).mpr
      hLoadable.switches with ⟨p, hPass⟩
    exact ⟨p, hPass,
      (hLeaves p hPass).mpr hLoadable.leaves⟩

/- All profiles of a list, each loaded once. -/
theorem loadIntos_succeeds_iff
    {doc : Document}
    (hRoots : ∀ id, extendsOf doc id = none)
    {order : List ProfileName}
    (hNodup : order.Nodup)
    {store : Store}
    (hZero :
      ∀ id ∈ order, store id = SecPowerProfile.zero) :
    Succeeds (order.foldlM (loadInto doc) store) ↔
      ∀ id ∈ order, ProfileLoadable doc id := by
  induction order generalizing store with
  | nil =>
      exact iff_of_true (succeeds_ok store) (by simp)
  | cons id order ih =>
      rcases List.nodup_cons.mp hNodup with
        ⟨hFresh, hRestNodup⟩
      have hHead :
          Succeeds (loadInto doc store id) ↔
            ProfileLoadable doc id := by
        unfold loadInto
        rw [map_succeeds_iff]
        exact loadProfileImpl_succeeds_iff (hRoots id)
          (hZero id (by simp))
      have hTail :
          ∀ next, loadInto doc store id = .ok next →
            (Succeeds (order.foldlM (loadInto doc) next) ↔
              ∀ q ∈ order, ProfileLoadable doc q) := by
        intro next hFirst
        rcases bind_eq_ok_iff.mp hFirst with ⟨p, _, hNew⟩
        cases hNew
        apply ih hRestNodup
        intro q hq
        have hNe : q ≠ id := by
          intro hSame
          exact hFresh (hSame ▸ hq)
        rw [Function.update_of_ne hNe]
        exact hZero q (by simp [hq])
      rw [List.foldlM_cons, bind_succeeds_iff,
        List.forall_mem_cons]
      constructor
      · rintro ⟨next, hFirst, hRest⟩
        exact ⟨hHead.mp ⟨next, hFirst⟩,
          (hTail next hFirst).mp hRest⟩
      · rintro ⟨hFirst, hRest⟩
        rcases hHead.mpr hFirst with ⟨next, hNext⟩
        exact ⟨next, hNext, (hTail next hNext).mpr hRest⟩

/-
  The loader finishes on a document without `extends` exactly
  if all six profiles are loadable.
-/
theorem load_succeeds_iff
    (doc : Document)
    (hRoots : ∀ id, extendsOf doc id = none) :
    (∃ store, loadProfilesImpl doc = .ok store) ↔
      ∀ id : ProfileName, ProfileLoadable doc id := by
  have hNodup : ProfileName.loadOrder.Nodup := by
    decide
  have hZero :
      ∀ id ∈ ProfileName.loadOrder,
        (fun _ => SecPowerProfile.zero : Store) id =
          SecPowerProfile.zero :=
    fun _ _ => rfl
  refine (loadIntos_succeeds_iff hRoots hNodup hZero).trans ?_
  constructor
  · intro hLoadable id
    exact hLoadable id (mem_loadOrder id)
  · intro hLoadable id _
    exact hLoadable id

/- A document whose only profile is `screen_off`. -/
def screenOffDocument (children : List Node) : Document where
  nodes :=
    [.element "profiles" []
      [profileElement .screenOff none children]]

theorem screenOffDocument_roots
    (children : List Node)
    (id : ProfileName) :
    extendsOf (screenOffDocument children) id = none := by
  cases id <;> rfl

/- A profile with one section. -/
def ipaDocument : Document :=
  screenOffDocument
    [textElement "enabled" "true",
      .element "ipa" []
        [textElement "enabled" "true",
          textElement "control_temp" "45"]]

/- A plain profile is loaded. -/
theorem load_succeeds_plain :
    (loadProfilesImpl ipaDocument).toOption.isSome = true ∧
      ∀ id, ProfileLoadable ipaDocument id := by
  have hLoads :
      (loadProfilesImpl ipaDocument).toOption.isSome =
        true := by
    decide +kernel
  refine ⟨hLoads, ?_⟩
  apply (load_succeeds_iff _
    (screenOffDocument_roots _)).mp
  rcases Option.isSome_iff_exists.mp hLoads with
    ⟨store, hStore⟩
  refine ⟨store, ?_⟩
  cases hLoad : loadProfilesImpl ipaDocument with
  | error fault =>
      rw [hLoad] at hStore
      cases hStore
  | ok result =>
      rw [hLoad] at hStore
      cases hStore
      exact hLoad

/- The fault of a load, if there is one. -/
def faultOf
    (load : Except LoadFault Store) : Option LoadFault :=
  match load with
  | .ok _ => none
  | .error fault => some fault

/-
  Well-formed documents without `extends` that end the loader:
  an empty element, a number that does not parse, and a
  governor value of 64 bytes.
-/
theorem load_faults :
    (∀ children id,
      extendsOf (screenOffDocument children) id = none) ∧
    faultOf (loadProfilesImpl (screenOffDocument
        [.element "enabled" [] []])) =
      some .nullChild ∧
    faultOf (loadProfilesImpl (screenOffDocument
        [textElement "enabled" "true",
          .element "ipa" []
            [textElement "enabled" "true",
              textElement "control_temp" "warm"]])) =
      some .stoiThrows ∧
    faultOf (loadProfilesImpl (screenOffDocument
        [textElement "enabled" "true",
          .element "cpu" []
            [textElement "enabled" "true",
              .element "apollo" []
                [textElement "enabled" "true",
                  .element "governor_data" []
                    [textElement "target_loads"
                      (String.ofList
                        (List.replicate 64 '9'))]]]])) =
      some .bufferOverflow := by
  refine ⟨screenOffDocument_roots, ?_, ?_, ?_⟩
  · decide +kernel
  · decide +kernel
  · decide +kernel

end Profiles

end Universal7420
