import Universal7420.Power.LoaderTotality
import Universal7420.Power.StringObjects

/-
  Profiles that extend each other.

  The profiles that a profile extends form a chain of falling
  rank, as long as each of them is loaded before the ones that
  name it.  What the loader makes of a document of this kind
  is told here per profile: a record has its switches from the
  root of its chain and its leaves from the nearest profile
  with a node that is read, and its strings are objects that
  are copied and assigned in the load order.

  Main declarations:
    * `Universal7420.Profiles.chainOf`
    * `Universal7420.Profiles.InheritanceDocument`
    * `Universal7420.Profiles.AllEnabled`
    * `Universal7420.Profiles.RecordLoaded`
    * `Universal7420.Profiles.LoadedRight`
    * `Universal7420.Profiles.loadedRight_of_ordered`
    * `Universal7420.Profiles.succeeds_of_ordered`
-/

------------------------------------------------------------
-- Chains
------------------------------------------------------------

namespace Universal7420

namespace Profiles

open Xml Fallible StringObjects

/- A profile, its parent, the parent's parent, and so on. -/
def chainFrom
    (doc : Document) :
    Nat → ProfileName → List ProfileName
| 0, id => [id]
| n + 1, id =>
    match parentOf doc id with
    | none => [id]
    | some parent => id :: chainFrom doc n parent

/- Every parent has a smaller rank. -/
def chainOf
    (doc : Document)
    (id : ProfileName) : List ProfileName :=
  chainFrom doc id.rank id

def rootOf
    (doc : Document)
    (id : ProfileName) : ProfileName :=
  (chainOf doc id).getLast?.getD id

/- What is read of the nearest profile of which some is. -/
def nearestRead
    (doc : Document)
    (l : Leaf)
    (id : ProfileName) : Option String :=
  (chainOf doc id).findSome? fun q =>
    readAt doc (q.path ++ l.path)

/- The sections of a leaf are on in the root of the chain. -/
def sectionsOn
    (doc : Document)
    (l : Leaf)
    (id : ProfileName) : Bool :=
  l.sections.all fun s =>
    firstPassSwitch doc (rootOf doc id) (.ofSection s)

variable {doc : Document}
variable {id : ProfileName}

theorem parentOf_rank
    (hEarlier :
      ∀ id name,
        extendsOf doc id = some name → NamesEarlier id name)
    {parent : ProfileName}
    (hParent : parentOf doc id = some parent) :
    parent.rank < id.rank := by
  rcases Option.bind_eq_some_iff.mp hParent with
    ⟨name, hExtends, hName⟩
  rcases (hEarlier id name hExtends).parent with
    ⟨parent', hName', hRank⟩
  rw [hName] at hName'
  cases hName'
  exact hRank

theorem chainFrom_succ
    (hEarlier :
      ∀ id name,
        extendsOf doc id = some name → NamesEarlier id name)
    {n : Nat}
    (hRank : id.rank ≤ n) :
    chainFrom doc (n + 1) id = chainFrom doc n id := by
  induction n generalizing id with
  | zero =>
      unfold chainFrom
      cases hParent : parentOf doc id with
      | none => rfl
      | some parent =>
          have hLess := parentOf_rank hEarlier hParent
          omega
  | succ n ih =>
      rw [chainFrom, chainFrom]
      cases hParent : parentOf doc id with
      | none => rfl
      | some parent =>
          have hLess := parentOf_rank hEarlier hParent
          dsimp only
          rw [ih (by omega)]

theorem chainFrom_eq
    (hEarlier :
      ∀ id name,
        extendsOf doc id = some name → NamesEarlier id name)
    {n : Nat}
    (hRank : id.rank ≤ n) :
    chainFrom doc n id = chainOf doc id := by
  induction hRank with
  | refl => rfl
  | step hRank ih => rw [chainFrom_succ hEarlier hRank, ih]

theorem chainOf_root
    (hRoot : parentOf doc id = none) :
    chainOf doc id = [id] := by
  unfold chainOf
  cases id.rank with
  | zero => rfl
  | succ n => rw [chainFrom, hRoot]

theorem chainOf_child
    (hEarlier :
      ∀ id name,
        extendsOf doc id = some name → NamesEarlier id name)
    {parent : ProfileName}
    (hParent : parentOf doc id = some parent) :
    chainOf doc id = id :: chainOf doc parent := by
  have hRank := parentOf_rank hEarlier hParent
  obtain ⟨n, hn⟩ : ∃ n, id.rank = n + 1 :=
    ⟨id.rank - 1, by omega⟩
  rw [chainOf, hn, chainFrom, hParent]
  dsimp only
  rw [chainFrom_eq hEarlier (by omega)]

theorem rootOf_root
    (hRoot : parentOf doc id = none) :
    rootOf doc id = id := by
  simp [rootOf, chainOf_root hRoot]

theorem chainOf_ne_nil
    (id : ProfileName) :
    chainOf doc id ≠ [] := by
  unfold chainOf chainFrom
  split
  · simp
  · split <;> simp

theorem rootOf_child
    (hEarlier :
      ∀ id name,
        extendsOf doc id = some name → NamesEarlier id name)
    {parent : ProfileName}
    (hParent : parentOf doc id = some parent) :
    rootOf doc id = rootOf doc parent := by
  unfold rootOf
  rw [chainOf_child hEarlier hParent, List.getLast?_cons,
    List.getLast?_eq_some_getLast (chainOf_ne_nil parent)]
  rfl

/- A profile reads its own node, or what its parent reads. -/
theorem nearestRead_eq
    (hEarlier :
      ∀ id name,
        extendsOf doc id = some name → NamesEarlier id name)
    (l : Leaf)
    (id : ProfileName) :
    nearestRead doc l id =
      (readAt doc (id.path ++ l.path)).or
        ((parentOf doc id).bind (nearestRead doc l)) := by
  unfold nearestRead
  cases hParent : parentOf doc id with
  | none =>
      rw [chainOf_root hParent]
      cases hOwn : readAt doc (id.path ++ l.path) with
      | none => simp [hOwn]
      | some c => simp [hOwn]
  | some parent =>
      rw [chainOf_child hEarlier hParent]
      cases hOwn : readAt doc (id.path ++ l.path) with
      | none => simp [hOwn]
      | some c => simp [hOwn]

theorem sectionsOn_child
    (hEarlier :
      ∀ id name,
        extendsOf doc id = some name → NamesEarlier id name)
    {parent : ProfileName}
    (hParent : parentOf doc id = some parent)
    (l : Leaf) :
    sectionsOn doc l id = sectionsOn doc l parent := by
  unfold sectionsOn
  rw [rootOf_child hEarlier hParent]

end Profiles

end Universal7420

------------------------------------------------------------
-- Documents
------------------------------------------------------------

namespace Universal7420

namespace Profiles

open Xml Fallible StringObjects

/-
  Every parent is loaded earlier, the nodes that are present
  have texts and no text has a null character.
-/
structure InheritanceDocument
    (doc : Document) : Prop where
  extendsEarlier :
    ∀ id name,
      extendsOf doc id = some name → NamesEarlier id name
  switchText :
    ∀ (id : ProfileName) (sw : Switch),
      textAt doc (id.path ++ sw.path) ≠ some ""
  leafText :
    ∀ (id : ProfileName) (l : Leaf),
      textAt doc (id.path ++ l.path) ≠ some ""
  plain :
    ∀ (id : ProfileName) (l : Leaf) (text : String),
      textAt doc (id.path ++ l.path) = some text →
      0 ∉ bytes text

/- The loader finds every profile enabled. -/
def AllEnabled
    (doc : Document) : Prop :=
  ∀ id : ProfileName,
    (readAt doc
      (id.path ++ Switch.profile.path)).any toBool = true

structure EnabledDocument
    (doc : Document) : Prop
    extends InheritanceDocument doc where
  enabled : AllEnabled doc

end Profiles

end Universal7420

------------------------------------------------------------
-- Records On A Chain
------------------------------------------------------------

namespace Universal7420

namespace Profiles

open Xml Fallible StringObjects

variable {doc : Document}
variable {id : ProfileName}

/- A member before the leaf pass has what the parent reads. -/
def StartsFrom
    (text : Option String)
    (k : Kind)
    (old : Setting k.Val) : Prop :=
  match text with
  | some c => k.convert c = .ok old.value ∧ old.set = true
  | none => old.set = false

theorem SettingLoaded.startsFrom
    {text : Option String}
    {k : Kind}
    {defaultText : String}
    {new : Setting k.Val}
    (hLoaded :
      SettingLoaded text k defaultText ⟨k.zero, false⟩ new) :
    StartsFrom text k new := by
  cases text with
  | some c => exact hLoaded
  | none =>
      have hDefault :
          k.convert defaultText = .ok new.value ∧
            new.set = false := by
        simpa [SettingLoaded] using hLoaded
      exact hDefault.2

/- An own text decides, and then the text of the parent. -/
theorem StartsFrom.loaded
    {own text : Option String}
    {k : Kind}
    {defaultText : String}
    {old new : Setting k.Val}
    (hStart : StartsFrom text k old)
    (hLoaded : SettingLoaded own k defaultText old new) :
    SettingLoaded (own.or text) k defaultText
      ⟨k.zero, false⟩ new := by
  cases own with
  | some c => exact hLoaded
  | none =>
      cases text with
      | some c =>
          have hSame : new = old := by
            simpa [SettingLoaded, hStart.2] using hLoaded
          rw [hSame]
          exact hStart
      | none =>
          have hOff : old.set = false := hStart
          simpa [SettingLoaded, hOff] using hLoaded

/- The entries of a cluster stand below its sections. -/
theorem guards_of_cpugov
    {stmt : LoadStmt}
    (hIn : stmt ∈ loadScript)
    {c : Cluster}
    (hAction : stmt.action = .cpugov c) :
    stmt.guards = (Leaf.governor c).sections := by
  have hScript :
      ∀ stmt ∈ loadScript,
        ∀ c ∈ [Cluster.apollo, .atlas],
          stmt.action = .cpugov c →
          stmt.guards = (Leaf.governor c).sections := by
    decide
  exact hScript stmt hIn c (by cases c <;> decide) hAction

theorem cpugov_mem_loadScript
    (c : Cluster) :
    ⟨(Leaf.governor c).sections, .cpugov c⟩ ∈
      loadScript := by
  cases c <;> decide

/- A record after its load. -/
structure RecordLoaded
    (doc : Document)
    (id : ProfileName)
    (p : SecPowerProfile) : Prop where
  on :
    ∀ s,
      p.on s =
        firstPassSwitch doc (rootOf doc id) (.ofSection s)
  leaf :
    ∀ l,
      sectionsOn doc l id = true →
      SettingLoaded (nearestRead doc l id) l.kind
        l.defaultText ⟨l.kind.zero, false⟩ (p.leaves l)
  governor :
    ∀ c,
      sectionsOn doc (.governor c) id = true →
      GovernorListFits doc id c
  enabled : p.enabled = true

/- A record when its leaf pass begins. -/
structure PassStarts
    (doc : Document)
    (id : ProfileName)
    (r : SecPowerProfile) : Prop where
  on :
    ∀ s,
      r.on s =
        firstPassSwitch doc (rootOf doc id) (.ofSection s)
  leaf :
    ∀ l,
      sectionsOn doc l id = true →
      StartsFrom ((parentOf doc id).bind (nearestRead doc l))
        l.kind (r.leaves l)
  enabled : r.enabled = true

theorem sections_all_on
    {p : SecPowerProfile}
    (hOn :
      ∀ s,
        p.on s =
          firstPassSwitch doc (rootOf doc id) (.ofSection s))
    (l : Leaf) :
    l.sections.all p.on = sectionsOn doc l id := by
  unfold sectionsOn
  rw [show p.on = _ from funext hOn]

/- The leaf pass of a record that starts right. -/
theorem PassStarts.recordLoaded
    (hDoc : EnabledDocument doc)
    {r p : SecPowerProfile}
    (hStart : PassStarts doc id r)
    (hPass :
      loadScript.foldlM (Profiles.loadStmt doc id) r =
        .ok p) :
    RecordLoaded doc id p where
  on := by
    intro s
    rw [← hStart.on s]
    simp [SecPowerProfile.on, loadStmts_switches hPass]
  leaf := by
    intro l hOn
    rw [nearestRead_eq hDoc.extendsEarlier]
    refine (hStart.leaf l hOn).loaded (leafPass_leaf hPass ?_)
    rw [← sections_all_on hStart.on l] at hOn
    exact List.all_eq_true.mp hOn
  governor := by
    intro c hOn
    apply
      (leafPass_succeeds_iff r).mp ⟨p, hPass⟩ _
        (cpugov_mem_loadScript c)
    exact (sections_all_on hStart.on (.governor c)).trans hOn
  enabled := by
    rw [← hStart.enabled]
    simp [SecPowerProfile.enabled, loadStmts_switches hPass]

theorem switchPass_enabled
    (hDoc : EnabledDocument doc)
    {store : Store}
    (hZero : store id = SecPowerProfile.zero)
    {p : SecPowerProfile}
    (hSwitches : switchPass doc id (store id) = .ok p) :
    p.enabled = true := by
  have hValue :=
    switchPass_switch (by rw [hZero]) hSwitches .profile
  rw [SecPowerProfile.enabled, hValue]
  exact hDoc.enabled id

/-
  A record starts from nothing, or from the loaded record of
  its parent.
-/
theorem passStarts_of_inherit
    (hDoc : EnabledDocument doc)
    {store : Store}
    (hZero : store id = SecPowerProfile.zero)
    (hParents :
      ∀ q,
        parentOf doc id = some q →
        RecordLoaded doc q (store q))
    {p r : SecPowerProfile}
    (hSwitches : switchPass doc id (store id) = .ok p)
    (hInherit : inheritParent doc store id p = .ok r) :
    PassStarts doc id r := by
  cases hParent : parentOf doc id with
  | none =>
      have hExtends : extendsOf doc id = none := by
        cases hExtends : extendsOf doc id with
        | none => rfl
        | some name =>
            rcases
              (hDoc.extendsEarlier id name hExtends).parent
              with ⟨parent, hName, _⟩
            simp [parentOf, hExtends, hName] at hParent
      rw [inheritParent_none hExtends hInherit]
      refine
        ⟨?_, ?_, switchPass_enabled hDoc hZero hSwitches⟩
      · intro s
        rw [rootOf_root hParent]
        exact
          switchPass_switch (by rw [hZero]) hSwitches
            (.ofSection s)
      · intro l _
        rw [hParent, switchPass_leaves hSwitches, hZero]
        rfl
  | some q =>
      have hRank := parentOf_rank hDoc.extendsEarlier hParent
      have hNe : q ≠ id := by
        rintro rfl
        exact Nat.lt_irrefl _ hRank
      rcases Option.bind_eq_some_iff.mp hParent with
        ⟨name, hExtends, hName⟩
      rw [inheritParent_some hExtends hName hNe hInherit]
      have hLoaded := hParents q hParent
      refine ⟨?_, ?_, hLoaded.enabled⟩
      · intro s
        rw [rootOf_child hDoc.extendsEarlier hParent]
        exact hLoaded.on s
      · intro l hOn
        rw [sectionsOn_child hDoc.extendsEarlier hParent]
          at hOn
        rw [hParent]
        exact (hLoaded.leaf l hOn).startsFrom

end Profiles

end Universal7420

------------------------------------------------------------
-- Strings On A Chain
------------------------------------------------------------

namespace Universal7420

namespace Profiles

open Xml Fallible StringObjects SharedText

variable {doc : Document}
variable {id : ProfileName}
variable {made : List ProfileName}
variable {loaded loaded' : Loaded}

/- The text that a profile assigns to a string. -/
def ownAssigned
    (doc : Document)
    (l : Leaf)
    (id : ProfileName) : Option String :=
  if sectionsOn doc l id then
    match readAt doc (id.path ++ l.path) with
    | some c => some c
    | none =>
        if ((parentOf doc id).bind
            (nearestRead doc l)).isSome then
          none
        else
          some l.defaultText
  else
    none

/- The objects of a string, as the document makes them. -/
def stringPlan
    (doc : Document)
    (l : Leaf) : Plan ProfileName UInt8 where
  parent := parentOf doc
  assigned := fun id => (ownAssigned doc l id).map bytes

theorem PassStarts.assignedText_eq
    {r : SecPowerProfile}
    (hStart : PassStarts doc id r)
    (l : Leaf) :
    assignedText doc id r l = ownAssigned doc l id := by
  unfold assignedText ownAssigned
  rw [sections_all_on hStart.on l]
  cases hOn : sectionsOn doc l id with
  | false => rfl
  | true =>
      have hLeaf := hStart.leaf l hOn
      simp only [if_true]
      cases readAt doc (id.path ++ l.path) with
      | some c => rfl
      | none =>
          cases hText :
              (parentOf doc id).bind (nearestRead doc l) with
          | some c =>
              rw [hText] at hLeaf
              simp [hLeaf.2]
          | none =>
              rw [hText] at hLeaf
              have hOff : (r.leaves l).set = false := hLeaf
              simp [hOff]

/- What is loaded of the profiles made so far. -/
structure LoadedRight
    (doc : Document)
    (made : List ProfileName)
    (loaded : Loaded) : Prop where
  zero :
    ∀ id,
      id ∉ made → loaded.store id = SecPowerProfile.zero
  record :
    ∀ id ∈ made, RecordLoaded doc id (loaded.store id)
  strings :
    ∀ l,
      l.kind = .string →
      loaded.strings l =
        run libcxx (stringPlan doc l) made

theorem initial_right :
    LoadedRight doc [] Loaded.initial where
  zero := fun _ _ => rfl
  record := by simp
  strings := fun _ _ => rfl

/- One more profile is loaded. -/
theorem LoadedRight.step
    (hDoc : EnabledDocument doc)
    (hRight : LoadedRight doc made loaded)
    (hNew : id ∉ made)
    (hParent : ∀ q, parentOf doc id = some q → q ∈ made)
    (hLoad :
      StringObjects.loadInto doc loaded id = .ok loaded') :
    LoadedRight doc (made ++ [id]) loaded' := by
  have hZero := hRight.zero id hNew
  rcases bind_eq_ok_iff.mp hLoad with ⟨state, hImpl, hSame⟩
  cases hSame
  rcases bind_eq_ok_iff.mp hImpl with ⟨p, hSwitches, hRest⟩
  rw [if_pos (switchPass_enabled hDoc hZero hSwitches)]
    at hRest
  rcases bind_eq_ok_iff.mp hRest with ⟨r, hInherit, hPass⟩
  have hStart :=
    passStarts_of_inherit hDoc hZero
      (fun q hq => hRight.record q (hParent q hq)) hSwitches
      hInherit
  have hRecordPass :
      loadScript.foldlM (Profiles.loadStmt doc id) r =
        .ok state.1 := by
    have hMap :=
      @loadStmts_record doc id loadScript
        (r, memcpyStrings doc id loaded.strings)
    rw [hPass] at hMap
    exact hMap.symm
  refine
    { zero := ?_
      record := ?_
      strings := ?_ }
  · intro q hOut
    have hNe : q ≠ id := by
      rintro rfl
      exact hOut (List.mem_append_right _ (by simp))
    dsimp only
    rw [Function.update_of_ne hNe]
    exact
      hRight.zero q
        (fun hIn => hOut (List.mem_append_left _ hIn))
  · intro q hIn
    dsimp only
    rcases List.mem_append.mp hIn with hMade | hLast
    · have hNe : q ≠ id := by
        rintro rfl
        exact hNew hMade
      rw [Function.update_of_ne hNe]
      exact hRight.record q hMade
    · rw [List.mem_singleton.mp hLast, Function.update_self]
      exact hStart.recordLoaded hDoc hRecordPass
  · intro l hString
    have hTurn := leafPass_string hString hPass
    rw [hStart.assignedText_eq l] at hTurn
    have hCopy :
        memcpyStrings doc id loaded.strings l =
          inherit (stringPlan doc l) (loaded.strings l) id := by
      unfold memcpyStrings inherit stringPlan
      dsimp only
      cases parentOf doc id with
      | none => rfl
      | some parent => rfl
    rw [run_snoc, ← hRight.strings l hString]
    dsimp only
    rw [hTurn, hCopy]
    unfold turn
    cases hText : ownAssigned doc l id with
    | none => simp [stringPlan, hText]
    | some c => simp [stringPlan, hText]

/- Every parent comes earlier in the load order. -/
theorem ordered_loadOrder
    (hDoc : EnabledDocument doc)
    (l : Leaf) :
    Ordered (stringPlan doc l) ProfileName.loadOrder := by
  refine
    @ordered_of_rank _ _ _ ProfileName.rank
      ProfileName.loadOrder [] ?_ ?_
  · rw [List.append_nil]
    exact
      (by decide :
        ProfileName.loadOrder.Pairwise
          (fun a b => a.rank < b.rank))
  · intro id parent hParent
    exact
      ⟨List.mem_append_left _ (mem_loadOrder parent),
        parentOf_rank hDoc.extendsEarlier hParent⟩

end Profiles

end Universal7420

------------------------------------------------------------
-- Loads That Finish
------------------------------------------------------------

namespace Universal7420

namespace Profiles

open Xml Fallible StringObjects SharedText

variable {doc : Document}
variable {id : ProfileName}
variable {made : List ProfileName}
variable {loaded : Loaded}

/- A node with a text has a child. -/
theorem childPresent_of_text
    {path : List String}
    (hText : textAt doc path ≠ some "") :
    ChildPresent doc path := by
  intro node hNode hNone
  apply hText
  unfold textAt
  rw [Option.mem_def.mp hNode]
  simp [Node.ownText, hNone]

/- The statement of a leaf stands below its sections. -/
theorem guards_of_set
    {stmt : LoadStmt}
    (hIn : stmt ∈ loadScript)
    {l : Leaf}
    (hAction : stmt.action = .set l) :
    stmt.guards = l.sections := by
  have hNamed :
      stmt ∈ loadScript.filter
        (fun stmt => stmt.action = .set l) :=
    List.mem_filter.mpr ⟨hIn, by simpa using hAction⟩
  rw [loadScript_filter l] at hNamed
  rw [List.mem_singleton.mp hNamed]

/- The next profile loads if what it reads converts. -/
theorem LoadedRight.succeeds
    (hDoc : EnabledDocument doc)
    (hRight : LoadedRight doc made loaded)
    (hNew : id ∉ made)
    (hParent : ∀ q, parentOf doc id = some q → q ∈ made)
    (hReads :
      ∀ l,
        sectionsOn doc l id = true →
        (readAt doc (id.path ++ l.path)).all
          l.kind.accepts = true)
    (hFits :
      ∀ c,
        sectionsOn doc (.governor c) id = true →
        GovernorListFits doc id c) :
    Succeeds (StringObjects.loadInto doc loaded id) := by
  have hZero := hRight.zero id hNew
  have hSwitches :
      Succeeds (switchPass doc id (loaded.store id)) := by
    apply (switchPass_succeeds_iff _).mpr
    intro sw _
    exact childPresent_of_text (hDoc.switchText id sw)
  have hLeaves :
      ∀ r,
        PassStarts doc id r →
        Succeeds
          (loadScript.foldlM (Profiles.loadStmt doc id)
            r) := by
    intro r hStart
    apply (leafPass_succeeds_iff r).mpr
    intro stmt hIn hOn
    cases hAction : stmt.action with
    | set l =>
        rw [guards_of_set hIn hAction,
          sections_all_on hStart.on l] at hOn
        exact
          ⟨childPresent_of_text (hDoc.leafText id l),
            hReads l hOn⟩
    | cpugov c =>
        rw [guards_of_cpugov hIn hAction,
          sections_all_on hStart.on (.governor c)] at hOn
        exact hFits c hOn
  have hRecord :
      Succeeds
        (Profiles.loadProfileImpl doc loaded.store id) := by
    unfold Profiles.loadProfileImpl
    apply hSwitches.bind
    intro p hPass
    rw [if_pos (switchPass_enabled hDoc hZero hPass)]
    have hInherit :
        Succeeds (inheritParent doc loaded.store id p) := by
      unfold inheritParent
      cases hExtends : extendsOf doc id with
      | none => exact succeeds_ok p
      | some name =>
          rcases
            (hDoc.extendsEarlier id name hExtends).parent
            with ⟨parent, hName, _⟩
          simp only [hName]
          exact succeeds_ok _
    apply hInherit.bind
    intro r hr
    apply hLeaves
    exact
      passStarts_of_inherit hDoc hZero
        (fun q hq => hRight.record q (hParent q hq)) hPass hr
  rw [← loadProfileImpl_record loaded] at hRecord
  unfold StringObjects.loadInto
  cases hImpl : StringObjects.loadProfileImpl doc loaded id with
  | error e =>
      rw [hImpl] at hRecord
      rcases hRecord with ⟨p, hNone⟩
      cases hNone
  | ok state => exact succeeds_ok _

theorem foldlM_snoc
    (made : List ProfileName)
    (id : ProfileName) :
    (made ++ [id]).foldlM (StringObjects.loadInto doc)
        Loaded.initial =
      (made.foldlM (StringObjects.loadInto doc)
        Loaded.initial >>= fun loaded =>
          StringObjects.loadInto doc loaded id) := by
  rw [List.foldlM_append]
  simp

theorem loadedRight_of_ordered
    (hDoc : EnabledDocument doc)
    {l : Leaf}
    (hOrdered : Ordered (stringPlan doc l) made)
    (hLoad :
      made.foldlM (StringObjects.loadInto doc)
        Loaded.initial = .ok loaded) :
    LoadedRight doc made loaded := by
  induction hOrdered generalizing loaded with
  | nil =>
      cases hLoad
      exact initial_right
  | snoc _ hNew hParent ih =>
      rw [foldlM_snoc] at hLoad
      rcases bind_eq_ok_iff.mp hLoad with
        ⟨before, hBefore, hLast⟩
      exact (ih hBefore).step hDoc hNew hParent hLast

theorem succeeds_of_ordered
    (hDoc : EnabledDocument doc)
    (hReads :
      ∀ id l,
        sectionsOn doc l id = true →
        (readAt doc (id.path ++ l.path)).all
          l.kind.accepts = true)
    (hFits :
      ∀ id c,
        sectionsOn doc (.governor c) id = true →
        GovernorListFits doc id c)
    {l : Leaf}
    (hOrdered : Ordered (stringPlan doc l) made) :
    Succeeds
      (made.foldlM (StringObjects.loadInto doc)
        Loaded.initial) := by
  induction hOrdered with
  | nil => exact succeeds_ok _
  | snoc hMade hNew hParent ih =>
      rw [foldlM_snoc]
      apply ih.bind
      intro before hBefore
      exact
        (loadedRight_of_ordered hDoc hMade hBefore).succeeds
          hDoc hNew hParent (hReads _) (hFits _)

end Profiles

end Universal7420
