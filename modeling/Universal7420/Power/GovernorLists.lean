import Universal7420.Power.LoaderTotality
import Universal7420.Power.Hal

/-
  The governor parameters of a loaded profile.

  The list lives in an array that ends with an empty name.  A
  profile copies the whole array of its parent and overwrites
  the front of it with its own entries, if its node has any
  content.  Behind the new end the old entries stay, but
  `setProfile` does not come to them.  Of an entry the content
  of the first child is taken, which is a comment if one
  stands in front of the text.

  Main declarations:
    * `Universal7420.Profiles.entriesOf`
    * `Universal7420.Profiles.readsOf`
    * `Universal7420.Profiles.governorList`
    * `Universal7420.Profiles.Holds`
    * `Universal7420.Profiles.copyGovernorData_stored`
    * `Universal7420.Profiles.governorDataOps_eq`
    * `Universal7420.Profiles.governor_list_iff`
-/

------------------------------------------------------------
-- Nodes And Entries
------------------------------------------------------------

namespace Universal7420

namespace Profiles

open Xml Fallible

/- The name and the text of a child that has a text. -/
def pair (node : Node) : Option (String × String) :=
  if node.ownText = "" then none
  else some (node.name, node.ownText)

/- The pairs of a node, in document order. -/
def entriesOf (nodes : List Node) : List (String × String) :=
  nodes.filterMap pair

/- What the loop takes of a child: its first child's content. -/
def readPair (node : Node) : Option (String × String) :=
  node.children.head?.bind fun child =>
    child.content.map fun data => (node.name, data)

def readsOf (nodes : List Node) : List (String × String) :=
  nodes.filterMap readPair

/- The path of the governor node of a cluster. -/
def governorPath
    (id : ProfileName)
    (c : Cluster) : List String :=
  id.path ++ ["cpu", c.element, "governor_data"]

/- The children of the governor node, if it is there. -/
def governorNodes
    (doc : Document)
    (id : ProfileName)
    (c : Cluster) : List Node :=
  ((doc.select (governorPath id c)).head?.map
    Node.children).getD []

/-
  At most 63 pairs, whose names and texts fit their buffers;
  any white space and comments may stand between and in them.
  The name of an element is not empty.
-/
structure GovernorContent
    (nodes : List Node) : Prop where
  count : (entriesOf nodes).length < governorDataSize
  fits :
    ∀ entry ∈ entriesOf nodes,
      entry.1.utf8ByteSize < governorDataSize ∧
        entry.2.utf8ByteSize < governorDataSize
  named :
    ∀ node ∈ nodes, node.children ≠ [] → node.name ≠ ""

/- The nearest profile whose governor node has any content. -/
def nearestContent
    (doc : Document)
    (chain : List ProfileName)
    (c : Cluster) : Option ProfileName :=
  chain.find? (fun q => governorNodes doc q c ≠ [])

/- The pairs of this profile. -/
def governorList
    (doc : Document)
    (chain : List ProfileName)
    (c : Cluster) : List (String × String) :=
  match nearestContent doc chain c with
  | some q => entriesOf (governorNodes doc q c)
  | none => []

/- What the loop takes of this profile. -/
def governorReads
    (doc : Document)
    (chain : List ProfileName)
    (c : Cluster) : List (String × String) :=
  match nearestContent doc chain c with
  | some q => readsOf (governorNodes doc q c)
  | none => []

/-
  Every child that has a content has a text, and its first
  child is the whole of it.
-/
def TextsFirst (nodes : List Node) : Prop :=
  ∀ node ∈ nodes,
    node.children ≠ [] →
      (pair node).isSome = true ∧
        readPair node = pair node

instance (nodes : List Node) :
    Decidable (TextsFirst nodes) := by
  unfold TextsFirst
  infer_instance

end Profiles

end Universal7420

------------------------------------------------------------
-- Arrays With An End
------------------------------------------------------------

namespace Universal7420

namespace Profiles

/- The array starts with these entries and ends after them. -/
structure Holds
    (entries : Nat → String × String)
    (list : List (String × String)) : Prop where
  room : list.length < governorDataSize
  entry :
    ∀ k (hk : k < list.length), entries k = list[k]
  named : ∀ entry ∈ list, entry.1 ≠ ""
  last : (entries list.length).1 = ""

/- A zeroed array holds no entries. -/
theorem holds_zero (c : Cluster) :
    Holds (SecPowerProfile.zero.governorData c) [] where
  room := by decide
  entry := by simp
  named := by simp
  last := rfl

variable {entries : Nat → String × String}
variable {list : List (String × String)}

/- The entries before the first empty name. -/
theorem Holds.takeWhile
    (hHolds : Holds entries list) :
    ((List.range 64).map entries).takeWhile
        (fun entry => entry.1 ≠ "") = list := by
  have hRoom : list.length < 64 := hHolds.room
  have hFront :
      ((List.range 64).map entries).take list.length =
        list := by
    apply List.ext_getElem
    · simp
      omega
    · intro k hk hk'
      simp [hHolds.entry k hk']
  have hBack :
      ((List.range 64).map entries).drop list.length =
        entries list.length ::
          ((List.range 64).map entries).drop
            (list.length + 1) := by
    rw [List.drop_eq_getElem_cons (by simpa using hRoom)]
    simp
  rw [← List.take_append_drop list.length
    ((List.range 64).map entries), hFront,
    List.takeWhile_append_of_pos
      (by simpa using hHolds.named), hBack]
  simp [hHolds.last]

/- `setProfile` writes the entries and stops inside the array. -/
theorem governorDataOps_eq
    {data : SecPowerProfile}
    {c : Cluster}
    (core : Nat)
    (hHolds : Holds (data.governorData c) list) :
    Power.governorDataOps data c core =
      list.map (fun entry =>
        .writeCpuGov core entry.1 (.string entry.2)) := by
  have hEnds :
      ¬ ((List.range 64).map (data.governorData c)).all
        (fun entry => entry.1 ≠ "") = true := by
    intro hAll
    have hMem :
        data.governorData c list.length ∈
          (List.range 64).map (data.governorData c) :=
      List.mem_map_of_mem (List.mem_range.mpr hHolds.room)
    have hNamed := List.all_eq_true.mp hAll _ hMem
    simp [hHolds.last] at hNamed
  simp only [Power.governorDataOps]
  rw [hHolds.takeWhile, if_neg hEnds, List.append_nil]

end Profiles

end Universal7420

------------------------------------------------------------
-- Copying A List
------------------------------------------------------------

namespace Universal7420

namespace Profiles

open Xml Fallible

/- The array with a list stored from an index on. -/
def stored
    (entries : Nat → String × String)
    (index : Nat)
    (list : List (String × String)) :
    Nat → String × String :=
  fun k =>
    if index ≤ k then (list[k - index]?).getD (entries k)
    else entries k

theorem stored_nil
    (entries : Nat → String × String)
    (index : Nat) :
    stored entries index [] = entries := by
  funext k
  simp [stored]

theorem stored_cons
    (entries : Nat → String × String)
    (index : Nat)
    (entry : String × String)
    (list : List (String × String)) :
    stored entries index (entry :: list) =
      stored (Function.update entries index entry)
        (index + 1) list := by
  funext k
  unfold stored
  by_cases hLater : index + 1 ≤ k
  · have hShift : k - index = k - (index + 1) + 1 := by
      omega
    have hOther : k ≠ index := by
      omega
    rw [if_pos (by omega), if_pos hLater, hShift,
      List.getElem?_cons_succ, Function.update_of_ne hOther]
  · rw [if_neg hLater]
    by_cases hSame : k = index
    · simp [hSame]
    · rw [if_neg (by omega), Function.update_of_ne hSame]

/- The children that are not skipped have a content. -/
def ContentsThere (nodes : List Node) : Prop :=
  ∀ node ∈ nodes,
    node.children ≠ [] → (readPair node).isSome = true

theorem contentsThere_of_fits
    {nodes : List Node}
    (hFits : ∀ node ∈ nodes, FitsEntry node) :
    ContentsThere nodes := by
  intro node hNode hSome
  have hEntry := hFits node hNode
  unfold FitsEntry at hEntry
  cases hChildren : node.children with
  | nil => exact absurd hChildren hSome
  | cons child children =>
      simp only [hChildren] at hEntry
      cases hContent : child.content with
      | none => simp [hContent] at hEntry
      | some data =>
          simp [readPair, hChildren, hContent]

/- The loop stores what it reads, in order. -/
theorem copyGovernorData_stored
    {nodes : List Node}
    {index index' : Nat}
    {entries entries' : Nat → String × String}
    (hCopy :
      copyGovernorData nodes index entries =
        .ok (index', entries')) :
    index' = index + (readsOf nodes).length ∧
      entries' = stored entries index (readsOf nodes) := by
  induction nodes generalizing index entries with
  | nil =>
      cases hCopy
      exact ⟨rfl, (stored_nil _ _).symm⟩
  | cons node nodes ih =>
      unfold copyGovernorData at hCopy
      cases hChildren : node.children with
      | nil =>
          have hSkip :
              readsOf (node :: nodes) = readsOf nodes :=
            List.filterMap_cons_none
              (by simp [readPair, hChildren])
          simp only [hChildren] at hCopy
          rw [hSkip]
          exact ih hCopy
      | cons child children =>
          simp only [hChildren] at hCopy
          cases hContent : child.content with
          | none =>
              simp [hContent] at hCopy
          | some data =>
              have hCons :
                  readsOf (node :: nodes) =
                    (node.name, data) :: readsOf nodes :=
                List.filterMap_cons_some
                  (by simp [readPair, hChildren, hContent])
              simp only [hContent] at hCopy
              split at hCopy
              · rcases ih hCopy with ⟨hIndex, hEntries⟩
                rw [hCons, List.length_cons, stored_cons]
                exact ⟨by omega, hEntries⟩
              · cases hCopy

/- A text is one of a node with children. -/
theorem children_of_entry
    {node : Node}
    {entry : String × String}
    (hEntry : pair node = some entry) :
    node.children ≠ [] := by
  intro hNone
  have hEmpty : node.ownText = "" := by
    simp [Node.ownText, hNone]
  rw [pair, if_pos hEmpty] at hEntry
  cases hEntry

/- There are as many contents as texts, or more. -/
theorem entriesOf_length_le
    {nodes : List Node}
    (hThere : ContentsThere nodes) :
    (entriesOf nodes).length ≤ (readsOf nodes).length := by
  induction nodes with
  | nil => exact Nat.le_refl 0
  | cons node nodes ih =>
      rcases List.forall_mem_cons.mp hThere with
        ⟨hNode, hRest⟩
      have hTail := ih hRest
      cases hEntry : pair node with
      | none =>
          rw [entriesOf, List.filterMap_cons_none hEntry]
          have hMore :
              (readsOf nodes).Sublist
                (readsOf (node :: nodes)) :=
            (List.sublist_cons_self node nodes).filterMap
              readPair
          exact Nat.le_trans hTail hMore.length_le
      | some entry =>
          rcases Option.isSome_iff_exists.mp
              (hNode (children_of_entry hEntry)) with
            ⟨read, hRead⟩
          rw [entriesOf, List.filterMap_cons_some hEntry,
            readsOf, List.filterMap_cons_some hRead]
          exact Nat.succ_le_succ hTail

/- The contents are the texts only if each is the own one. -/
theorem readsOf_eq_entriesOf_iff
    {nodes : List Node}
    (hThere : ContentsThere nodes) :
    readsOf nodes = entriesOf nodes ↔ TextsFirst nodes := by
  induction nodes with
  | nil => exact iff_of_true rfl (by simp [TextsFirst])
  | cons node nodes ih =>
      rcases List.forall_mem_cons.mp hThere with
        ⟨hNode, hRest⟩
      have hTail := ih hRest
      have hLength := entriesOf_length_le hRest
      unfold TextsFirst at hTail ⊢
      rw [List.forall_mem_cons, ← hTail]
      unfold readsOf entriesOf at hLength ⊢
      cases hEntry : pair node with
      | none =>
          rw [List.filterMap_cons_none hEntry]
          cases hRead : readPair node with
          | none =>
              have hEmpty : node.children = [] := by
                by_contra hSome
                have hThere := hNode hSome
                rw [hRead] at hThere
                cases hThere
              rw [List.filterMap_cons_none hRead]
              simp [hEmpty]
          | some read =>
              have hSome : node.children ≠ [] := by
                intro hEmpty
                simp [readPair, hEmpty] at hRead
              rw [List.filterMap_cons_some hRead]
              refine iff_of_false ?_ (fun hBoth => ?_)
              -- One content more than there are texts.
              · intro hSame
                have hLonger := congrArg List.length hSame
                rw [List.length_cons] at hLonger
                omega
              · cases (hBoth.1 hSome).1
      | some entry =>
          rcases Option.isSome_iff_exists.mp
              (hNode (children_of_entry hEntry)) with
            ⟨read, hRead⟩
          rw [List.filterMap_cons_some hEntry,
            List.filterMap_cons_some hRead, hRead,
            List.cons.injEq, Option.some.injEq]
          simp [children_of_entry hEntry]

/- A list that is stored from the start and terminated. -/
theorem holds_stored
    {nodes : List Node}
    (hContent : GovernorContent nodes)
    (hRoom : (readsOf nodes).length < governorDataSize)
    (entries : Nat → String × String) :
    Holds
      (Function.update (stored entries 0 (readsOf nodes))
        (readsOf nodes).length ("", ""))
      (readsOf nodes) where
  room := hRoom
  entry := by
    intro k hk
    have hOther : k ≠ (readsOf nodes).length := by
      omega
    rw [Function.update_of_ne hOther]
    simp [stored, hk]
  named := by
    intro entry hMem
    rcases List.mem_filterMap.mp hMem with
      ⟨node, hNode, hRead⟩
    cases hChildren : node.children with
    | nil => simp [readPair, hChildren] at hRead
    | cons child children =>
        have hName :=
          hContent.named node hNode (by simp [hChildren])
        simp only [readPair, hChildren, List.head?_cons,
          Option.bind_some, Option.map_eq_some_iff] at hRead
        rcases hRead with ⟨data, _, rfl⟩
        exact hName
  last := by
    rw [Function.update_self]

/-
  `XML_GET_CPUGOV`, if it does not fault: without any content
  the array is kept, and otherwise it holds what was read.
-/
theorem xmlGetCpugov_holds
    {doc : Document}
    {id : ProfileName}
    {c : Cluster}
    {p q : SecPowerProfile}
    (hContent : GovernorContent (governorNodes doc id c))
    (hGet : xmlGetCpugov doc id p c = .ok q) :
    ContentsThere (governorNodes doc id c) ∧
      (governorNodes doc id c = [] →
        q.governorData c = p.governorData c) ∧
      (governorNodes doc id c ≠ [] →
        Holds (q.governorData c)
          (readsOf (governorNodes doc id c))) := by
  unfold xmlGetCpugov at hGet
  cases hSelect :
      doc.select (id.path ++
        ["cpu", c.element, "governor_data"]) with
  | nil =>
      have hNone : governorNodes doc id c = [] := by
        simp [governorNodes, governorPath, hSelect]
      simp only [hSelect] at hGet
      cases hGet
      exact ⟨by simp [ContentsThere, hNone], fun _ => rfl,
        fun hSome => absurd hNone hSome⟩
  | cons node nodes =>
      have hNodes :
          governorNodes doc id c = node.children := by
        simp [governorNodes, governorPath, hSelect]
      simp only [hSelect] at hGet
      rw [hNodes] at hContent ⊢
      by_cases hEmpty : node.children = []
      · simp only [hEmpty, List.isEmpty_nil, if_true] at hGet
        cases hGet
        exact ⟨by simp [ContentsThere, hEmpty], fun _ => rfl,
          fun hSome => absurd hEmpty hSome⟩
      · have hIsEmpty :
            ¬ node.children.isEmpty = true := by
          simpa using hEmpty
        rw [if_neg hIsEmpty] at hGet
        rcases bind_eq_ok_iff.mp hGet with
          ⟨⟨index, entries⟩, hCopy, hRest⟩
        rcases copyGovernorData_stored hCopy with
          ⟨hIndex, hEntries⟩
        have hThere :=
          contentsThere_of_fits
            (copyGovernorData_eq_ok hCopy).2
        rw [Nat.zero_add] at hIndex
        simp only at hRest
        split at hRest
        · rename_i hRoom
          cases hRest
          rw [hIndex] at hRoom
          refine ⟨hThere, fun hNone => absurd hNone hEmpty,
            ?_⟩
          intro _
          simp only [Function.update_self]
          rw [hIndex, hEntries]
          exact holds_stored hContent hRoom _
        · cases hRest

/- There are as many entries as texts. -/
theorem entryCount_of_texts
    {nodes : List Node}
    (hTexts : TextsFirst nodes) :
    entryCount nodes = (entriesOf nodes).length := by
  induction nodes with
  | nil => rfl
  | cons node nodes ih =>
      rcases List.forall_mem_cons.mp hTexts with
        ⟨hNode, hRest⟩
      have hTail := ih hRest
      unfold entryCount entriesOf at hTail ⊢
      rw [List.countP_cons, hTail]
      cases hEntry : pair node with
      | none =>
          have hEmpty : node.children = [] := by
            by_contra hSome
            have hThere := (hNode hSome).1
            rw [hEntry] at hThere
            cases hThere
          simp [hEntry, hEmpty]
      | some entry =>
          have hSome := children_of_entry hEntry
          simp [hEntry, hSome]

/- Copying entries that are texts does not fault. -/
theorem xmlGetCpugov_succeeds_of_texts
    {doc : Document}
    {id : ProfileName}
    {c : Cluster}
    (hContent : GovernorContent (governorNodes doc id c))
    (hTexts : TextsFirst (governorNodes doc id c))
    (p : SecPowerProfile) :
    Succeeds (xmlGetCpugov doc id p c) := by
  refine (xmlGetCpugov_succeeds_iff p c).mpr ?_
  intro node hNode
  have hNodes : governorNodes doc id c = node.children := by
    simp [governorNodes, governorPath,
      Option.mem_def.mp hNode]
  rw [hNodes] at hContent hTexts
  refine ⟨?_, ?_⟩
  · rw [entryCount_of_texts hTexts]
    exact hContent.count
  · intro child hChild
    unfold FitsEntry
    cases hInner : child.children with
    | nil => trivial
    | cons first rest =>
        rcases hTexts child hChild (by simp [hInner]) with
          ⟨hThere, hSame⟩
        rcases Option.isSome_iff_exists.mp hThere with
          ⟨entry, hEntry⟩
        have hFits :=
          hContent.fits entry
            (List.mem_filterMap.mpr ⟨child, hChild, hEntry⟩)
        rw [hEntry] at hSame
        simp only [readPair, hInner, List.head?_cons,
          Option.bind_some, Option.map_eq_some_iff] at hSame
        rcases hSame with ⟨data, hData, rfl⟩
        simp only [hData, Option.any_some,
          decide_eq_true_eq]
        exact hFits

end Profiles

end Universal7420

------------------------------------------------------------
-- Chains
------------------------------------------------------------

namespace Universal7420

namespace Profiles

open Xml Fallible

variable {doc : Document}

theorem nearestContent_cons
    (id : ProfileName)
    (chain : List ProfileName)
    (c : Cluster) :
    nearestContent doc (id :: chain) c =
      if governorNodes doc id c ≠ [] then some id
      else nearestContent doc chain c := by
  unfold nearestContent
  by_cases hSome : governorNodes doc id c ≠ []
  · rw [if_pos hSome]
    exact List.find?_cons_of_pos (by simpa using hSome)
  · rw [if_neg hSome]
    exact List.find?_cons_of_neg (by simpa using hSome)

/- The first profile of a chain is read if it has a content. -/
theorem governorReads_cons_of_content
    {id : ProfileName}
    {c : Cluster}
    (chain : List ProfileName)
    (hSome : governorNodes doc id c ≠ []) :
    governorReads doc (id :: chain) c =
      readsOf (governorNodes doc id c) := by
  rw [governorReads, nearestContent_cons, if_pos hSome]

/- Without any content the list of the parent is taken. -/
theorem governorReads_cons_of_empty
    {id : ProfileName}
    {c : Cluster}
    (chain : List ProfileName)
    (hNone : governorNodes doc id c = []) :
    governorReads doc (id :: chain) c =
      governorReads doc chain c := by
  rw [governorReads, nearestContent_cons,
    if_neg (not_not.mpr hNone)]
  rfl

/- The profile is enabled and extends an earlier one. -/
structure EnabledExtension
    (doc : Document)
    (id : ProfileName) : Prop where
  enabled : ownEnabled doc id = true
  extendsEarlier :
    ∀ name, extendsOf doc id = some name →
      NamesEarlier id name

/- One profile: the array of the start, and what is copied. -/
theorem leafPass_holds
    {id : ProfileName}
    {c : Cluster}
    {p q : SecPowerProfile}
    {chain : List ProfileName}
    (hContent : GovernorContent (governorNodes doc id c))
    (hPass :
      loadScript.foldlM (loadStmt doc id) p = .ok q)
    (hCpu : p.on .cpu = true)
    (hCluster : p.on (.cluster c) = true)
    (hStart :
      Holds (p.governorData c)
        (governorReads doc chain c)) :
    ContentsThere (governorNodes doc id c) ∧
      Holds (q.governorData c)
        (governorReads doc (id :: chain) c) := by
  rcases leafPass_cpugov hPass hCpu hCluster with
    ⟨r, r', hBefore, hCopy, hAfter⟩
  rcases xmlGetCpugov_holds hContent hCopy with
    ⟨hThere, hKeeps, hNew⟩
  refine ⟨hThere, ?_⟩
  rw [hAfter]
  by_cases hNone : governorNodes doc id c = []
  · rw [governorReads_cons_of_empty chain hNone,
      hKeeps hNone, hBefore]
    exact hStart
  · rw [governorReads_cons_of_content chain hNone]
    exact hNew hNone

/- The array of a loaded profile holds what was read. -/
theorem ExtendsChain.holds
    {ps : Store}
    {id : ProfileName}
    {c : Cluster}
    {chain : List ProfileName}
    (hChain : ExtendsChain doc id chain)
    (hLoad : loadProfilesImpl doc = .ok ps)
    (hProfiles : ∀ q ∈ chain, EnabledExtension doc q)
    (hContent :
      ∀ q ∈ chain, GovernorContent (governorNodes doc q c))
    (hCpu : (ps id).on .cpu = true)
    (hCluster : (ps id).on (.cluster c) = true) :
    (∀ q ∈ chain,
      ContentsThere (governorNodes doc q c)) ∧
    Holds ((ps id).governorData c)
      (governorReads doc chain c) := by
  induction hChain with
  | @root id hRoot =>
      have hId := hProfiles id (by simp)
      rcases leafPass_start hLoad hId.enabled
          hId.extendsEarlier with
        ⟨r, hPass, ⟨_, _, hZero⟩ | ⟨name, _, hExtends, _⟩⟩
      · have hSame : (ps id).on = r.on := by
          funext s
          simp [SecPowerProfile.on, loadStmts_switches hPass]
        rw [hSame] at hCpu hCluster
        have hStart :
            Holds (r.governorData c)
              (governorReads doc [] c) := by
          rw [hZero]
          exact holds_zero c
        rcases leafPass_holds (hContent id (by simp)) hPass
            hCpu hCluster hStart with
          ⟨hThere, hHolds⟩
        exact ⟨by simpa using hThere, hHolds⟩
      · rw [hRoot] at hExtends
        cases hExtends
  | @step id parent name chain hExtends hName hRest ih =>
      have hId := hProfiles id (by simp)
      rcases leafPass_start hLoad hId.enabled
          hId.extendsEarlier with
        ⟨r, hPass, ⟨hNone, _⟩ |
          ⟨name', parent', hExtends', hName', _, hCopy⟩⟩
      · rw [hExtends] at hNone
        cases hNone
      · rw [hExtends] at hExtends'
        cases hExtends'
        rw [hName] at hName'
        cases hName'
        have hSame : (ps id).on = r.on := by
          funext s
          simp [SecPowerProfile.on, loadStmts_switches hPass]
        rw [hSame] at hCpu hCluster
        have hParent := hCpu
        have hParent' := hCluster
        rw [hCopy] at hParent hParent'
        rcases
          ih (fun q hq => hProfiles q (by simp [hq]))
            (fun q hq => hContent q (by simp [hq]))
            hParent hParent' with
          ⟨hOthers, hStart⟩
        rw [← hCopy] at hStart
        rcases leafPass_holds (hContent id (by simp)) hPass
            hCpu hCluster hStart with
          ⟨hThere, hHolds⟩
        exact ⟨List.forall_mem_cons.mpr ⟨hThere, hOthers⟩,
          hHolds⟩

/-
  `setProfile` comes to exactly these entries before the first
  empty name, writes them, and stops inside the array.
-/
def IteratesOver
    (data : SecPowerProfile)
    (c : Cluster)
    (list : List (String × String)) : Prop :=
  ∃ n < 64,
    (data.governorData c n).1 = "" ∧
    (∀ i < n, (data.governorData c i).1 ≠ "") ∧
    (List.range n).map (data.governorData c) = list ∧
    ∀ core,
      Power.governorDataOps data c core =
        list.map (fun entry =>
          .writeCpuGov core entry.1 (.string entry.2))

theorem Holds.iteratesOver
    {data : SecPowerProfile}
    {c : Cluster}
    {list : List (String × String)}
    (hHolds : Holds (data.governorData c) list) :
    IteratesOver data c list := by
  refine ⟨list.length, hHolds.room, hHolds.last, ?_, ?_, ?_⟩
  · intro i hi
    rw [hHolds.entry i hi]
    exact hHolds.named _ (List.getElem_mem hi)
  · apply List.ext_getElem
    · simp
    · intro i _ hi
      simp [hHolds.entry i hi]
  · intro core
    exact governorDataOps_eq core hHolds

/- There is only one such list. -/
theorem IteratesOver.unique
    {data : SecPowerProfile}
    {c : Cluster}
    {first second : List (String × String)}
    (hFirst : IteratesOver data c first)
    (hSecond : IteratesOver data c second) :
    first = second := by
  rcases hFirst with ⟨n, _, hLast, hNamed, hList, _⟩
  rcases hSecond with ⟨m, _, hLast', hNamed', hList', _⟩
  have hSame : n = m := by
    rcases Nat.lt_trichotomy n m with hLess | hEq | hMore
    · exact absurd hLast (hNamed' n hLess)
    · exact hEq
    · exact absurd hLast' (hNamed m hMore)
  rw [← hList, ← hList', hSame]

/-
  `power_save` extends a profile with two parameters and has
  one of its own, with a comment and white space around it and
  the given nodes in it.
-/
def governorDocument (rate : List Node) : Document where
  nodes :=
    [.element "profiles" []
      [profileElement .screenOff none
        [textElement "enabled" "true",
          .element "cpu" []
            [textElement "enabled" "true",
              .element "apollo" []
                [textElement "enabled" "true",
                  .element "governor_data" []
                    [textElement "go_hispeed_load" "89",
                      textElement "timer_rate" "20000"]]]],
        profileElement .powerSave (some .screenOff)
          [textElement "enabled" "true",
            .element "cpu" []
              [.element "apollo" []
                [.element "governor_data" []
                  [.text "\n", .comment "slower",
                    .element "timer_rate" [] rate,
                    .text "\n"]]]]]]

/- The text alone, and the text behind a comment. -/
def plainRate : List Node := [.text "50000"]

def commentedRate : List Node :=
  [.comment " in us ", .text "50000"]

theorem governorDocument_content :
    ∀ rate ∈ [plainRate, commentedRate],
      ∀ q ∈ [ProfileName.powerSave, .screenOff],
        GovernorContent
          (governorNodes (governorDocument rate) q
            .apollo) := by
  have hCount :
      ∀ rate ∈ [plainRate, commentedRate],
        ∀ q ∈ [ProfileName.powerSave, .screenOff],
          (entriesOf (governorNodes (governorDocument rate) q
            .apollo)).length < governorDataSize := by
    decide +kernel
  have hFits :
      ∀ rate ∈ [plainRate, commentedRate],
        ∀ q ∈ [ProfileName.powerSave, .screenOff],
          ∀ entry ∈ entriesOf
              (governorNodes (governorDocument rate) q
                .apollo),
            entry.1.utf8ByteSize < governorDataSize ∧
              entry.2.utf8ByteSize < governorDataSize := by
    decide +kernel
  have hNamed :
      ∀ rate ∈ [plainRate, commentedRate],
        ∀ q ∈ [ProfileName.powerSave, .screenOff],
          ∀ node ∈
              governorNodes (governorDocument rate) q .apollo,
            node.children ≠ [] → node.name ≠ "" := by
    decide +kernel
  intro rate hRate q hq
  exact ⟨hCount rate hRate q hq, hFits rate hRate q hq,
    hNamed rate hRate q hq⟩

theorem governorDocument_profiles :
    ∀ rate ∈ [plainRate, commentedRate],
      ∀ q ∈ [ProfileName.powerSave, .screenOff],
        EnabledExtension (governorDocument rate) q := by
  have hEnabled :
      ∀ rate ∈ [plainRate, commentedRate],
        ∀ q ∈ [ProfileName.powerSave, .screenOff],
          ownEnabled (governorDocument rate) q = true := by
    decide +kernel
  have hEarlier :
      ∀ rate ∈ [plainRate, commentedRate],
        ∀ q ∈ [ProfileName.powerSave, .screenOff],
          ∀ name ∈ extendsOf (governorDocument rate) q,
            NamesEarlier q name := by
    decide +kernel
  intro rate hRate q hq
  exact ⟨hEnabled rate hRate q hq, hEarlier rate hRate q hq⟩

theorem governorDocument_chain :
    ∀ rate ∈ [plainRate, commentedRate],
      ExtendsChain (governorDocument rate) .powerSave
        [.powerSave, .screenOff] := by
  have hRoot :
      ∀ rate ∈ [plainRate, commentedRate],
        extendsOf (governorDocument rate) .screenOff =
          none := by
    decide +kernel
  have hExtends :
      ∀ rate ∈ [plainRate, commentedRate],
        extendsOf (governorDocument rate) .powerSave =
          some "screen_off" := by
    decide +kernel
  intro rate hRate
  exact ExtendsChain.step (hExtends rate hRate)
    (by decide) (ExtendsChain.root (hRoot rate hRate))

theorem governorDocument_loads :
    ∀ rate ∈ [plainRate, commentedRate],
      ∃ ps, loadProfilesImpl (governorDocument rate) = .ok ps ∧
        (ps .powerSave).on .cpu = true ∧
        (ps .powerSave).on (.cluster .apollo) = true := by
  have hOn :
      ∀ rate ∈ [plainRate, commentedRate],
        (loadProfilesImpl (governorDocument rate)).toOption.any
          (fun ps =>
            (ps .powerSave).on .cpu &&
              (ps .powerSave).on (.cluster .apollo)) =
                true := by
    decide +kernel
  intro rate hRate
  have hBoth := hOn rate hRate
  rcases hLoad : loadProfilesImpl (governorDocument rate) with
    fault | ps
  · rw [hLoad] at hBoth
    cases hBoth
  · rw [hLoad] at hBoth
    exact ⟨ps, rfl, (Bool.and_eq_true _ _).mp hBoth⟩

end Profiles

end Universal7420
