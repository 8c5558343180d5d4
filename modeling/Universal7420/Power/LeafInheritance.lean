import Universal7420.Power.ExtendsChain

/-
  What the leaves of a loaded profile have of the profiles it
  extends.

  A leaf of an enabled section is meant to be the text of the
  nearest profile on the `extends` chain that has the node,
  and its default if none has it.  The loader reads the first
  child of a node, which may be a comment, and the strings of
  a chain share their buffers from the first long text on.

  Main declarations:
    * `Universal7420.Profiles.LeafInherited`
    * `Universal7420.Profiles.bufferOwner`
    * `Universal7420.Profiles.LeafKept`
    * `Universal7420.Profiles.traced`
    * `Universal7420.Profiles.leaf_inherited_iff`
-/

------------------------------------------------------------
-- Leaves And Their Buffers
------------------------------------------------------------

namespace Universal7420

namespace Profiles

open Xml Fallible StringObjects

/- The text of the nearest profile that has the node. -/
def nearestText
    (doc : Document)
    (l : Leaf)
    (id : ProfileName) : Option String :=
  (chainOf doc id).findSome? fun q =>
    textAt doc (q.path ++ l.path)

/-
  The member of a loaded record has this text, as a string or
  as what the text converts to.
-/
def LeafHolds
    (loaded : Loaded)
    (id : ProfileName)
    (l : Leaf)
    (text : String) : Prop :=
  if l.kind = .string then
    (loaded.strings l).read id = some (bytes text)
  else
    l.kind.convert text =
      .ok ((loaded.store id).leaves l).value

/-
  The loaded leaf is the text of the nearest profile of the
  chain that has the node, or its default, and is marked as
  set if some profile of the chain has the node.
-/
structure LeafInherited
    (doc : Document)
    (loaded : Loaded)
    (id : ProfileName)
    (l : Leaf) : Prop where
  flag :
    ((loaded.store id).leaves l).set = true ↔
      ∃ q ∈ chainOf doc id, HasMatch doc (q.path ++ l.path)
  value :
    LeafHolds loaded id l
      ((nearestText doc l id).getD l.defaultText)

/- What is read converts like what is written. -/
def ReadAlike
    (doc : Document)
    (l : Leaf)
    (id : ProfileName) : Prop :=
  match nearestRead doc l id, nearestText doc l id with
  | none, none => True
  | some read, some text =>
      ∃ v, l.kind.convert read = .ok v ∧
        l.kind.convert text = .ok v
  | _, _ => False

/- What is read of a string that no object has room for. -/
def longRead
    (doc : Document)
    (l : Leaf)
    (id : ProfileName) : Bool :=
  l.kind = .string &&
    (readAt doc (id.path ++ l.path)).any fun c =>
      libcxx.short < (bytes c).length

/- The oldest profile of the chain with a long text. -/
def bufferOwner
    (doc : Document)
    (l : Leaf)
    (id : ProfileName) : Option ProfileName :=
  (chainOf doc id).reverse.find? (longRead doc l)

/- The room of the buffer that a profile allocates. -/
def bufferRoom
    (doc : Document)
    (l : Leaf)
    (o : ProfileName) : Nat :=
  libcxx.grown libcxx.short
    (((readAt doc (o.path ++ l.path)).map bytes).getD
      []).length

/- The last of the texts that are read for one buffer. -/
def lastRead
    (doc : Document)
    (l : Leaf)
    (o : ProfileName) : Option String :=
  ProfileName.loadOrder.reverse.findSome? fun q =>
    if bufferOwner doc l q = some o then
      readAt doc (q.path ++ l.path)
    else
      none

/-
  All texts for the buffer fit into it, and the text that this
  profile should show is as long as what is read for it and
  begins the text that is loaded last.
-/
structure BufferKept
    (doc : Document)
    (l : Leaf)
    (id o : ProfileName) : Prop where
  fits :
    ∀ (q : ProfileName) (c : String),
      bufferOwner doc l q = some o →
      readAt doc (q.path ++ l.path) = some c →
      (bytes c).length ≤ bufferRoom doc l o
  text :
    ∃ read text last,
      nearestRead doc l id = some read ∧
      nearestText doc l id = some text ∧
      lastRead doc l o = some last ∧
      (bytes text).length = (bytes read).length ∧
      bytes text <+: bytes last

/-
  The condition on a leaf.  A member whose chain has no long
  text only has to be read as it is written.
-/
def LeafKept
    (doc : Document)
    (l : Leaf)
    (id : ProfileName) : Prop :=
  match bufferOwner doc l id with
  | none => ReadAlike doc l id
  | some o => BufferKept doc l id o

variable {doc : Document}

theorem bufferOwner_root
    {id : ProfileName}
    (hRoot : parentOf doc id = none)
    (l : Leaf) :
    bufferOwner doc l id =
      if longRead doc l id then some id else none := by
  unfold bufferOwner
  rw [chainOf_root hRoot]
  cases hLong : longRead doc l id <;> simp [hLong]

/- The oldest one is the parent's, if the parent has one. -/
theorem bufferOwner_child
    (hEarlier :
      ∀ id name,
        extendsOf doc id = some name → NamesEarlier id name)
    {id parent : ProfileName}
    (hParent : parentOf doc id = some parent)
    (l : Leaf) :
    bufferOwner doc l id =
      (bufferOwner doc l parent).or
        (if longRead doc l id then some id else none) := by
  unfold bufferOwner
  rw [chainOf_child hEarlier hParent, List.reverse_cons,
    List.find?_append]
  cases hLong : longRead doc l id <;> simp [hLong]

end Profiles

end Universal7420

------------------------------------------------------------
-- The Owners Of Buffers
------------------------------------------------------------

namespace Universal7420

namespace Profiles

open Xml Fallible StringObjects SharedText

variable {doc : Document}
variable {id o : ProfileName}
variable {l : Leaf}

theorem longRead_readAt
    (hLong : longRead doc l id = true) :
    ∃ c,
      readAt doc (id.path ++ l.path) = some c ∧
      libcxx.short < (bytes c).length := by
  unfold longRead at hLong
  cases hRead : readAt doc (id.path ++ l.path) with
  | none => simp [hRead] at hLong
  | some c =>
      refine ⟨c, rfl, ?_⟩
      simp only [hRead, Option.any_some, Bool.and_eq_true,
        decide_eq_true_eq] at hLong
      exact hLong.2

/- What is known of the profile that allocates a buffer. -/
theorem bufferOwner_spec
    (hDoc : EnabledDocument doc)
    (hOwner : bufferOwner doc l id = some o) :
    bufferOwner doc l o = some o ∧
    rootOf doc o = rootOf doc id ∧
    longRead doc l o = true ∧
    (nearestRead doc l id).isSome = true := by
  -- the parent of a profile has a smaller rank
  induction hRank : id.rank using Nat.strongRecOn
      generalizing id with
  | ind rank ih =>
      have hSelf :
          longRead doc l id = true →
          (nearestRead doc l id).isSome = true := by
        intro hLong
        rcases longRead_readAt hLong with ⟨c, hRead, _⟩
        rw [nearestRead_eq hDoc.extendsEarlier, hRead]
        rfl
      cases hParent : parentOf doc id with
      | none =>
          have hOwner' := hOwner
          rw [bufferOwner_root hParent] at hOwner'
          cases hLong : longRead doc l id with
          | false => simp [hLong] at hOwner'
          | true =>
              simp only [hLong, if_true, Option.some.injEq]
                at hOwner'
              rw [hOwner'] at hOwner hLong hSelf ⊢
              exact ⟨hOwner, rfl, hLong, hSelf hLong⟩
      | some parent =>
          have hLess := parentOf_rank hDoc.extendsEarlier hParent
          have hOwner' := hOwner
          rw [bufferOwner_child hDoc.extendsEarlier hParent]
            at hOwner'
          cases hTop : bufferOwner doc l parent with
          | some o' =>
              rw [hTop, Option.some_or, Option.some.injEq]
                at hOwner'
              rw [hOwner'] at hTop
              rcases
                ih parent.rank (hRank ▸ hLess) hTop rfl with
                ⟨hOwn, hRoot, hLong, hSome⟩
              refine ⟨hOwn, ?_, hLong, ?_⟩
              · rw [rootOf_child hDoc.extendsEarlier hParent]
                exact hRoot
              · rw [nearestRead_eq hDoc.extendsEarlier,
                  hParent, Option.bind_some,
                  Option.isSome_or, hSome, Bool.or_true]
          | none =>
              rw [hTop, Option.none_or] at hOwner'
              cases hLong : longRead doc l id with
              | false => simp [hLong] at hOwner'
              | true =>
                  simp only [hLong, if_true,
                    Option.some.injEq] at hOwner'
                  rw [hOwner'] at hOwner hLong hSelf ⊢
                  exact ⟨hOwner, rfl, hLong, hSelf hLong⟩

/- The owner, where the sections of the member are on. -/
def liveOwner
    (doc : Document)
    (l : Leaf)
    (id : ProfileName) : Option ProfileName :=
  if sectionsOn doc l id then bufferOwner doc l id else none

def shownText
    (doc : Document)
    (l : Leaf)
    (id : ProfileName) : List UInt8 :=
  if sectionsOn doc l id then
    bytes ((nearestRead doc l id).getD l.defaultText)
  else
    []

/- Every default of a string member is short. -/
theorem defaultText_short
    (hString : l.kind = .string) :
    (bytes l.defaultText).length ≤ libcxx.short := by
  cases l with
  | governor c => cases c <;> decide +kernel
  | defaults => decide +kernel
  | foreground => decide +kernel
  | foregroundBoost => decide +kernel
  | background => decide +kernel
  | systemBackground => decide +kernel
  | topApp => decide +kernel
  | tail => decide +kernel
  | head => decide +kernel
  | _ => cases hString

end Profiles

end Universal7420

------------------------------------------------------------
-- The Strings Of A Document
------------------------------------------------------------

namespace Universal7420

namespace Profiles

open Xml Fallible StringObjects SharedText

variable {doc : Document}
variable {id o : ProfileName}
variable {l : Leaf}

theorem ownAssigned_off
    (hOff : sectionsOn doc l id = false) :
    ownAssigned doc l id = none := by
  unfold ownAssigned
  simp [hOff]

/- A text of a profile's own node is assigned. -/
theorem ownAssigned_read
    (hOn : sectionsOn doc l id = true)
    {c : String}
    (hRead : readAt doc (id.path ++ l.path) = some c) :
    ownAssigned doc l id = some c := by
  unfold ownAssigned
  simp [hOn, hRead]

/- Without one, a text of the parent is kept. -/
theorem ownAssigned_kept
    (hDoc : EnabledDocument doc)
    (hRead : readAt doc (id.path ++ l.path) = none)
    (hSome : (nearestRead doc l id).isSome = true) :
    ownAssigned doc l id = none := by
  rw [nearestRead_eq hDoc.extendsEarlier, hRead,
    Option.none_or] at hSome
  unfold ownAssigned
  simp [hRead, hSome]

theorem ownAssigned_default
    (hDoc : EnabledDocument doc)
    (hOn : sectionsOn doc l id = true)
    (hNone : nearestRead doc l id = none) :
    ownAssigned doc l id = some l.defaultText := by
  rw [nearestRead_eq hDoc.extendsEarlier,
    Option.or_eq_none_iff] at hNone
  unfold ownAssigned
  simp [hOn, hNone.1, hNone.2]

/- The text that is assigned is the nearest, or the default. -/
theorem shownText_of_assigned
    (hDoc : EnabledDocument doc)
    {c : String}
    (hAssigned : ownAssigned doc l id = some c) :
    sectionsOn doc l id = true ∧
    (nearestRead doc l id).getD l.defaultText = c := by
  cases hOn : sectionsOn doc l id with
  | false =>
      rw [ownAssigned_off hOn] at hAssigned
      cases hAssigned
  | true =>
      refine ⟨rfl, ?_⟩
      cases hRead : readAt doc (id.path ++ l.path) with
      | some d =>
          rw [ownAssigned_read hOn hRead] at hAssigned
          cases hAssigned
          rw [nearestRead_eq hDoc.extendsEarlier, hRead]
          rfl
      | none =>
          cases hNear : nearestRead doc l id with
          | some d =>
              rw [ownAssigned_kept hDoc hRead
                (by rw [hNear]; rfl)] at hAssigned
              cases hAssigned
          | none =>
              rw [ownAssigned_default hDoc hOn hNear]
                at hAssigned
              exact Option.some.inj hAssigned

/- A text that is too long for an object was read. -/
theorem longRead_iff_assigned
    (hDoc : EnabledDocument doc)
    (hString : l.kind = .string)
    (hOn : sectionsOn doc l id = true) :
    longRead doc l id = true ↔
      ∃ c,
        ownAssigned doc l id = some c ∧
        libcxx.short < (bytes c).length := by
  constructor
  · intro hLong
    rcases longRead_readAt hLong with ⟨c, hRead, hLess⟩
    exact ⟨c, ownAssigned_read hOn hRead, hLess⟩
  · rintro ⟨c, hAssigned, hLess⟩
    cases hRead : readAt doc (id.path ++ l.path) with
    | some d =>
        rw [ownAssigned_read hOn hRead] at hAssigned
        cases hAssigned
        simp [longRead, hString, hRead, hLess]
    | none =>
        cases hNear : nearestRead doc l id with
        | some d =>
            rw [ownAssigned_kept hDoc hRead
              (by rw [hNear]; rfl)] at hAssigned
            cases hAssigned
        | none =>
            rw [ownAssigned_default hDoc hOn hNear]
              at hAssigned
            cases hAssigned
            have hShort := defaultText_short hString
            omega

/- Without an owner above, a profile owns or nobody does. -/
theorem liveOwner_of_parents
    (hDoc : EnabledDocument doc)
    (hOn : sectionsOn doc l id = true)
    (hParents :
      ∀ p, parentOf doc id = some p →
        liveOwner doc l p = none) :
    liveOwner doc l id =
      if longRead doc l id then some id else none := by
  unfold liveOwner
  rw [if_pos hOn]
  cases hParent : parentOf doc id with
  | none => exact bufferOwner_root hParent l
  | some p =>
      have hNone := hParents p hParent
      rw [liveOwner,
        ← sectionsOn_child hDoc.extendsEarlier hParent,
        if_pos hOn] at hNone
      rw [bufferOwner_child hDoc.extendsEarlier hParent,
        hNone, Option.none_or]

theorem traced
    (hDoc : EnabledDocument doc)
    (hString : l.kind = .string) :
    Traced libcxx (stringPlan doc l) (shownText doc l)
      (liveOwner doc l) where
  shown_assigned := by
    intro id text hText
    rcases Option.map_eq_some_iff.mp hText with
      ⟨c, hAssigned, rfl⟩
    rcases shownText_of_assigned hDoc hAssigned with
      ⟨hOn, hShown⟩
    rw [shownText, if_pos hOn, hShown]
  shown_copied := by
    intro id p hNone hParent
    have hNone' : ownAssigned doc l id = none :=
      Option.map_eq_none_iff.mp hNone
    unfold shownText
    rw [sectionsOn_child hDoc.extendsEarlier hParent]
    cases hOn : sectionsOn doc l p with
    | false => rfl
    | true =>
        rw [← sectionsOn_child hDoc.extendsEarlier hParent]
          at hOn
        have hRead :
            readAt doc (id.path ++ l.path) = none := by
          cases hRead : readAt doc (id.path ++ l.path) with
          | none => rfl
          | some c =>
              rw [ownAssigned_read hOn hRead] at hNone'
              cases hNone'
        have hParent' : parentOf doc id = some p := hParent
        rw [nearestRead_eq hDoc.extendsEarlier l id, hRead,
          hParent']
        rfl
  shown_empty := by
    intro id hNone hParent
    have hNone' : ownAssigned doc l id = none :=
      Option.map_eq_none_iff.mp hNone
    have hParent' : parentOf doc id = none := hParent
    unfold shownText
    cases hOn : sectionsOn doc l id with
    | false => rfl
    | true =>
        cases hRead : readAt doc (id.path ++ l.path) with
        | some c =>
            rw [ownAssigned_read hOn hRead] at hNone'
            cases hNone'
        | none =>
            have hNear : nearestRead doc l id = none := by
              rw [nearestRead_eq hDoc.extendsEarlier, hRead,
                hParent']
              rfl
            rw [ownAssigned_default hDoc hOn hNear] at hNone'
            cases hNone'
  owner_copied := by
    intro id p o hParent hOwner
    have hParent' : parentOf doc id = some p := hParent
    unfold liveOwner at hOwner ⊢
    rw [sectionsOn_child hDoc.extendsEarlier hParent']
    cases hOn : sectionsOn doc l p with
    | false => simp [hOn] at hOwner
    | true =>
        simp only [hOn, if_true] at hOwner
        rw [if_pos rfl,
          bufferOwner_child hDoc.extendsEarlier hParent',
          hOwner, Option.some_or]
  owner_self := by
    intro id text hParents hText hLong
    rcases Option.map_eq_some_iff.mp hText with
      ⟨c, hAssigned, rfl⟩
    have hOn := (shownText_of_assigned hDoc hAssigned).1
    rw [liveOwner_of_parents hDoc hOn hParents, if_pos]
    exact
      (longRead_iff_assigned hDoc hString hOn).mpr
        ⟨c, hAssigned, hLong⟩
  owner_none := by
    intro id hParents hShort
    cases hOn : sectionsOn doc l id with
    | false => simp [liveOwner, hOn]
    | true =>
        rw [liveOwner_of_parents hDoc hOn hParents, if_neg]
        intro hLong
        rcases
          (longRead_iff_assigned hDoc hString hOn).mp hLong
          with ⟨c, hAssigned, hLess⟩
        have hMost :=
          hShort (bytes c)
            (by simp [stringPlan, hAssigned])
        omega

end Profiles

end Universal7420

------------------------------------------------------------
-- The Inheritance Of Leaves
------------------------------------------------------------

namespace Universal7420

namespace Profiles

open Xml Fallible StringObjects SharedText

variable {doc : Document}
variable {id o : ProfileName}
variable {l : Leaf}
variable {loaded : Loaded}

theorem hasMatch_of_readAt
    {path : List String}
    (hRead : (readAt doc path).isSome = true) :
    HasMatch doc path := by
  by_contra hNot
  rw [readAt_eq_none_of_not_hasMatch hNot] at hRead
  cases hRead

theorem nearestText_isSome_iff :
    (nearestText doc l id).isSome = true ↔
      ∃ q ∈ chainOf doc id,
        HasMatch doc (q.path ++ l.path) := by
  unfold nearestText
  rw [List.findSome?_isSome_iff]
  simp only [textAt_isSome_iff]

/- A text that is read is there. -/
theorem nearestText_of_read
    (hRead : (nearestRead doc l id).isSome = true) :
    (nearestText doc l id).isSome = true := by
  unfold nearestRead at hRead
  rw [List.findSome?_isSome_iff] at hRead
  rcases hRead with ⟨q, hIn, hSome⟩
  exact
    nearestText_isSome_iff.mpr
      ⟨q, hIn, hasMatch_of_readAt hSome⟩

theorem RecordLoaded.on_iff
    {p : SecPowerProfile}
    (hRecord : RecordLoaded doc id p) :
    (∀ s ∈ l.sections, p.on s = true) ↔
      sectionsOn doc l id = true := by
  rw [← sections_all_on hRecord.on l, List.all_eq_true]

/- The flag of a loaded leaf, in terms of what is read. -/
theorem RecordLoaded.flag_iff
    {p : SecPowerProfile}
    (hRecord : RecordLoaded doc id p)
    (hOn : sectionsOn doc l id = true) :
    ((p.leaves l).set = true ↔
        ∃ q ∈ chainOf doc id,
          HasMatch doc (q.path ++ l.path)) ↔
      ((nearestText doc l id).isSome = true →
        (nearestRead doc l id).isSome = true) := by
  have hStart := (hRecord.leaf l hOn).startsFrom
  have hSet :
      (p.leaves l).set = (nearestRead doc l id).isSome := by
    cases hRead : nearestRead doc l id with
    | none =>
        rw [hRead] at hStart
        exact hStart
    | some c =>
        rw [hRead] at hStart
        exact hStart.2
  rw [hSet, ← nearestText_isSome_iff]
  exact
    ⟨fun hFlag => hFlag.mpr,
      fun hRead => ⟨nearestText_of_read, hRead⟩⟩

theorem RecordLoaded.value
    {p : SecPowerProfile}
    (hRecord : RecordLoaded doc id p)
    (hOn : sectionsOn doc l id = true) :
    l.kind.convert
        ((nearestRead doc l id).getD l.defaultText) =
      .ok (p.leaves l).value := by
  have hLoaded := hRecord.leaf l hOn
  cases hRead : nearestRead doc l id with
  | none =>
      rw [hRead] at hLoaded
      have hDefault :
          l.kind.convert l.defaultText =
              .ok (p.leaves l).value ∧
            (p.leaves l).set = false := by
        simpa [SettingLoaded] using hLoaded
      exact hDefault.1
  | some c =>
      rw [hRead] at hLoaded
      exact hLoaded.1

/- A member that is no string is copied by value. -/
theorem leafInherited_iff_of_value
    (hRecord : RecordLoaded doc id (loaded.store id))
    (hOn : sectionsOn doc l id = true)
    (hValue : l.kind ≠ .string) :
    LeafInherited doc loaded id l ↔ LeafKept doc l id := by
  have hNoOwner : bufferOwner doc l id = none := by
    unfold bufferOwner
    rw [List.find?_eq_none]
    intro q _
    simp [longRead, hValue]
  have hFlag := hRecord.flag_iff (l := l) hOn
  have hLoaded := hRecord.value (l := l) hOn
  unfold LeafKept
  rw [hNoOwner]
  dsimp only
  unfold ReadAlike
  constructor
  · rintro ⟨hSet, hHolds⟩
    have hSome := hFlag.mp hSet
    rw [LeafHolds, if_neg hValue] at hHolds
    cases hRead : nearestRead doc l id with
    | none =>
        cases hText : nearestText doc l id with
        | none => trivial
        | some text =>
            rw [hRead, hText] at hSome
            cases hSome rfl
    | some c =>
        cases hText : nearestText doc l id with
        | none =>
            have hThere :=
              nearestText_of_read (by rw [hRead]; rfl)
            rw [hText] at hThere
            cases hThere
        | some text =>
            rw [hRead] at hLoaded
            rw [hText] at hHolds
            exact ⟨_, hLoaded, hHolds⟩
  · intro hAlike
    refine ⟨hFlag.mpr ?_, ?_⟩
    · intro hSome
      cases hRead : nearestRead doc l id with
      | some c => rfl
      | none =>
          cases hText : nearestText doc l id with
          | none => rw [hText] at hSome; cases hSome
          | some text =>
              rw [hRead, hText] at hAlike
              cases hAlike
    · rw [LeafHolds, if_neg hValue]
      cases hRead : nearestRead doc l id with
      | none =>
          cases hText : nearestText doc l id with
          | none =>
              rw [hRead] at hLoaded
              exact hLoaded
          | some text =>
              rw [hRead, hText] at hAlike
              cases hAlike
      | some c =>
          cases hText : nearestText doc l id with
          | none =>
              rw [hRead, hText] at hAlike
              cases hAlike
          | some text =>
              rw [hRead, hText] at hAlike
              rcases hAlike with ⟨v, hConvert, hSame⟩
              rw [hRead] at hLoaded
              have hLoaded' :
                  l.kind.convert c =
                    .ok ((loaded.store id).leaves l).value :=
                hLoaded
              rw [hConvert] at hLoaded'
              rw [Option.getD_some, hSame]
              exact hLoaded'

/- The profiles of one buffer have their sections on. -/
theorem sectionsOn_of_owner
    (hDoc : EnabledDocument doc)
    (hOwner : bufferOwner doc l id = some o) :
    sectionsOn doc l id = sectionsOn doc l o := by
  unfold sectionsOn
  rw [(bufferOwner_spec hDoc hOwner).2.1]

theorem liveOwner_eq_some_iff
    (hDoc : EnabledDocument doc)
    (hOn : sectionsOn doc l o = true) :
    liveOwner doc l id = some o ↔
      bufferOwner doc l id = some o := by
  unfold liveOwner
  constructor
  · intro hLive
    cases hMine : sectionsOn doc l id with
    | false => simp [hMine] at hLive
    | true => simpa [hMine] using hLive
  · intro hOwner
    rw [sectionsOn_of_owner hDoc hOwner, if_pos hOn]
    exact hOwner

/- Such a profile assigns what is read of its own node. -/
theorem ownAssigned_of_owner
    (hDoc : EnabledDocument doc)
    (hOn : sectionsOn doc l o = true)
    (hOwner : bufferOwner doc l id = some o) :
    ownAssigned doc l id =
      readAt doc (id.path ++ l.path) := by
  rcases bufferOwner_spec hDoc hOwner with ⟨_, _, _, hSome⟩
  cases hRead : readAt doc (id.path ++ l.path) with
  | none => exact ownAssigned_kept hDoc hRead hSome
  | some c =>
      rw [← sectionsOn_of_owner hDoc hOwner] at hOn
      exact ownAssigned_read hOn hRead

theorem room_eq
    (hDoc : EnabledDocument doc)
    (hOn : sectionsOn doc l o = true)
    (hSelf : bufferOwner doc l o = some o) :
    room libcxx (stringPlan doc l) o =
      bufferRoom doc l o := by
  unfold room bufferRoom stringPlan
  dsimp only
  rw [ownAssigned_of_owner hDoc hOn hSelf]

theorem fits_iff
    (hDoc : EnabledDocument doc)
    (hOn : sectionsOn doc l o = true)
    (hSelf : bufferOwner doc l o = some o) :
    Fits libcxx (stringPlan doc l) (liveOwner doc l)
        ProfileName.loadOrder o ↔
      ∀ (q : ProfileName) (c : String),
        bufferOwner doc l q = some o →
        readAt doc (q.path ++ l.path) = some c →
        (bytes c).length ≤ bufferRoom doc l o := by
  unfold Fits
  rw [room_eq hDoc hOn hSelf]
  constructor
  · intro hFits q c hOwner hRead
    apply
      hFits q (mem_loadOrder q)
        ((liveOwner_eq_some_iff hDoc hOn).mpr hOwner)
    unfold stringPlan
    dsimp only
    rw [ownAssigned_of_owner hDoc hOn hOwner, hRead]
    rfl
  · intro hFits q _ hLive text hText
    have hOwner := (liveOwner_eq_some_iff hDoc hOn).mp hLive
    unfold stringPlan at hText
    dsimp only at hText
    rw [ownAssigned_of_owner hDoc hOn hOwner] at hText
    rcases Option.map_eq_some_iff.mp hText with
      ⟨c, hRead, rfl⟩
    exact hFits q c hOwner hRead

theorem lastText_eq
    (hDoc : EnabledDocument doc)
    (hOn : sectionsOn doc l o = true) :
    lastText (stringPlan doc l) (liveOwner doc l)
        ProfileName.loadOrder o =
      (lastRead doc l o).map bytes := by
  unfold lastText lastRead
  rw [List.map_findSome?]
  congr 1
  funext q
  by_cases hOwner : bufferOwner doc l q = some o
  · have hLive :=
      (liveOwner_eq_some_iff hDoc hOn).mpr hOwner
    simp [hLive, hOwner, stringPlan,
      ownAssigned_of_owner hDoc hOn hOwner]
  · have hLive : liveOwner doc l q ≠ some o := by
      intro hSome
      exact
        hOwner ((liveOwner_eq_some_iff hDoc hOn).mp hSome)
    simp [hLive, hOwner]

/- Of a string, what the rule of shared buffers asks for. -/
theorem leafKept_iff
    (hDoc : EnabledDocument doc)
    (hString : l.kind = .string)
    (hOn : sectionsOn doc l id = true) :
    (((nearestText doc l id).isSome = true →
        (nearestRead doc l id).isSome = true) ∧
      ReadsAs libcxx (stringPlan doc l) (shownText doc l)
        (liveOwner doc l) ProfileName.loadOrder id
        (bytes
          ((nearestText doc l id).getD l.defaultText))) ↔
      LeafKept doc l id := by
  have hConvert :
      ∀ c v, l.kind.convert c = .ok v → HEq v c := by
    intro c v hSame
    generalize l.kind = k at hString v hSame
    subst hString
    cases hSame
    rfl
  have hConverts : ∀ c, ∃ v, l.kind.convert c = .ok v := by
    intro c
    rw [hString]
    exact ⟨c, rfl⟩
  have hLive :
      liveOwner doc l id = bufferOwner doc l id := by
    rw [liveOwner, if_pos hOn]
  have hShown :
      shownText doc l id =
        bytes ((nearestRead doc l id).getD l.defaultText) := by
    rw [shownText, if_pos hOn]
  unfold ReadsAs LeafKept
  rw [hLive, hShown]
  cases hOwner : bufferOwner doc l id with
  | none =>
      dsimp only
      unfold ReadAlike
      cases hRead : nearestRead doc l id with
      | none =>
          cases hText : nearestText doc l id with
          | none => simp
          | some text => simp
      | some c =>
          cases hText : nearestText doc l id with
          | none =>
              have hThere :=
                nearestText_of_read (by rw [hRead]; rfl)
              rw [hText] at hThere
              cases hThere
          | some text =>
              simp only [Option.isSome_some, imp_self,
                true_and, Option.getD_some]
              constructor
              · intro hSame
                rcases hConverts c with ⟨v, hv⟩
                refine ⟨v, hv, ?_⟩
                rw [← bytes_inj hSame]
                exact hv
              · rintro ⟨v, hLeft, hRight⟩
                have hSame :=
                  (hConvert c v hLeft).symm.trans
                    (hConvert text v hRight)
                rw [eq_of_heq hSame]
  | some o =>
      rcases bufferOwner_spec hDoc hOwner with
        ⟨hSelf, _, _, hSome⟩
      have hOnOwner : sectionsOn doc l o = true := by
        rw [← sectionsOn_of_owner hDoc hOwner]
        exact hOn
      dsimp only
      rw [fits_iff hDoc hOnOwner hSelf,
        lastText_eq hDoc hOnOwner]
      rcases Option.isSome_iff_exists.mp hSome with
        ⟨c, hRead⟩
      rcases Option.isSome_iff_exists.mp
        (nearestText_of_read hSome) with ⟨text, hText⟩
      rw [hRead, hText]
      simp only [Option.isSome_some, imp_self, true_and,
        Option.getD_some]
      constructor
      · rintro ⟨hFits, last, hLast, hLength, hPrefix⟩
        rcases Option.map_eq_some_iff.mp hLast with
          ⟨c', hLast', rfl⟩
        exact
          ⟨hFits, c, text, c', hRead, hText, hLast', hLength,
            hPrefix⟩
      · rintro ⟨hFits, c', text', last, hRead', hText', hLast,
          hLength, hPrefix⟩
        rw [hRead] at hRead'
        rw [hText] at hText'
        cases hRead'
        cases hText'
        exact
          ⟨hFits, bytes last, by rw [hLast]; rfl, hLength,
            hPrefix⟩

theorem defaultText_plain
    (hString : l.kind = .string) :
    (0 : UInt8) ∉ bytes l.defaultText := by
  cases l with
  | governor c => cases c <;> decide +kernel
  | defaults => decide +kernel
  | foreground => decide +kernel
  | foregroundBoost => decide +kernel
  | background => decide +kernel
  | systemBackground => decide +kernel
  | topApp => decide +kernel
  | tail => decide +kernel
  | head => decide +kernel
  | _ => cases hString

theorem nearestText_plain
    (hDoc : EnabledDocument doc)
    (hString : l.kind = .string)
    (id : ProfileName) :
    (0 : UInt8) ∉
      bytes ((nearestText doc l id).getD l.defaultText) := by
  cases hText : nearestText doc l id with
  | none => exact defaultText_plain hString
  | some text =>
      rcases List.exists_of_findSome?_eq_some hText with
        ⟨q, _, hThere⟩
      exact hDoc.plain q l text hThere

/- All objects of a string, after all profiles are loaded. -/
theorem stringsInherited_iff
    (hDoc : EnabledDocument doc)
    (hRight : LoadedRight doc ProfileName.loadOrder loaded)
    (hString : l.kind = .string) :
    (∀ id,
      sectionsOn doc l id = true →
      LeafInherited doc loaded id l) ↔
      ∀ id,
        sectionsOn doc l id = true → LeafKept doc l id := by
  have hRun :=
    @run_read_iff _ _ _ libcxx (stringPlan doc l)
      (shownText doc l) (liveOwner doc l)
      ProfileName.loadOrder (traced hDoc hString)
      (ordered_loadOrder hDoc l)
      (fun id => sectionsOn doc l id = true)
      (by
        intro id o hOwner hOn
        rw [liveOwner, if_pos hOn] at hOwner
        rw [← sectionsOn_of_owner hDoc hOwner]
        exact hOn)
      (fun id =>
        bytes ((nearestText doc l id).getD l.defaultText))
      (fun id _ => nearestText_plain hDoc hString id)
  have hFlag :
      ∀ id,
        sectionsOn doc l id = true →
        ((((loaded.store id).leaves l).set = true ↔
            ∃ q ∈ chainOf doc id,
              HasMatch doc (q.path ++ l.path)) ↔
          ((nearestText doc l id).isSome = true →
            (nearestRead doc l id).isSome = true)) :=
    fun id hOn =>
      (hRight.record id (mem_loadOrder id)).flag_iff hOn
  have hHolds :
      ∀ id text,
        LeafHolds loaded id l text ↔
          (run libcxx (stringPlan doc l)
            ProfileName.loadOrder).read id =
              some (bytes text) := by
    intro id text
    rw [LeafHolds, if_pos hString, hRight.strings l hString]
  constructor
  · intro hAll
    have hKept :=
      hRun.mp
        (fun id _ hOn => (hHolds id _).mp (hAll id hOn).value)
    intro id hOn
    exact
      (leafKept_iff hDoc hString hOn).mp
        ⟨(hFlag id hOn).mp (hAll id hOn).flag,
          hKept id (mem_loadOrder id) hOn⟩
  · intro hAll
    have hRead :=
      hRun.mpr
        (fun id _ hOn =>
          ((leafKept_iff hDoc hString hOn).mpr
            (hAll id hOn)).2)
    intro id hOn
    exact
      ⟨(hFlag id hOn).mpr
          ((leafKept_iff hDoc hString hOn).mpr
            (hAll id hOn)).1,
        (hHolds id _).mpr (hRead id (mem_loadOrder id) hOn)⟩

/- What the leaf pass reads converts, if it is kept. -/
theorem LeafKept.accepts
    (hDoc : EnabledDocument doc)
    (hKept : LeafKept doc l id) :
    (readAt doc (id.path ++ l.path)).all l.kind.accepts =
      true := by
  cases hRead : readAt doc (id.path ++ l.path) with
  | none => rfl
  | some c =>
      rw [Option.all_some, Kind.accepts_iff]
      by_cases hString : l.kind = .string
      · rw [hString]
        exact succeeds_ok c
      · have hNoOwner : bufferOwner doc l id = none := by
          unfold bufferOwner
          rw [List.find?_eq_none]
          intro q _
          simp [longRead, hString]
        have hNear : nearestRead doc l id = some c := by
          rw [nearestRead_eq hDoc.extendsEarlier, hRead]
          rfl
        unfold LeafKept at hKept
        rw [hNoOwner] at hKept
        dsimp only at hKept
        unfold ReadAlike at hKept
        rw [hNear] at hKept
        cases hText : nearestText doc l id with
        | none => rw [hText] at hKept; cases hKept
        | some text =>
            rw [hText] at hKept
            rcases hKept with ⟨v, hConvert, _⟩
            exact ⟨v, hConvert⟩

/- The leaves of all profiles, whatever their type is. -/
theorem leavesInherited_iff
    (hDoc : EnabledDocument doc)
    (hRight : LoadedRight doc ProfileName.loadOrder loaded)
    (l : Leaf) :
    (∀ id,
      sectionsOn doc l id = true →
      LeafInherited doc loaded id l) ↔
      ∀ id,
        sectionsOn doc l id = true → LeafKept doc l id := by
  by_cases hString : l.kind = .string
  · exact stringsInherited_iff hDoc hRight hString
  · apply forall_congr'
    intro id
    apply imp_congr_right
    intro hOn
    exact
      leafInherited_iff_of_value
        (hRight.record id (mem_loadOrder id)) hOn hString

/- A profile that is loaded as enabled was found enabled. -/
theorem enabled_of_loaded
    {made : List ProfileName}
    (hNodup : made.Nodup)
    (hLoad :
      made.foldlM (StringObjects.loadInto doc)
        Loaded.initial = .ok loaded) :
    (∀ id,
        id ∉ made →
        loaded.store id = SecPowerProfile.zero) ∧
      ∀ id ∈ made,
        (loaded.store id).enabled = true →
        firstPassSwitch doc id .profile = true := by
  induction made using List.reverseRecOn
    generalizing loaded with
  | nil =>
      cases hLoad
      exact ⟨fun _ _ => rfl, by simp⟩
  | append_singleton made id ih =>
      rw [foldlM_snoc] at hLoad
      rcases bind_eq_ok_iff.mp hLoad with
        ⟨before, hBefore, hInto⟩
      rw [List.nodup_append] at hNodup
      have hNew : id ∉ made := by
        intro hIn
        exact hNodup.2.2 id hIn id (by simp) rfl
      rcases ih hNodup.1 hBefore with ⟨hZero, hFound⟩
      rcases bind_eq_ok_iff.mp hInto with
        ⟨state, hImpl, hSame⟩
      cases hSame
      rcases bind_eq_ok_iff.mp hImpl with
        ⟨p, hSwitches, hRest⟩
      have hValue :=
        switchPass_switch (by rw [hZero id hNew]) hSwitches
          .profile
      refine ⟨?_, ?_⟩
      · intro q hOut
        have hNe : q ≠ id := by
          rintro rfl
          exact hOut (List.mem_append_right _ (by simp))
        dsimp only
        rw [Function.update_of_ne hNe]
        exact
          hZero q
            (fun hIn => hOut (List.mem_append_left _ hIn))
      · intro q hIn hEnabled
        dsimp only at hEnabled
        by_cases hNe : q = id
        · subst hNe
          rw [Function.update_self] at hEnabled
          rw [← hValue]
          by_cases hOwn : p.enabled = true
          · exact hOwn
          · rw [if_neg hOwn] at hRest
            cases hRest
            exact hEnabled
        · rw [Function.update_of_ne hNe] at hEnabled
          refine hFound q ?_ hEnabled
          rcases List.mem_append.mp hIn with hMade | hLast
          · exact hMade
          · exact absurd (List.mem_singleton.mp hLast) hNe

/-
  A document of this kind is loaded with every profile enabled
  and every leaf of the enabled sections inherited along the
  chains, if and only if the profiles are found enabled, the
  governor lists of enabled clusters fit into their buffers,
  every such leaf is read as it is written and no shared
  buffer shows another text than its profiles have.
-/
theorem leaf_inherited_iff
    (doc : Document)
    (hDoc : InheritanceDocument doc) :
    (∃ loaded,
      StringObjects.loadProfilesImpl doc = .ok loaded ∧
      (∀ id, (loaded.store id).enabled = true) ∧
      ∀ (id : ProfileName) (l : Leaf),
        (∀ s ∈ l.sections,
          (loaded.store id).on s = true) →
        LeafInherited doc loaded id l) ↔
      AllEnabled doc ∧
        (∀ (id : ProfileName) (c : Cluster),
          sectionsOn doc (.governor c) id = true →
          GovernorListFits doc id c) ∧
        ∀ (id : ProfileName) (l : Leaf),
          sectionsOn doc l id = true →
          LeafKept doc l id := by
  constructor
  · rintro ⟨loaded, hLoad, hEnabled, hAll⟩
    have hFound :=
      (enabled_of_loaded (by decide) hLoad).2
    have hOn : EnabledDocument doc :=
      { hDoc with
        enabled := fun id =>
          hFound id (mem_loadOrder id) (hEnabled id) }
    have hRight :=
      loadedRight_of_ordered hOn
        (ordered_loadOrder hOn .tail) hLoad
    refine
      ⟨hOn.enabled,
        fun id =>
          (hRight.record id (mem_loadOrder id)).governor, ?_⟩
    intro id l
    refine (leavesInherited_iff hOn hRight l).mp ?_ id
    intro q hLive
    exact
      hAll q l
        ((hRight.record q (mem_loadOrder q)).on_iff.mpr hLive)
  · rintro ⟨hEnabled, hFits, hAll⟩
    have hOn : EnabledDocument doc :=
      { hDoc with enabled := hEnabled }
    have hOrdered := ordered_loadOrder hOn .tail
    rcases
      succeeds_of_ordered hOn
        (fun id l hLive => (hAll id l hLive).accepts hOn)
        hFits hOrdered with
      ⟨loaded, hLoad⟩
    have hRight := loadedRight_of_ordered hOn hOrdered hLoad
    refine ⟨loaded, hLoad, ?_, ?_⟩
    · intro id
      exact (hRight.record id (mem_loadOrder id)).enabled
    · intro id l hLive
      exact
        (leavesInherited_iff hOn hRight l).mpr
          (fun q hSections => hAll q l hSections) id
          ((hRight.record id (mem_loadOrder id)).on_iff.mp
            hLive)

/- The leaf that a statement names. -/
def LoadAction.leaf? : LoadAction → Option Leaf
| .set l => some l
| .cpugov _ => none

/- The statements of the script name all leaves. -/
theorem forall_leaf
    {P : Leaf → Prop}
    (hScript :
      ∀ stmt ∈ loadScript, ∀ l ∈ stmt.action.leaf?, P l)
    (l : Leaf) :
    P l := by
  have hMem :
      (⟨l.sections, .set l⟩ : LoadStmt) ∈
        loadScript.filter
          (fun stmt => stmt.action = .set l) := by
    rw [loadScript_filter l]
    simp
  exact hScript _ (List.mem_of_mem_filter hMem) l rfl

/- A document is well formed if its finitely many nodes are. -/
theorem inheritanceDocument_of_nodes
    (hExtends :
      ∀ id ∈ ProfileName.loadOrder,
        ∀ name ∈ extendsOf doc id, NamesEarlier id name)
    (hSwitches :
      ∀ id ∈ ProfileName.loadOrder,
        textAt doc (id.path ++ Switch.profile.path) ≠
            some "" ∧
          ∀ s ∈ Section.initOrder,
            textAt doc
              (id.path ++ (Switch.ofSection s).path) ≠
                some "")
    (hLeaves :
      ∀ id ∈ ProfileName.loadOrder,
        ∀ stmt ∈ loadScript,
          ∀ l ∈ stmt.action.leaf?,
            textAt doc (id.path ++ l.path) ≠ some "" ∧
              ∀ text ∈ textAt doc (id.path ++ l.path),
                (0 : UInt8) ∉ bytes text) :
    InheritanceDocument doc where
  extendsEarlier := fun id name =>
    hExtends id (mem_loadOrder id) name
  switchText := by
    intro id sw
    have hBoth := hSwitches id (mem_loadOrder id)
    cases sw with
    | profile => exact hBoth.1
    | ofSection s => exact hBoth.2 s (section_mem_initOrder s)
  leafText := fun id l =>
    (forall_leaf (hLeaves id (mem_loadOrder id)) l).1
  plain := fun id l text =>
    (forall_leaf (hLeaves id (mem_loadOrder id)) l).2 text

/- Texts that are read as they are written, in any buffer. -/
theorem leafKept_of_read
    (hSame : nearestRead doc l id = nearestText doc l id)
    (hAccepts :
      (nearestRead doc l id).all l.kind.accepts = true)
    (hBuffer :
      ∀ o ∈ bufferOwner doc l id,
        (∀ q ∈ ProfileName.loadOrder,
          bufferOwner doc l q = some o →
          ∀ c ∈ readAt doc (q.path ++ l.path),
            (bytes c).length ≤ bufferRoom doc l o) ∧
        (nearestRead doc l id).any (fun c =>
          (lastRead doc l o).any (fun last =>
            bytes c <+: bytes last)) = true) :
    LeafKept doc l id := by
  unfold LeafKept
  cases hOwner : bufferOwner doc l id with
  | none =>
      dsimp only
      unfold ReadAlike
      rw [← hSame]
      cases hRead : nearestRead doc l id with
      | none => trivial
      | some c =>
          rw [hRead, Option.all_some, Kind.accepts_iff]
            at hAccepts
          rcases hAccepts with ⟨v, hConvert⟩
          exact ⟨v, hConvert, hConvert⟩
  | some o =>
      rcases hBuffer o hOwner with ⟨hFits, hText⟩
      rw [Option.any_eq_true] at hText
      rcases hText with ⟨c, hRead, hLast⟩
      rw [Option.any_eq_true] at hLast
      rcases hLast with ⟨last, hLast, hPrefix⟩
      exact
        ⟨fun q c hOwn hRead =>
            hFits q (mem_loadOrder q) hOwn c hRead,
          c, c, last,
          hRead, hSame ▸ hRead, hLast, rfl,
          of_decide_eq_true hPrefix⟩

/-
  `performance` extends `balanced`, which has a text of 25
  characters, and has a text of its own.
-/
def sharedDocument (own : String) : Document where
  nodes :=
    [.element "profiles" []
      [profileElement .screenOff none
        [textElement "enabled" "true"],
        profileElement .powerSave none
          [textElement "enabled" "true"],
        profileElement .biasPowerSave none
          [textElement "enabled" "true"],
        profileElement .balanced none
          [textElement "enabled" "true",
            .element "input_booster" []
              [textElement "enabled" "true",
                textElement "head"
                  "130 1500000 1200000 0 0 0"]],
        profileElement .biasPerformance none
          [textElement "enabled" "true"],
        profileElement .performance (some .balanced)
          [textElement "enabled" "true",
            .element "input_booster" []
              [textElement "head" own]]]]

/- The longer text of the child begins with the parent's. -/
theorem leaf_inherited_iff_longer :
    InheritanceDocument
        (sharedDocument "130 1500000 1200000 0 0 0 1") ∧
      bufferOwner
          (sharedDocument "130 1500000 1200000 0 0 0 1")
          .head .performance =
        some .balanced ∧
      ∃ loaded,
        StringObjects.loadProfilesImpl
            (sharedDocument "130 1500000 1200000 0 0 0 1") =
          .ok loaded ∧
        (∀ id, (loaded.store id).enabled = true) ∧
        ∀ (id : ProfileName) (l : Leaf),
          (∀ s ∈ l.sections,
            (loaded.store id).on s = true) →
          LeafInherited
            (sharedDocument "130 1500000 1200000 0 0 0 1")
            loaded id l := by
  have hDoc :
      InheritanceDocument
        (sharedDocument "130 1500000 1200000 0 0 0 1") :=
    inheritanceDocument_of_nodes (by decide +kernel)
      (by decide +kernel) (by decide +kernel)
  have hEnabled :
      ∀ id ∈ ProfileName.loadOrder,
        (readAt (sharedDocument "130 1500000 1200000 0 0 0 1")
          (id.path ++ Switch.profile.path)).any toBool =
            true := by
    decide +kernel
  have hOff :
      ∀ id ∈ ProfileName.loadOrder,
        ∀ c ∈ [Cluster.apollo, .atlas],
          sectionsOn
              (sharedDocument "130 1500000 1200000 0 0 0 1")
              (.governor c) id =
            false := by
    decide +kernel
  refine
    ⟨hDoc, by decide +kernel,
      (leaf_inherited_iff _ hDoc).mpr
        ⟨fun id => hEnabled id (mem_loadOrder id), ?_, ?_⟩⟩
  · intro id c hOn
    rw [hOff id (mem_loadOrder id) c (by cases c <;> decide)]
      at hOn
    cases hOn
  intro id l _
  have hSame :
      ∀ id ∈ ProfileName.loadOrder,
        ∀ stmt ∈ loadScript,
          ∀ l ∈ stmt.action.leaf?,
            nearestRead
                (sharedDocument
                  "130 1500000 1200000 0 0 0 1") l id =
              nearestText
                (sharedDocument
                  "130 1500000 1200000 0 0 0 1") l id ∧
            (nearestRead
                (sharedDocument
                  "130 1500000 1200000 0 0 0 1") l id).all
              l.kind.accepts = true := by
    decide +kernel
  have hBuffer :
      ∀ id ∈ ProfileName.loadOrder,
        ∀ stmt ∈ loadScript,
          ∀ l ∈ stmt.action.leaf?,
            ∀ o ∈ bufferOwner
                (sharedDocument
                  "130 1500000 1200000 0 0 0 1") l id,
              (∀ q ∈ ProfileName.loadOrder,
                bufferOwner
                    (sharedDocument
                      "130 1500000 1200000 0 0 0 1") l q =
                  some o →
                ∀ c ∈ readAt
                    (sharedDocument
                      "130 1500000 1200000 0 0 0 1")
                    (q.path ++ l.path),
                  (bytes c).length ≤
                    bufferRoom
                      (sharedDocument
                        "130 1500000 1200000 0 0 0 1") l
                      o) ∧
              (nearestRead
                  (sharedDocument
                    "130 1500000 1200000 0 0 0 1") l
                  id).any (fun c =>
                (lastRead
                  (sharedDocument
                    "130 1500000 1200000 0 0 0 1") l o).any
                  (fun last => bytes c <+: bytes last)) =
                true := by
    decide +kernel
  have hBoth :=
    forall_leaf (hSame id (mem_loadOrder id)) l
  exact
    leafKept_of_read hBoth.1 hBoth.2
      (forall_leaf (hBuffer id (mem_loadOrder id)) l)

/-
  A text of the child that is as long overwrites the text of
  the parent.
-/
theorem leaf_overwritten :
    InheritanceDocument
        (sharedDocument "200 2100000 1500000 0 0 0") ∧
      ∃ loaded,
        StringObjects.loadProfilesImpl
            (sharedDocument "200 2100000 1500000 0 0 0") =
          .ok loaded ∧
        (∀ id, (loaded.store id).enabled = true) ∧
        (∀ s ∈ Leaf.head.sections,
          (loaded.store .balanced).on s = true) ∧
        nearestText
            (sharedDocument "200 2100000 1500000 0 0 0")
            .head .balanced =
          some "130 1500000 1200000 0 0 0" ∧
        (loaded.strings .head).read .balanced =
          some (bytes "200 2100000 1500000 0 0 0") ∧
        ¬ LeafInherited
          (sharedDocument "200 2100000 1500000 0 0 0")
          loaded .balanced .head := by
  have hDoc :
      InheritanceDocument
        (sharedDocument "200 2100000 1500000 0 0 0") :=
    inheritanceDocument_of_nodes (by decide +kernel)
      (by decide +kernel) (by decide +kernel)
  have hLoads :
      (StringObjects.loadProfilesImpl
        (sharedDocument
          "200 2100000 1500000 0 0 0")).toOption.any
        (fun loaded =>
          ProfileName.loadOrder.all
              (fun id => (loaded.store id).enabled) &&
            Leaf.head.sections.all
              (loaded.store .balanced).on &&
            decide
              ((loaded.strings .head).read .balanced =
                some (bytes
                  "200 2100000 1500000 0 0 0"))) = true := by
    decide +kernel
  have hText :
      nearestText
          (sharedDocument "200 2100000 1500000 0 0 0")
          .head .balanced =
        some "130 1500000 1200000 0 0 0" := by
    decide +kernel
  rw [Option.any_eq_true] at hLoads
  rcases hLoads with ⟨loaded, hLoad, hBoth⟩
  rw [Bool.and_eq_true, Bool.and_eq_true, List.all_eq_true,
    List.all_eq_true, decide_eq_true_eq] at hBoth
  rcases hBoth with ⟨⟨hEnabled, hOn⟩, hRead⟩
  refine
    ⟨hDoc, loaded, ?_,
      fun id => hEnabled id (mem_loadOrder id), hOn, hText,
      hRead, ?_⟩
  · cases hImpl : StringObjects.loadProfilesImpl
        (sharedDocument "200 2100000 1500000 0 0 0") with
    | error fault =>
        rw [hImpl] at hLoad
        cases hLoad
    | ok result =>
        rw [hImpl] at hLoad
        cases hLoad
        rfl
  · intro hInherited
    have hHolds := hInherited.value
    rw [hText, LeafHolds, if_pos (by decide), hRead,
      Option.getD_some] at hHolds
    exact
      absurd (Option.some.inj hHolds) (by decide +kernel)

end Profiles

end Universal7420
