import Universal7420.Lib.SharedText
import Universal7420.Power.Inheritance

/-
  The strings of the profile records.

  The records of `Profiles.h` have members of type
  `std::string`, and `loadProfileImpl` copies the record of
  the parent with `memcpy`.  What is copied of a string is its
  object, so a long text stays in one buffer that the parent
  and the child both point to.

  The loader here runs beside the one that copies members by
  value.  It leaves the same records, and the string objects
  of the six records next to them.

  Main declarations:
    * `Universal7420.Profiles.StringObjects.libcxx`
    * `Universal7420.Profiles.StringObjects.memcpyStrings`
    * `Universal7420.Profiles.StringObjects.profileSet`
    * `Universal7420.Profiles.StringObjects.loadProfilesImpl`
    * `Universal7420.Profiles.StringObjects.loadProfilesImpl_store`
    * `Universal7420.Profiles.StringObjects.leafPass_string`
-/

------------------------------------------------------------
-- Strings In Memory
------------------------------------------------------------

namespace Universal7420

namespace Profiles

namespace StringObjects

open SharedText

/-
  `std::string` of libc++ on a 64-bit target.  An object has
  room for 22 characters, and a new buffer has at least twice
  the old room, in multiples of 16 bytes with the null
  character.
-/
def libcxx : Layout UInt8 where
  null := 0
  short := 22
  grown := fun capacity size =>
    (max size (2 * capacity) + 16) / 16 * 16 - 1
  fits := by
    intro capacity size
    omega

/- The characters of a C string. -/
def bytes (c : String) : List UInt8 :=
  c.toUTF8.data.toList

theorem bytes_inj
    {a b : String}
    (hSame : bytes a = bytes b) :
    a = b := by
  have hData : a.toUTF8 = b.toUTF8 :=
    ByteArray.ext (Array.toList_inj.mp hSame)
  exact String.toByteArray_inj.mp hData

/-
  For each string member its objects in the six records, and
  their buffers.  No buffer serves two members.
-/
abbrev Strings : Type :=
  Leaf → Memory ProfileName UInt8

/- The static records, with their strings in memory. -/
structure Loaded where
  store : Store
  strings : Strings

end StringObjects

end Profiles

end Universal7420

------------------------------------------------------------
-- The Loader
------------------------------------------------------------

namespace Universal7420

namespace Profiles

open Xml SharedText

/- The profile that a profile copies, if it names one. -/
def parentOf
    (doc : Document)
    (id : ProfileName) : Option ProfileName :=
  (extendsOf doc id).bind ProfileName.ofElement?

namespace StringObjects

/- What `memcpy` does to the strings of a record. -/
def memcpyStrings
    (doc : Document)
    (id : ProfileName)
    (strings : Strings) : Strings :=
  match parentOf doc id with
  | none => strings
  | some parent => fun l => (strings l).copy id parent

def assignString
    (id : ProfileName)
    (strings : Strings)
    (l : Leaf)
    (c : String) : Strings :=
  Function.update strings l
    ((strings l).assign libcxx id (bytes c))

/- `PROFILE_SET` on a string member. -/
def profileSet
    (doc : Document)
    (id : ProfileName)
    (p : SecPowerProfile)
    (strings : Strings)
    (l : Leaf) : Strings :=
  match xmlGet doc (id.path ++ l.path) with
  | .error _ => strings
  | .ok (some c) => assignString id strings l c
  | .ok none =>
      if (p.leaves l).set then
        strings
      else
        assignString id strings l l.defaultText

/- What one statement does to the strings. -/
def stringStmt
    (doc : Document)
    (id : ProfileName)
    (p : SecPowerProfile)
    (strings : Strings)
    (stmt : LoadStmt) : Strings :=
  if stmt.guards.all p.on then
    match stmt.action with
    | .set l =>
        if l.kind = .string then
          profileSet doc id p strings l
        else
          strings
    | .cpugov _ => strings
  else
    strings

def loadStmt
    (doc : Document)
    (id : ProfileName)
    (state : SecPowerProfile × Strings)
    (stmt : LoadStmt) :
    Except LoadFault (SecPowerProfile × Strings) := do
  let p ← Profiles.loadStmt doc id state.1 stmt
  return (p, stringStmt doc id state.1 state.2 stmt)

/- `Profiles::loadProfileImpl` -/
def loadProfileImpl
    (doc : Document)
    (loaded : Loaded)
    (id : ProfileName) :
    Except LoadFault (SecPowerProfile × Strings) := do
  let p ← switchPass doc id (loaded.store id)
  if p.enabled then
    let p ← inheritParent doc loaded.store id p
    loadScript.foldlM (loadStmt doc id)
      (p, memcpyStrings doc id loaded.strings)
  else
    return (p, loaded.strings)

def loadInto
    (doc : Document)
    (loaded : Loaded)
    (id : ProfileName) :
    Except LoadFault Loaded := do
  let state ← loadProfileImpl doc loaded id
  return {
    store := Function.update loaded.store id state.1
    strings := state.2 }

/- The records before anything is loaded. -/
def Loaded.initial : Loaded where
  store := fun _ => SecPowerProfile.zero
  strings := fun _ => Memory.initial

/- `Profiles::loadProfilesImpl` on a parsed document. -/
def loadProfilesImpl
    (doc : Document) : Except LoadFault Loaded :=
  ProfileName.loadOrder.foldlM (loadInto doc) Loaded.initial

end StringObjects

end Profiles

end Universal7420

------------------------------------------------------------
-- The Same Records
------------------------------------------------------------

namespace Universal7420

namespace Profiles

namespace StringObjects

open Xml Fallible SharedText

variable {doc : Document}
variable {id : ProfileName}

theorem loadStmts_record
    (stmts : List LoadStmt)
    (state : SecPowerProfile × Strings) :
    (stmts.foldlM (loadStmt doc id) state).map Prod.fst =
      stmts.foldlM (Profiles.loadStmt doc id) state.1 := by
  apply foldlM_map
  intro s stmt
  unfold loadStmt
  cases Profiles.loadStmt doc id s.1 stmt with
  | error e => rfl
  | ok p => rfl

theorem loadProfileImpl_record
    (loaded : Loaded) :
    (loadProfileImpl doc loaded id).map Prod.fst =
      Profiles.loadProfileImpl doc loaded.store id := by
  unfold loadProfileImpl Profiles.loadProfileImpl
  cases switchPass doc id (loaded.store id) with
  | error e => rfl
  | ok p =>
      cases hEnabled : p.enabled with
      | false => simp [bind, Except.bind, hEnabled]; rfl
      | true =>
          simp only [bind, Except.bind, hEnabled, if_true]
          cases inheritParent doc loaded.store id p with
          | error e => rfl
          | ok r => exact loadStmts_record loadScript _

theorem loadInto_store
    (loaded : Loaded) :
    (loadInto doc loaded id).map Loaded.store =
      Profiles.loadInto doc loaded.store id := by
  unfold loadInto Profiles.loadInto
  rw [← loadProfileImpl_record loaded]
  cases loadProfileImpl doc loaded id with
  | error e => rfl
  | ok state => rfl

/- The records are those of the loader that copies by value. -/
theorem loadProfilesImpl_store
    (doc : Document) :
    (loadProfilesImpl doc).map Loaded.store =
      Profiles.loadProfilesImpl doc :=
  foldlM_map Loaded.store
    (fun loaded _ => loadInto_store loaded)
    ProfileName.loadOrder Loaded.initial

end StringObjects

end Profiles

end Universal7420

------------------------------------------------------------
-- The Strings Of One Member
------------------------------------------------------------

namespace Universal7420

namespace Profiles

namespace StringObjects

open Xml Fallible SharedText

variable {doc : Document}
variable {id : ProfileName}

/- What a record assigns to a member in its leaf pass. -/
def assignedText
    (doc : Document)
    (id : ProfileName)
    (p : SecPowerProfile)
    (l : Leaf) : Option String :=
  if l.sections.all p.on then
    match readAt doc (id.path ++ l.path) with
    | some c => some c
    | none =>
        if (p.leaves l).set then none else some l.defaultText
  else
    none

theorem assignString_other
    {strings : Strings}
    {l l' : Leaf}
    {c : String}
    (hOther : l ≠ l') :
    assignString id strings l' c l = strings l :=
  Function.update_of_ne hOther _ _

theorem profileSet_other
    {p : SecPowerProfile}
    {strings : Strings}
    {l l' : Leaf}
    (hOther : l ≠ l') :
    profileSet doc id p strings l' l = strings l := by
  unfold profileSet
  cases xmlGet doc (id.path ++ l'.path) with
  | error e => rfl
  | ok text =>
      cases text with
      | some c => exact assignString_other hOther
      | none =>
          dsimp only
          split
          · rfl
          · exact assignString_other hOther

/- Other statements leave the strings of a member. -/
theorem stringStmt_other
    {p : SecPowerProfile}
    {strings : Strings}
    {stmt : LoadStmt}
    {l : Leaf}
    (hOther : stmt.action ≠ .set l) :
    stringStmt doc id p strings stmt l = strings l := by
  unfold stringStmt
  split
  · cases hAction : stmt.action with
    | cpugov c => rfl
    | set l' =>
        dsimp only
        split
        · apply profileSet_other
          rintro rfl
          exact hOther hAction
        · rfl
  · rfl

/- The statement of a member assigns its text. -/
theorem stringStmt_self
    {p q : SecPowerProfile}
    {strings : Strings}
    {l : Leaf}
    (hString : l.kind = .string)
    (hStmt :
      Profiles.loadStmt doc id p ⟨l.sections, .set l⟩ =
        .ok q) :
    stringStmt doc id p strings ⟨l.sections, .set l⟩ l =
      match assignedText doc id p l with
      | none => strings l
      | some c =>
          (strings l).assign libcxx id (bytes c) := by
  unfold stringStmt assignedText
  by_cases hOn : l.sections.all p.on = true
  · simp only [hOn, if_true, hString]
    have hGet :
        xmlGet doc (id.path ++ l.path) =
          .ok (readAt doc (id.path ++ l.path)) := by
      rw [Profiles.loadStmt, if_pos hOn] at hStmt
      rcases bind_eq_ok_iff.mp hStmt with ⟨v, hSetting, _⟩
      rcases bind_eq_ok_iff.mp hSetting with ⟨c, hGet, _⟩
      rw [hGet, xmlGet_eq_ok hGet]
    unfold profileSet
    rw [hGet]
    cases readAt doc (id.path ++ l.path) with
    | some c => exact Function.update_self _ _ _
    | none =>
        dsimp only
        cases hSet : (p.leaves l).set with
        | true => simp
        | false =>
            simp only [Bool.false_eq_true, if_false]
            exact Function.update_self _ _ _
  · simp only [hOn]
    rfl

/- The leaf pass assigns to a string member at most once. -/
theorem leafPass_string
    {r : SecPowerProfile}
    {strings : Strings}
    {state : SecPowerProfile × Strings}
    {l : Leaf}
    (hString : l.kind = .string)
    (hPass :
      loadScript.foldlM (loadStmt doc id) (r, strings) =
        .ok state) :
    state.2 l =
      match assignedText doc id r l with
      | none => strings l
      | some c =>
          (strings l).assign libcxx id (bytes c) := by
  have hKept :
      ∀ (stmt : LoadStmt)
        (s t : SecPowerProfile × Strings),
        decide (stmt.action = .set l) = false →
        loadStmt doc id s stmt = .ok t →
        (t.1.switches, t.1.leaves l, t.2 l) =
          (s.1.switches, s.1.leaves l, s.2 l) := by
    intro stmt s t hNamed hStmt
    rcases bind_eq_ok_iff.mp hStmt with ⟨p, hRecord, hNew⟩
    cases hNew
    have hOther : stmt.action ≠ .set l := by
      simpa using hNamed
    rcases loadStmt_eq_ok hRecord with
      ⟨hSwitches, hLeaf, _⟩
    rw [hSwitches, hLeaf l hOther]
    dsimp only
    rw [stringStmt_other hOther]
  rcases
    foldlM_once
      (fun s : SecPowerProfile × Strings =>
        (s.1.switches, s.1.leaves l, s.2 l))
      hKept (loadScript_filter l) hPass with
    ⟨s, t, hBefore, hStmt, hAfter⟩
  rcases Prod.mk.inj hBefore with ⟨hSwitches, hRest⟩
  rcases Prod.mk.inj hRest with ⟨hLeaf, hStrings⟩
  have hLast : state.2 l = t.2 l :=
    congrArg (fun view => view.2.2) hAfter
  rcases bind_eq_ok_iff.mp hStmt with ⟨p, hRecord, hNew⟩
  cases hNew
  have hOn : s.1.on = r.on := by
    funext s'
    simp [SecPowerProfile.on, hSwitches]
  have hSame :
      assignedText doc id s.1 l = assignedText doc id r l := by
    unfold assignedText
    rw [hOn, hLeaf]
  rw [hLast]
  dsimp only
  rw [stringStmt_self hString hRecord, hSame, hStrings]

end StringObjects

end Profiles

end Universal7420
