import Universal7420.Lib.Decimal
import Universal7420.Lib.Xml
import Universal7420.Power.Profile

/-
  The profile loader of `Profiles.cpp`.

  `loadProfileImpl` makes three passes over one record: the
  `enabled` switches, a copy of the whole parent record, and
  the leaf settings of the enabled sections.  Copying a record
  here copies every member by value; what `memcpy` does to the
  string objects in it is added by `StringObjects`.  A load
  that dereferences a null pointer, lets an exception of
  `std::stoi` escape or writes outside the governor buffers
  ends in a fault.

  Main declarations:
    * `Universal7420.Profiles.xmlGet`
    * `Universal7420.Profiles.profileSetting`
    * `Universal7420.Profiles.loadScript`
    * `Universal7420.Profiles.loadProfileImpl`
    * `Universal7420.Profiles.loadProfilesImpl`
-/

------------------------------------------------------------
-- Conversions And Queries
------------------------------------------------------------

namespace Universal7420

namespace Profiles

open Xml

/- The ways in which loading ends abnormally. -/
inductive LoadFault where
| nullChild
| stoiThrows
| nullParent
| bufferOverflow
deriving DecidableEq, Repr

/- `to_bool` -/
def toBool (c : String) : Bool :=
  c == "true" || c == "TRUE" || c == "1"

/- `to_int` -/
def toInt (c : String) : Except LoadFault Int :=
  match CText.stoi c with
  | some v => .ok v
  | none => .error .stoiThrows

/- `to_uint` -/
def toUint (c : String) : Except LoadFault Nat :=
  match CText.stoi c with
  | some v => .ok (v % 2 ^ 32).toNat
  | none => .error .stoiThrows

/- The conversion selected by the type of the member. -/
def Kind.convert :
    (k : Kind) → String → Except LoadFault k.Val
| .bool, c => .ok (toBool c)
| .int, c => toInt c
| .uint, c => toUint c
| .string, c => .ok c

/-
  `XML_GET`: the content of the first child of the first
  match.  A match without children is a null dereference, and
  an element as first child has no content.
-/
def xmlGet
    (doc : Document)
    (path : List String) :
    Except LoadFault (Option String) :=
  match doc.select path with
  | [] => .ok none
  | node :: _ =>
      match node.children with
      | [] => .error .nullChild
      | child :: _ => .ok child.content

/- `XML_HAS_NODE`: the first match exists and has children. -/
def xmlHasNode
    (doc : Document)
    (path : List String) : Bool :=
  match doc.select path with
  | [] => false
  | node :: _ => !node.children.isEmpty

/-
  `XML_GET_ATTR`: an attribute of the first match.  An empty
  attribute gives the empty string, which is no null pointer.
-/
def xmlGetAttr
    (doc : Document)
    (path : List String)
    (attr : String) : Option String :=
  match doc.select path with
  | [] => none
  | node :: _ => node.attribute? attr

/- The absolute path of a profile. -/
def ProfileName.path (id : ProfileName) : List String :=
  ["profiles", id.element]

end Profiles

end Universal7420

------------------------------------------------------------
-- Setting Members
------------------------------------------------------------

namespace Universal7420

namespace Profiles

open Xml

/-
  `__PROFILE_SET`, `__PROFILE_SET2` and `PROFILE_SET`: a text
  is converted and marks the member as set, and the default
  is used only while the member has never been set.
-/
def profileSetting
    (doc : Document)
    (path : List String)
    (k : Kind)
    (defaultText : String)
    (old : Setting k.Val) :
    Except LoadFault (Setting k.Val) := do
  match ← xmlGet doc path with
  | some c =>
      let v ← k.convert c
      return ⟨v, true⟩
  | none =>
      if old.set then
        return old
      else
        let v ← k.convert defaultText
        return ⟨v, old.set⟩

/- `PROFILE_SET_BOOL` on an `enabled` member. -/
def profileSetSwitch
    (doc : Document)
    (id : ProfileName)
    (p : SecPowerProfile)
    (sw : Switch) :
    Except LoadFault SecPowerProfile := do
  let v ← profileSetting doc (id.path ++ sw.path) .bool
    "false" (p.switches sw)
  return { p with
    switches := Function.update p.switches sw v }

/- `PROFILE_INIT` and `PROFILE_INIT2` -/
def profileInit
    (doc : Document)
    (id : ProfileName)
    (p : SecPowerProfile)
    (s : Section) :
    Except LoadFault SecPowerProfile := do
  if xmlHasNode doc (id.path ++ s.path) then
    let p ← profileSetSwitch doc id p (.ofSection s)
    return { p with
      sectionSet := Function.update p.sectionSet s true }
  else
    return { p with
      sectionSet := Function.update p.sectionSet s false }

/- `PROFILE_SET` and its typed variants on a leaf. -/
def profileSet
    (doc : Document)
    (id : ProfileName)
    (p : SecPowerProfile)
    (l : Leaf) :
    Except LoadFault SecPowerProfile := do
  let v ← profileSetting doc (id.path ++ l.path) l.kind
    l.defaultText (p.leaves l)
  return { p with
    leaves := Function.update p.leaves l v }

/- The number of entries, and of bytes in each buffer. -/
def governorDataSize : Nat := 64

/-
  The copy loop of `XML_GET_CPUGOV`.  Nodes without children
  are skipped; the others fill the next entry.
-/
def copyGovernorData :
    List Node → Nat → (Nat → String × String) →
      Except LoadFault (Nat × (Nat → String × String))
| [], index, entries => .ok (index, entries)
| node :: nodes, index, entries =>
    match node.children with
    | [] => copyGovernorData nodes index entries
    | child :: _ =>
        match child.content with
        | none => .error .nullChild
        | some data =>
            if index < governorDataSize ∧
                node.name.utf8ByteSize < governorDataSize ∧
                data.utf8ByteSize < governorDataSize then
              copyGovernorData nodes (index + 1)
                (Function.update entries index
                  (node.name, data))
            else
              .error .bufferOverflow

/- `XML_GET_CPUGOV`: fill the entries and terminate them. -/
def xmlGetCpugov
    (doc : Document)
    (id : ProfileName)
    (p : SecPowerProfile)
    (c : Cluster) :
    Except LoadFault SecPowerProfile :=
  match doc.select
      (id.path ++ ["cpu", c.element, "governor_data"]) with
  | [] => .ok p
  | node :: _ =>
      if node.children.isEmpty then
        .ok p
      else do
        let (index, entries) ← copyGovernorData
          node.children 0 (p.governorData c)
        if index < governorDataSize then
          return { p with
            governorData := Function.update p.governorData c
              (Function.update entries index ("", "")) }
        else
          .error .bufferOverflow

end Profiles

end Universal7420

------------------------------------------------------------
-- The Leaf Pass
------------------------------------------------------------

namespace Universal7420

namespace Profiles

open Xml

/- A statement of the third pass of `loadProfileImpl`. -/
inductive LoadAction where
| set (l : Leaf)
| cpugov (c : Cluster)
deriving DecidableEq, Repr

/- A statement with the sections whose `if` encloses it. -/
structure LoadStmt where
  guards : List Section
  action : LoadAction
deriving DecidableEq, Repr

/- A sequence of settings outside any further `if`. -/
def sets (ls : List Leaf) : List LoadStmt :=
  ls.map (fun l => ⟨[], .set l⟩)

/- `if (profile->s.enabled) { ... }` around a block. -/
def whenOn
    (s : Section)
    (block : List LoadStmt) : List LoadStmt :=
  block.map (fun stmt =>
    { stmt with guards := s :: stmt.guards })

/- `XML_GET_CPUCLUSTER` -/
def xmlGetCpucluster (c : Cluster) : List LoadStmt :=
  sets [.governor c, .freqMin c, .freqMax c,
      .freqHispeed c, .freqBoost c] ++
    whenOn (.cores c)
      (sets [.core1 c, .core2 c, .core3 c, .core4 c])

/- The body of `loadProfileImpl` after the parent copy. -/
def loadScript : List LoadStmt :=
  whenOn .cpu
      (whenOn (.cluster .apollo)
          (xmlGetCpucluster .apollo ++
            [⟨[], .cpugov .apollo⟩]) ++
        whenOn (.cluster .atlas)
          (xmlGetCpucluster .atlas ++
            [⟨[], .cpugov .atlas⟩])) ++
    whenOn .cpusets
      (sets [.defaults, .foreground, .foregroundBoost,
        .background, .systemBackground, .topApp]) ++
    whenOn .hmp
      (sets [.boost, .semiboost, .powerMigration,
          .activeDownMigration, .aggressiveUpMigration] ++
        whenOn .threshold
          (sets [.thresholdDown, .thresholdUp]) ++
        whenOn .sbThreshold
          (sets [.sbThresholdDown, .sbThresholdUp])) ++
    whenOn .gpu
      (whenOn .dvfs (sets [.dvfsFreqMin, .dvfsFreqMax]) ++
        whenOn .highspeed
          (sets [.highspeedFreq, .highspeedLoad])) ++
    whenOn .kernel (sets [.pewq]) ++
    whenOn .ipa (sets [.controlTemp]) ++
    whenOn .slow (sets [.modeToggle, .timerRate]) ++
    whenOn .inputBooster (sets [.tail, .head])

/- One statement, skipped when an enclosing section is off. -/
def loadStmt
    (doc : Document)
    (id : ProfileName)
    (p : SecPowerProfile)
    (stmt : LoadStmt) :
    Except LoadFault SecPowerProfile :=
  if stmt.guards.all p.on then
    match stmt.action with
    | .set l => profileSet doc id p l
    | .cpugov c => xmlGetCpugov doc id p c
  else
    .ok p

end Profiles

end Universal7420

------------------------------------------------------------
-- Loading A Document
------------------------------------------------------------

namespace Universal7420

namespace Profiles

open Xml

/- The static records, one for each profile. -/
abbrev Store : Type := ProfileName → SecPowerProfile

/- The `extends` attribute of a profile. -/
def extendsOf
    (doc : Document)
    (id : ProfileName) : Option String :=
  xmlGetAttr doc id.path "extends"

/-
  Copy the parent record, if there is one, over the record
  being loaded.  A profile that names itself copies itself.
  The strings are copied by value, see `memcpyStrings`.
-/
def inheritParent
    (doc : Document)
    (store : Store)
    (id : ProfileName)
    (p : SecPowerProfile) :
    Except LoadFault SecPowerProfile :=
  match extendsOf doc id with
  | none => .ok p
  | some parent =>
      match ProfileName.ofElement? parent with
      | none => .error .nullParent
      | some q => .ok (Function.update store id p q)

/- The first pass: the profile's switch and the sections. -/
def switchPass
    (doc : Document)
    (id : ProfileName)
    (p : SecPowerProfile) :
    Except LoadFault SecPowerProfile := do
  let p ← profileSetSwitch doc id p .profile
  Section.initOrder.foldlM (profileInit doc id) p

/- `Profiles::loadProfileImpl` -/
def loadProfileImpl
    (doc : Document)
    (store : Store)
    (id : ProfileName) :
    Except LoadFault SecPowerProfile := do
  let p ← switchPass doc id (store id)
  if p.enabled then
    let p ← inheritParent doc store id p
    loadScript.foldlM (loadStmt doc id) p
  else
    return p

/- Load one profile into its static record. -/
def loadInto
    (doc : Document)
    (store : Store)
    (id : ProfileName) :
    Except LoadFault Store := do
  let p ← loadProfileImpl doc store id
  return Function.update store id p

/- `Profiles::loadProfilesImpl` on a parsed document. -/
def loadProfilesImpl
    (doc : Document) : Except LoadFault Store :=
  ProfileName.loadOrder.foldlM (loadInto doc)
    (fun _ => SecPowerProfile.zero)

end Profiles

end Universal7420
