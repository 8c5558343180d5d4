import Mathlib.Algebra.Group.Nat.Defs
import Universal7420.Lib.CString
import Universal7420.Lib.LinkedTrie

/-
  The property area of `prop_area.cpp`.

  An area is one block of shared memory.  Objects are carved
  from its front and never returned: the nodes of the trie,
  the properties and the texts of long values.  A pointer is
  an offset into the block, and zero in a field of a node is
  no pointer; the root stands at offset zero.  The block is a
  map from offsets to the objects that begin there.  It comes
  from a file that was just extended, so what is not written
  reads as zero.

  Loops take fuel.  Where fuel runs out, or a pointer leads to
  something that is not a node, there is no result at all.

  Main declarations:
    * `Universal7420.Resetprop.PropArea`
    * `Universal7420.Resetprop.PropArea.allocateObj`
    * `Universal7420.Resetprop.PropArea.findSibling`
    * `Universal7420.Resetprop.PropArea.findPropBt`
    * `Universal7420.Resetprop.PropArea.findProperty`
    * `Universal7420.Resetprop.PropArea.foreachProperty`
    * `Universal7420.Resetprop.PropArea.add`
    * `Universal7420.Resetprop.PropArea.del`
-/

------------------------------------------------------------
-- Objects
------------------------------------------------------------

namespace Universal7420

namespace Resetprop

open LinkedTrie (Link)

def propValueMax : Nat := 92

/- `prop_bt`, a node of the trie. -/
structure PropBt where
  name : List Char
  prop : Nat
  left : Nat
  right : Nat
  children : Nat
deriving DecidableEq, Repr

/-
  `prop_info`.  The text of `value` shares its bytes with
  `long_property`, of which `offset` is kept.
-/
structure PropInfo where
  serial : Nat
  value : List Char
  offset : Nat
  name : List Char
deriving DecidableEq, Repr

namespace PropBt

/- The constructor, on memory that is all zero. -/
def new (name : List Char) : PropBt :=
  ⟨name, 0, 0, 0, 0⟩

def link (bt : PropBt) : Link → Nat
| .left => bt.left
| .right => bt.right
| .down => bt.children

def setLink
    (bt : PropBt)
    (l : Link)
    (off : Nat) :
    PropBt :=
  match l with
  | .left => { bt with left := off }
  | .right => { bt with right := off }
  | .down => { bt with children := off }

end PropBt

namespace PropInfo

def kLongFlag : Nat := 2 ^ 16

def kLongLegacyError : List Char :=
  "Must use __system_property_read_callback() to read".toList

/- Where the offset lies among the bytes of the value. -/
def kLongLegacyErrorBufferSize : Nat := 56

/-
  One byte of the offset after a text was copied over it.  The
  bytes behind the null character stay.
-/
def offsetByte
    (value : List Char)
    (offset i : Nat) :
    Nat :=
  let at_ := kLongLegacyErrorBufferSize + i
  if value.length < at_ then
    offset / 256 ^ i % 256
  else
    (value.getD at_ '\x00').toNat % 256

/- The offset shares its bytes with the value. -/
def overwritten
    (value : List Char)
    (offset : Nat) :
    Nat :=
  offsetByte value offset 0 +
    offsetByte value offset 1 * 256 +
    offsetByte value offset 2 * 256 ^ 2 +
    offsetByte value offset 3 * 256 ^ 3

/-
  The constructor of a property with a short value, on memory
  that is all zero.
-/
def ofValue
    (name value : List Char) :
    PropInfo :=
  ⟨ value.length * 2 ^ 24
  , value
  , overwritten value 0
  , name ⟩

/- The constructor of a property with a long value. -/
def ofOffset
    (name : List Char)
    (longOffset : Nat) :
    PropInfo :=
  ⟨ kLongLegacyError.length * 2 ^ 24 + kLongFlag
  , kLongLegacyError
  , longOffset
  , name ⟩

/- The flag is one bit of `serial`. -/
def isLong (info : PropInfo) : Bool :=
  info.serial / kLongFlag % 2 = 1

end PropInfo

inductive Obj where
| bt (bt : PropBt)
| info (info : PropInfo)
| text (text : List Char)
deriving DecidableEq, Repr

end Resetprop

end Universal7420

------------------------------------------------------------
-- The Area
------------------------------------------------------------

namespace Universal7420

namespace Resetprop

open LinkedTrie (Link)

/- The sizes of the structures, without the names they end in. -/
def sizeofPropBt : Nat := 5 * 4

def sizeofPropInfo : Nat := 4 + propValueMax

def sizeofPropArea : Nat := 4 * 4 + 28 * 4

def paSize : Nat := 128 * 1024

/- `bytes_used_`, `serial_`, `pa_data_size_` and `data_` -/
structure PropArea where
  bytesUsed : Nat
  serial : Nat
  dataSize : Nat
  data : Nat → Option Obj

namespace PropArea

/- The constructor leaves room for the root, which is zero. -/
def ofDataSize (dataSize : Nat) : PropArea where
  bytesUsed := sizeofPropBt
  serial := 0
  dataSize := dataSize
  data := fun off =>
    if off = 0 then some (.bt (PropBt.new [])) else none

/- The area that `map_prop_area_rw` makes. -/
def mapPropAreaRw : PropArea :=
  ofDataSize (paSize - sizeofPropArea)

/- Write an object. -/
def put
    (pa : PropArea)
    (off : Nat)
    (obj : Obj) :
    PropArea :=
  { pa with
    data := fun a => if a = off then some obj else pa.data a }

/- The node at an offset. -/
def btAt
    (pa : PropArea)
    (off : Nat) :
    Option PropBt :=
  match pa.data off with
  | some (.bt bt) => some bt
  | _ => none

/- The property at an offset. -/
def infoAt
    (pa : PropArea)
    (off : Nat) :
    Option PropInfo :=
  match pa.data off with
  | some (.info info) => some info
  | _ => none

/- `__BIONIC_ALIGN(size, sizeof(uint_least32_t))` -/
def align (size : Nat) : Nat :=
  (size + 3) / 4 * 4

def allocateObj
    (pa : PropArea)
    (size : Nat) :
    Option (Nat × PropArea) :=
  if pa.bytesUsed + align size > pa.dataSize then
    none
  else
    some
      ( pa.bytesUsed
      , { pa with bytesUsed := pa.bytesUsed + align size } )

def newPropBt
    (pa : PropArea)
    (name : List Char) :
    Option Nat × PropArea :=
  match pa.allocateObj (sizeofPropBt + name.length + 1) with
  | none => (none, pa)
  | some (off, pa) =>
      (some off, pa.put off (.bt (PropBt.new name)))

/-
  When there is no room for a long text, the room of the
  property itself stays used.
-/
def newPropInfo
    (pa : PropArea)
    (name value : List Char) :
    Option Nat × PropArea :=
  match
    pa.allocateObj (sizeofPropInfo + name.length + 1)
  with
  | none => (none, pa)
  | some (off, pa) =>
      if propValueMax ≤ value.length then
        match pa.allocateObj (value.length + 1) with
        | none => (none, pa)
        | some (long, pa) =>
            let pa := pa.put long (.text value)
            let info := PropInfo.ofOffset name (long - off)
            (some off, pa.put off (.info info))
      else
        let info := PropInfo.ofValue name value
        (some off, pa.put off (.info info))

/- The pointer that an offset stands for. -/
def toPropObj
    (pa : PropArea)
    (off : Nat) :
    Option Nat :=
  if pa.dataSize < off then none else some off

/- Write a link of the node at an offset. -/
def setLink
    (pa : PropArea)
    (at_ : Nat)
    (l : Link)
    (off : Nat) :
    PropArea :=
  match pa.btAt at_ with
  | none => pa
  | some bt => pa.put at_ (.bt (bt.setLink l off))

/- Write the property of the node at an offset. -/
def setProp
    (pa : PropArea)
    (at_ off : Nat) :
    PropArea :=
  match pa.btAt at_ with
  | none => pa
  | some bt => pa.put at_ (.bt { bt with prop := off })

/-
  A new node, and the link to it once it is there.  The source
  writes this out for each of the three links.
-/
def newLinked
    (pa : PropArea)
    (at_ : Nat)
    (l : Link)
    (name : List Char) :
    Option Nat × PropArea :=
  match pa.newPropBt name with
  | (none, pa) => (none, pa)
  | (some off, pa) => (some off, pa.setLink at_ l off)

end PropArea

end Resetprop

end Universal7420

------------------------------------------------------------
-- Searching
------------------------------------------------------------

namespace Universal7420

namespace Resetprop

open LinkedTrie (Link)

/- A name that is shorter comes first. -/
def cmpPropName (one two : List Char) : Int :=
  if one.length < two.length then
    -1
  else if two.length < one.length then
    1
  else
    CText.strncmp one.length one two

namespace PropArea

/- `find_prop_bt` in the binary tree of one level. -/
def findSibling
    (name : List Char)
    (allocIfNeeded : Bool) :
    Nat → Option Nat → PropArea →
      Option (Option Nat × PropArea)
| 0, _, _ => none
| _ + 1, none, pa => some (none, pa)
| fuel + 1, some current, pa =>
    match pa.btAt current with
    | none => none
    | some bt =>
        if cmpPropName name bt.name = 0 then
          some (some current, pa)
        else
          let l : Link :=
            if cmpPropName name bt.name < 0 then
              .left
            else
              .right
          if bt.link l ≠ 0 then
            findSibling name allocIfNeeded fuel
              (pa.toPropObj (bt.link l)) pa
          else if allocIfNeeded then
            some (pa.newLinked current l name)
          else
            some (none, pa)

/- The part up to the next separator, and what follows it. -/
def nextPart
    (remaining : List Char) :
    List Char × Option (List Char) :=
  match CText.strchr '.' remaining with
  | none => (remaining, none)
  | some (part, rest) => (part, some rest)

/- The tree of the level below a node. -/
def childrenOf
    (pa : PropArea)
    (current : Nat)
    (bt : PropBt)
    (part : List Char)
    (allocIfNeeded : Bool) :
    Option Nat × PropArea :=
  if bt.children ≠ 0 then
    (pa.toPropObj bt.children, pa)
  else if allocIfNeeded then
    pa.newLinked current .down part
  else
    (none, pa)

/- `find_prop_bt` along the parts of a name. -/
def findPropBt
    (allocIfNeeded : Bool) :
    Nat → Nat → List Char → PropArea →
      Option (Option Nat × PropArea)
| 0, _, _, _ => none
| fuel + 1, current, remaining, pa =>
    let part := (nextPart remaining).1
    if part = [] then
      some (none, pa)
    else
      match pa.btAt current with
      | none => none
      | some bt =>
          match
            pa.childrenOf current bt part allocIfNeeded
          with
          | (none, pa) => some (none, pa)
          | (some root, pa) =>
              match
                findSibling part allocIfNeeded
                  (pa.dataSize + 1) (some root) pa
              with
              | none => none
              | some (none, pa) => some (none, pa)
              | some (some node, pa) =>
                  match (nextPart remaining).2 with
                  | none => some (some node, pa)
                  | some rest =>
                      findPropBt allocIfNeeded fuel node
                        rest pa

/- The root is at offset zero, and a name ends. -/
def findRoot
    (pa : PropArea)
    (name : List Char)
    (allocIfNeeded : Bool) :
    Option (Option Nat × PropArea) :=
  findPropBt allocIfNeeded (name.length + 1) 0 name pa

def findProperty
    (pa : PropArea)
    (name value : List Char)
    (allocIfNeeded : Bool) :
    Option (Option Nat × PropArea) :=
  match pa.findRoot name allocIfNeeded with
  | none => none
  | some (none, pa) => some (none, pa)
  | some (some current, pa) =>
      match pa.btAt current with
      | none => none
      | some bt =>
          if bt.prop ≠ 0 then
            some (pa.toPropObj bt.prop, pa)
          else if allocIfNeeded then
            match pa.newPropInfo name value with
            | (none, pa) => some (none, pa)
            | (some off, pa) =>
                some (some off, pa.setProp current off)
          else
            some (none, pa)

/- The properties that are handed to the callback, in order. -/
def foreachProperty
    (pa : PropArea) :
    Nat → Option Nat → Option (Bool × List Nat)
| 0, _ => none
| _ + 1, none => some (false, [])
| fuel + 1, some trie =>
    match pa.btAt trie with
    | none => none
    | some bt => do
        -- The result of a subtree is never below zero, so
        -- it is not looked at.
        let subtree := fun l =>
          if bt.link l ≠ 0 then
            (foreachProperty pa fuel
              (pa.toPropObj (bt.link l))).map Prod.snd
          else
            some []
        let left ← subtree .left
        if bt.prop ≠ 0 ∧ pa.toPropObj bt.prop = none then
          return (false, left)
        let this := if bt.prop ≠ 0 then [bt.prop] else []
        let children ← subtree .down
        let right ← subtree .right
        return (true, left ++ this ++ children ++ right)

def find
    (pa : PropArea)
    (name : List Char) :
    Option (Option Nat) :=
  (pa.findProperty name [] false).map Prod.fst

def add
    (pa : PropArea)
    (name value : List Char) :
    Option (Bool × PropArea) :=
  (pa.findProperty name value true).map fun r =>
    (r.1.isSome, r.2)

def del
    (pa : PropArea)
    (name : List Char) :
    Option (Bool × PropArea) :=
  match pa.findRoot name false with
  | none => none
  | some (none, pa) => some (false, pa)
  | some (some node, pa) => some (true, pa.setProp node 0)

def foreach (pa : PropArea) : Option (Bool × List Nat) :=
  pa.foreachProperty (pa.dataSize + 1) (some 0)

end PropArea

end Resetprop

end Universal7420
