import Universal7420.Lib.BinarySearch
import Universal7420.Lib.CString

/-
  The file of contexts of `property_info_parser.cpp`.

  The file is a trie over the parts of names, laid out as
  words and texts at offsets.  A name is looked up from the
  root, part by part; what is found deeper is taken over what
  was found before, and an exact match over everything.

  Main declarations:
    * `Universal7420.Resetprop.PropertyInfoArea`
    * `Universal7420.Resetprop.PropertyInfoArea.findChildForString`
    * `Universal7420.Resetprop.PropertyInfoArea.checkPrefixMatch`
    * `Universal7420.Resetprop.PropertyInfoArea.getPropertyInfoIndexes`
-/

------------------------------------------------------------
-- Words And Texts
------------------------------------------------------------

namespace Universal7420

namespace Resetprop

/- The bytes of the file, seen as words and as C texts. -/
structure PropertyInfoArea where
  word : Nat → Nat
  text : Nat → List Char
  ended : ∀ offset, '\x00' ∉ text offset

namespace PropertyInfoArea

variable (area : PropertyInfoArea)

/- `PropertyInfoAreaHeader` begins the file. -/
def size : Nat :=
  area.word 8

def rootOffset : Nat :=
  area.word 20

/- The offsets for which `SerializedData` gives no pointer. -/
def isNull (offset : Nat) : Bool :=
  decide (offset ≠ 0 ∧ area.size < offset)

def cString (offset : Nat) : Option (List Char) :=
  if area.isNull offset then none
  else some (area.text offset)

/- An element of `uint32_array`. -/
def uint32Array (offset n : Nat) : Option Nat :=
  if area.isNull offset then none
  else some (area.word (offset + 4 * n))

/- `~0u`. -/
def noIndex : Nat :=
  4294967295

/- The two indexes that an entry may have. -/
inductive Kind where
| context
| type
deriving DecidableEq, Repr

/- `PropertyEntry`. -/
def nameOffset (entry : Nat) : Nat :=
  area.word entry

def namelen (entry : Nat) : Nat :=
  area.word (entry + 4)

def index (entry : Nat) : Kind → Nat
| .context => area.word (entry + 8)
| .type => area.word (entry + 12)

/- `TrieNodeInternal`. -/
def nodePropertyEntry (node : Nat) : Nat :=
  area.word node

def numChildNodes (node : Nat) : Nat :=
  area.word (node + 4)

def childNode (node n : Nat) : Option Nat :=
  area.uint32Array (area.word (node + 8)) n

def numPrefixes (node : Nat) : Nat :=
  area.word (node + 12)

def prefixEntry (node n : Nat) : Option Nat :=
  area.uint32Array (area.word (node + 16)) n

def numExactMatches (node : Nat) : Nat :=
  area.word (node + 20)

def exactMatch (node n : Nat) : Option Nat :=
  area.uint32Array (area.word (node + 24)) n

def nodeName (node : Nat) : Option (List Char) :=
  area.cString
    (area.nameOffset (area.nodePropertyEntry node))

def rootNode : Option Nat :=
  if area.isNull area.rootOffset then none
  else some area.rootOffset

end PropertyInfoArea

end Resetprop

end Universal7420

------------------------------------------------------------
-- Looking Up A Name
------------------------------------------------------------

namespace Universal7420

namespace Resetprop

namespace PropertyInfoArea

variable (area : PropertyInfoArea)

/- The comparison that `FindChildForString` searches with. -/
def compareChild
    (name : List Char)
    (namelen : Nat)
    (childName : List Char) :
    Int :=
  let cmp := CText.strncmp namelen childName name
  -- Only the first characters of a longer name are equal.
  if cmp = 0 ∧ childName[namelen]? ≠ none then 1 else cmp

def findChildForString
    (node : Nat)
    (name : List Char)
    (namelen : Nat) :
    Option (Option Nat) := do
  let nodeIndex ←
    BinarySearch.find (area.numChildNodes node) fun n => do
      let child ← area.childNode node n
      let childName ← area.nodeName child
      some (compareChild name namelen childName)
  match nodeIndex with
  | none => some none
  | some n => (area.childNode node n).map some

/- `context_index` and `type_index`. -/
structure Indexes where
  context : Nat
  type : Nat
deriving DecidableEq, Repr

def Indexes.get (found : Indexes) : Kind → Nat
| .context => found.context
| .type => found.type

/- What an entry has is taken, the rest stays. -/
def Indexes.override
    (found : Indexes)
    (entry : Nat) :
    Indexes where
  context :=
    if area.index entry .context ≠ noIndex then
      area.index entry .context
    else
      found.context
  type :=
    if area.index entry .type ≠ noIndex then
      area.index entry .type
    else
      found.type

/- The loop over the prefixes that are left. -/
def checkPrefixFrom
    (remainingName : List Char)
    (node : Nat)
    (found : Indexes) :
    Nat → Nat → Option Indexes
| 0, _ => some found
| left + 1, i => do
    let entry ← area.prefixEntry node i
    if remainingName.length < area.namelen entry then
      checkPrefixFrom remainingName node found left (i + 1)
    else
      let name ← area.cString (area.nameOffset entry)
      if CText.strncmp (area.namelen entry) name
          remainingName = 0
      then
        some (found.override area entry)
      else
        checkPrefixFrom remainingName node found left (i + 1)

def checkPrefixMatch
    (remainingName : List Char)
    (node : Nat)
    (found : Indexes) :
    Option Indexes :=
  area.checkPrefixFrom remainingName node found
    (area.numPrefixes node) 0

/-
  The loop of `GetPropertyInfoIndexes`: each turn takes away a
  part of the name with its dot.
-/
def walk :
    Nat → Nat → List Char → Indexes →
      Option (Nat × List Char × Indexes)
| 0, _, _, _ => none
| turns + 1, node, remainingName, found => do
    let own := found.override area (area.nodePropertyEntry node)
    let checked ← area.checkPrefixMatch remainingName node own
    match CText.strchr '.' remainingName with
    | none => some (node, remainingName, checked)
    | some (part, rest) =>
        match
            ← area.findChildForString node remainingName
              part.length
          with
        | none => some (node, remainingName, checked)
        | some child => walk turns child rest checked

/- The loop over the exact matches that are left. -/
def exactFrom
    (remainingName : List Char)
    (node : Nat) :
    Nat → Nat → Option (Option Nat)
| 0, _ => some none
| left + 1, i => do
    let entry ← area.exactMatch node i
    let name ← area.cString (area.nameOffset entry)
    if name = remainingName then
      some (some entry)
    else
      exactFrom remainingName node left (i + 1)

/- Nothing is the result if a pointer is used that is null. -/
def getPropertyInfoIndexes
    (name : List Char) :
    Option Indexes := do
  let root ← area.rootNode
  let (node, remainingName, found) ←
    area.walk (name.length + 1) root name ⟨noIndex, noIndex⟩
  match
      ← area.exactFrom remainingName node
        (area.numExactMatches node) 0
    with
  | some entry => some (found.override area entry)
  | none => area.checkPrefixMatch remainingName node found

end PropertyInfoArea

end Resetprop

end Universal7420
