import Universal7420.Resetprop.PropertyInfoArea
import Mathlib.Data.List.Basic
import Mathlib.Data.List.Nodup

/-
  What a name is given by the file of contexts.

  Each node and each prefix of the trie is a rule for the
  names that begin with a text.  The lookup of
  `property_info_parser.cpp`, with its binary search and its
  single way down, takes the longest rule of all that fit.

  Main declarations:
    * `Universal7420.Resetprop.PropertyInfoArea.NodeSound`
    * `Universal7420.Resetprop.PropertyInfoArea.Rule`
    * `Universal7420.Resetprop.PropertyInfoArea.Best`
    * `Universal7420.Resetprop.PropertyInfoArea.walk_spec`
    * `Universal7420.Resetprop.PropertyInfoArea.getPropertyInfoIndexes_longest`
-/

------------------------------------------------------------
-- The Trie In The File
------------------------------------------------------------

namespace Universal7420

namespace Resetprop

namespace PropertyInfoArea

section Trie

variable (area : PropertyInfoArea)

def array (offset count : Nat) : List Nat :=
  (List.range count).map fun n =>
    area.word (offset + 4 * n)

def children (node : Nat) : List Nat :=
  area.array (area.word (node + 8)) (area.numChildNodes node)

def prefixes (node : Nat) : List Nat :=
  area.array (area.word (node + 16)) (area.numPrefixes node)

def exacts (node : Nat) : List Nat :=
  area.array (area.word (node + 24))
    (area.numExactMatches node)

/- The text of an entry. -/
def label (entry : Nat) : List Char :=
  area.text (area.nameOffset entry)

def nodeLabel (node : Nat) : List Char :=
  area.label (area.nodePropertyEntry node)

/- What the comments at `TrieNodeInternal` ask for. -/
structure NodeSound (node : Nat) : Prop where
  childArray : area.isNull (area.word (node + 8)) = false
  prefixArray : area.isNull (area.word (node + 16)) = false
  exactArray : area.isNull (area.word (node + 24)) = false
  childTexts :
    ∀ child ∈ area.children node,
      area.isNull
        (area.nameOffset (area.nodePropertyEntry child)) =
        false
  entryTexts :
    ∀ entry ∈ area.prefixes node ++ area.exacts node,
      area.isNull (area.nameOffset entry) = false
  ascending :
    ((area.children node).map area.nodeLabel).Pairwise
      CText.Before
  childDots :
    ∀ child ∈ area.children node,
      '.' ∉ area.nodeLabel child
  entryDots :
    ∀ entry ∈ area.prefixes node ++ area.exacts node,
      '.' ∉ area.label entry
  namelens :
    ∀ entry ∈ area.prefixes node,
      area.namelen entry = (area.label entry).length
  longestFirst :
    (area.prefixes node).Pairwise fun entry next =>
      (area.label next).length ≤ (area.label entry).length
  exactOnce :
    ((area.exacts node).map area.label).Nodup

/- The child with a name, if there is one. -/
def childNamed
    (node : Nat)
    (part : List Char) :
    Option Nat :=
  (area.children node).find? fun child =>
    area.nodeLabel child = part

def nodeAt : Nat → List (List Char) → Option Nat
| node, [] => some node
| node, part :: parts =>
    (area.childNamed node part).bind fun child =>
      nodeAt child parts

/- Every node that can be reached is sound. -/
structure Sound : Prop where
  root : area.isNull area.rootOffset = false
  nodes :
    ∀ parts node,
      area.nodeAt area.rootOffset parts = some node →
      area.NodeSound node

end Trie

/- The first characters of a name that goes through a node. -/
def pathText (parts : List (List Char)) : List Char :=
  parts.flatMap (· ++ ['.'])

section Rules

variable (area : PropertyInfoArea)

/-
  A node stands for the names that begin with its parts, and
  each of its prefixes for those that go on with its text.
-/
def Rule
    (parts : List (List Char))
    (text : List Char)
    (entry : Nat) :
    Prop :=
  ∃ node,
    area.nodeAt area.rootOffset parts = some node ∧
    ((text = pathText parts ∧
      entry = area.nodePropertyEntry node) ∨
    (entry ∈ area.prefixes node ∧
      text = pathText parts ++ area.label entry))

/- An entry for one name only. -/
def Exact
    (name : List Char)
    (entry : Nat) :
    Prop :=
  ∃ parts node,
    area.nodeAt area.rootOffset parts = some node ∧
    entry ∈ area.exacts node ∧
    name = pathText parts ++ area.label entry

/- Every prefix has an index of a kind. -/
def PrefixesHave (kind : Kind) : Prop :=
  ∀ parts node entry,
    area.nodeAt area.rootOffset parts = some node →
    entry ∈ area.prefixes node →
    area.index entry kind ≠ noIndex

/-
  The index is that of the longest rule, among some, that fits
  a name and has one.
-/
def Best
    (among : List (List Char) → Prop)
    (name : List Char)
    (kind : Kind)
    (index : Nat) :
    Prop :=
  (∃ parts text entry,
    among parts ∧
    area.Rule parts text entry ∧
    text <+: name ∧
    area.index entry kind ≠ noIndex ∧
    index = area.index entry kind ∧
    ∀ parts' text' entry',
      among parts' →
      area.Rule parts' text' entry' →
      text' <+: name →
      area.index entry' kind ≠ noIndex →
      text'.length ≤ text.length) ∨
  (index = noIndex ∧
    ∀ parts text entry,
      among parts →
      area.Rule parts text entry →
      text <+: name →
      area.index entry kind = noIndex)

end Rules

variable {area : PropertyInfoArea}

theorem length_array
    {offset count : Nat} :
    (area.array offset count).length = count := by
  rw [array, List.length_map, List.length_range]

theorem getElem?_array
    {offset count n : Nat}
    (hIn : n < count) :
    (area.array offset count)[n]? =
      some (area.word (offset + 4 * n)) := by
  rw [array, List.getElem?_map, List.getElem?_range hIn]
  rfl

theorem uint32Array_of_sound
    {offset n : Nat}
    (hSound : area.isNull offset = false) :
    area.uint32Array offset n =
      some (area.word (offset + 4 * n)) := by
  rw [uint32Array, hSound]
  rfl

theorem cString_of_sound
    {offset : Nat}
    (hSound : area.isNull offset = false) :
    area.cString offset = some (area.text offset) := by
  rw [cString, hSound]
  rfl

end PropertyInfoArea

end Resetprop

end Universal7420

------------------------------------------------------------
-- Children
------------------------------------------------------------

namespace Universal7420

namespace Resetprop

namespace PropertyInfoArea

variable {area : PropertyInfoArea}
variable {node : Nat}

/- The comparison is that of the whole texts. -/
theorem compareChild_cases
    {part rest child : List Char}
    (hPart : '\x00' ∉ part) :
    (compareChild (part ++ rest) part.length child < 0 ∧
      CText.Before child part) ∨
    (compareChild (part ++ rest) part.length child = 0 ∧
      child = part) ∨
    (0 < compareChild (part ++ rest) part.length child ∧
      CText.Before part child) := by
  have hCases :=
    @CText.strncmp_front_cases child part rest hPart
  rw [compareChild]
  rcases hCases with
    ⟨hNeg, hLess⟩ | ⟨hZero, hBegins⟩ | ⟨hPos, hMore⟩
  · rw [if_neg (by omega)]
    exact Or.inl ⟨hNeg, hLess⟩
  · rcases hBegins with ⟨tail, rfl⟩
    rcases tail with _ | ⟨c, tail⟩
    · rw [if_neg (by simp)]
      exact Or.inr (Or.inl ⟨hZero, by simp⟩)
    · rw [if_pos ⟨hZero, by simp⟩]
      refine Or.inr (Or.inr ⟨by omega, ?_⟩)
      exact CText.before_append
  · rw [if_neg (by omega)]
    exact Or.inr (Or.inr ⟨hPos, hMore⟩)

/- The children by their position. -/
theorem childNode_eq
    (hSound : area.NodeSound node)
    {n : Nat}
    (hIn : n < area.numChildNodes node) :
    ∃ child,
      area.childNode node n = some child ∧
      (area.children node)[n]? = some child ∧
      child ∈ area.children node ∧
      area.nodeName child = some (area.nodeLabel child) := by
  have hChild :
      (area.children node)[n]? =
        some
          (area.word (area.word (node + 8) + 4 * n)) := by
    rw [children]
    exact getElem?_array hIn
  have hMem := List.mem_of_getElem? hChild
  refine ⟨_, ?_, hChild, hMem, ?_⟩
  · rw [childNode]
    exact uint32Array_of_sound hSound.childArray
  · rw [nodeName]
    exact cString_of_sound (hSound.childTexts _ hMem)

/- The comparison at a position, as a value. -/
def comparison
    (area : PropertyInfoArea)
    (node : Nat)
    (part rest : List Char)
    (n : Nat) :
    Int :=
  ((area.children node)[n]?).elim 0 fun child =>
    compareChild (part ++ rest) part.length
      (area.nodeLabel child)

theorem nodeLabel_lt
    (hSound : area.NodeSound node)
    {i j first second : Nat}
    (hBefore : i < j)
    (hFirst : (area.children node)[i]? = some first)
    (hSecond : (area.children node)[j]? = some second) :
    CText.Before (area.nodeLabel first)
      (area.nodeLabel second) := by
  have hAscending := hSound.ascending
  rw [List.pairwise_map, List.pairwise_iff_getElem] at hAscending
  rcases List.getElem?_eq_some_iff.mp hFirst with
    ⟨hI, rfl⟩
  rcases List.getElem?_eq_some_iff.mp hSecond with
    ⟨hJ, rfl⟩
  exact hAscending i j hI hJ hBefore

/- What a comparison says about the child it is with. -/
theorem comparison_signs
    {part rest : List Char}
    {n child : Nat}
    (hPart : '\x00' ∉ part)
    (hChild : (area.children node)[n]? = some child) :
    (area.comparison node part rest n < 0 ↔
      CText.Before (area.nodeLabel child) part) ∧
    (area.comparison node part rest n = 0 ↔
      area.nodeLabel child = part) ∧
    (0 < area.comparison node part rest n ↔
      CText.Before part (area.nodeLabel child)) := by
  rw [comparison, hChild, Option.elim_some]
  rcases @compareChild_cases part rest
      (area.nodeLabel child) hPart with
    ⟨hNeg, hBefore⟩ | ⟨hZero, hSame⟩ | ⟨hPos, hBehind⟩
  · refine ⟨⟨fun _ => hBefore, fun _ => hNeg⟩,
      ⟨by omega, ?_⟩, ⟨by omega, ?_⟩⟩
    · intro hSame
      rw [hSame] at hBefore
      exact absurd hBefore CText.not_before_self
    · intro hBehind
      exact absurd (hBefore.trans hBehind)
        CText.not_before_self
  · rw [hSame] at hZero ⊢
    refine ⟨⟨by omega, ?_⟩, ⟨fun _ => rfl, fun _ => hZero⟩,
      ⟨by omega, ?_⟩⟩
    · intro hBefore
      exact absurd hBefore CText.not_before_self
    · intro hBehind
      exact absurd hBehind CText.not_before_self
  · refine ⟨⟨by omega, ?_⟩, ⟨by omega, ?_⟩,
      ⟨fun _ => hBehind, fun _ => hPos⟩⟩
    · intro hBefore
      exact absurd (hBefore.trans hBehind)
        CText.not_before_self
    · intro hSame
      rw [hSame] at hBehind
      exact absurd hBehind CText.not_before_self

theorem comparison_ascending
    (hSound : area.NodeSound node)
    {part rest : List Char}
    (hPart : '\x00' ∉ part) :
    BinarySearch.Ascending (area.comparison node part rest)
      (area.numChildNodes node) := by
  constructor
  · intro i j hLe hIn hNeg
    rcases Nat.eq_or_lt_of_le hLe with rfl | hLess
    · exact hNeg
    · rcases childNode_eq hSound (Nat.lt_trans hLess hIn) with
        ⟨first, _, hFirst, _⟩
      rcases childNode_eq hSound hIn with
        ⟨second, _, hSecond, _⟩
      have hOrder := nodeLabel_lt hSound hLess hFirst hSecond
      rw [(comparison_signs hPart hSecond).1] at hNeg
      rw [(comparison_signs hPart hFirst).1]
      exact hOrder.trans hNeg
  · intro i j hLe hIn hPos
    rcases Nat.eq_or_lt_of_le hLe with rfl | hLess
    · exact hPos
    · rcases childNode_eq hSound (Nat.lt_trans hLess hIn) with
        ⟨first, _, hFirst, _⟩
      rcases childNode_eq hSound hIn with
        ⟨second, _, hSecond, _⟩
      have hOrder := nodeLabel_lt hSound hLess hFirst hSecond
      rw [(comparison_signs hPart hFirst).2.2] at hPos
      rw [(comparison_signs hPart hSecond).2.2]
      exact hPos.trans hOrder

/- No two children have one name. -/
theorem childNamed_eq_some
    (hSound : area.NodeSound node)
    {n child : Nat}
    (hChild : (area.children node)[n]? = some child) :
    area.childNamed node (area.nodeLabel child) =
      some child := by
  rcases List.getElem?_eq_some_iff.mp hChild with
    ⟨hIn, hAt⟩
  rw [childNamed, List.find?_eq_some_iff_getElem]
  refine ⟨by simp, n, hIn, hAt, ?_⟩
  intro i hBefore
  have hOther :
      (area.children node)[i]? =
        some
          ((area.children node)[i]) :=
    List.getElem?_eq_getElem (Nat.lt_trans hBefore hIn)
  have hOrder := nodeLabel_lt hSound hBefore hOther hChild
  rw [Bool.not_eq_true', decide_eq_false_iff_not]
  intro hSame
  rw [hSame] at hOrder
  exact CText.not_before_self hOrder

/- The binary search finds what a search of all would. -/
theorem findChildForString_eq
    (hSound : area.NodeSound node)
    {part rest : List Char}
    (hPart : '\x00' ∉ part) :
    area.findChildForString node (part ++ rest)
        part.length =
      some (area.childNamed node part) := by
  have hCompare :
      ∀ n < area.numChildNodes node,
        (do
          let child ← area.childNode node n
          let childName ← area.nodeName child
          some
            (compareChild (part ++ rest) part.length
              childName)) =
          some (area.comparison node part rest n) := by
    intro n hIn
    rcases childNode_eq hSound hIn with
      ⟨child, hNode, hChild, _, hName⟩
    rw [hNode, comparison, hChild]
    simp [hName]
  rcases BinarySearch.find_spec hCompare
      (comparison_ascending hSound hPart) with
    ⟨found, hFind, hFinds⟩
  rw [findChildForString, hFind]
  rcases found with _ | n
  · have hNone : area.childNamed node part = none := by
      rw [childNamed, List.find?_eq_none]
      intro child hIn hName
      rcases List.mem_iff_getElem?.mp hIn with ⟨n, hChild⟩
      have hLength : n < area.numChildNodes node := by
        have hLt := (List.getElem?_eq_some_iff.mp hChild).1
        rwa [children, length_array] at hLt
      refine hFinds n hLength ?_
      rw [(comparison_signs hPart hChild).2.1]
      simpa using hName
    rw [hNone]
    rfl
  · rcases childNode_eq hSound hFinds.1 with
      ⟨child, hNode, hChild, _, _⟩
    have hName :=
      (comparison_signs hPart hChild).2.1.mp hFinds.2
    have hNamed := childNamed_eq_some hSound hChild
    rw [hName] at hNamed
    rw [hNamed]
    simp [hNode]

end PropertyInfoArea

end Resetprop

end Universal7420

------------------------------------------------------------
-- Prefixes And Exact Matches
------------------------------------------------------------

namespace Universal7420

namespace Resetprop

namespace PropertyInfoArea

variable {area : PropertyInfoArea}
variable {node : Nat}

/- The first prefix that fits. -/
def fitting
    (area : PropertyInfoArea)
    (node : Nat)
    (remainingName : List Char) :
    Option Nat :=
  (area.prefixes node).find? fun entry =>
    area.label entry <+: remainingName

/- What is found with an entry, if there is one. -/
def Indexes.overrideBy
    (found : Indexes)
    (area : PropertyInfoArea)
    (entry : Option Nat) :
    Indexes :=
  entry.elim found (found.override area)

/- From a position on, the entries are read one by one. -/
def Reads
    (read : Nat → Option Nat)
    (i : Nat)
    (entries : List Nat) :
    Prop :=
  ∀ n entry,
    entries[n]? = some entry →
    read (i + n) = some entry

theorem Reads.first
    {read : Nat → Option Nat}
    {i entry : Nat}
    {entries : List Nat}
    (hReads : Reads read i (entry :: entries)) :
    read i = some entry :=
  hReads 0 entry rfl

theorem Reads.tail
    {read : Nat → Option Nat}
    {i entry : Nat}
    {entries : List Nat}
    (hReads : Reads read i (entry :: entries)) :
    Reads read (i + 1) entries := by
  intro n next hNext
  have hLater := hReads (n + 1) next hNext
  rw [Nat.add_assoc, Nat.add_comm 1 n]
  exact hLater

theorem reads_array
    {offset count : Nat}
    (hSound : area.isNull offset = false) :
    Reads (area.uint32Array offset) 0
      (area.array offset count) := by
  intro n entry hEntry
  have hIn := (List.getElem?_eq_some_iff.mp hEntry).1
  rw [length_array] at hIn
  rw [getElem?_array hIn] at hEntry
  rw [Nat.zero_add, uint32Array_of_sound hSound]
  exact hEntry

theorem checkPrefixFrom_eq
    {remainingName : List Char}
    {found : Indexes}
    {entries : List Nat}
    {i : Nat}
    (hReads : Reads (area.prefixEntry node) i entries)
    (hTexts :
      ∀ entry ∈ entries,
        area.isNull (area.nameOffset entry) = false)
    (hLengths :
      ∀ entry ∈ entries,
        area.namelen entry = (area.label entry).length) :
    area.checkPrefixFrom remainingName node found
        entries.length i =
      some
        (found.overrideBy area
          (entries.find? fun entry =>
            area.label entry <+: remainingName)) := by
  induction entries generalizing i with
  | nil => rfl
  | cons entry entries ih =>
      rw [List.forall_mem_cons] at hTexts hLengths
      have hRest := ih hReads.tail hTexts.2 hLengths.2
      have hZero :=
        @CText.strncmp_length_eq_zero_iff_front
          (area.label entry) remainingName
          (area.ended (area.nameOffset entry))
      rw [List.length_cons, checkPrefixFrom, hReads.first]
      simp only [Option.bind_eq_bind, Option.bind_some,
        cString_of_sound hTexts.1, hLengths.1]
      by_cases hFits : area.label entry <+: remainingName
      · have hShort := hFits.length_le
        rw [if_neg (by omega), List.find?_cons_of_pos
          (by simpa using hFits)]
        exact if_pos (hZero.mpr hFits)
      · rw [List.find?_cons_of_neg (by simpa using hFits)]
        split
        · exact hRest
        · rw [← hRest]
          exact if_neg fun hEqual =>
            hFits (hZero.mp hEqual)

theorem checkPrefixMatch_eq
    (hSound : area.NodeSound node)
    {remainingName : List Char}
    {found : Indexes} :
    area.checkPrefixMatch remainingName node found =
      some
        (found.overrideBy area
          (area.fitting node remainingName)) := by
  have hEq :=
    @checkPrefixFrom_eq area node remainingName found
      (area.prefixes node) 0
      (reads_array hSound.prefixArray)
      (fun entry hIn =>
        hSound.entryTexts entry
          (List.mem_append_left _ hIn))
      hSound.namelens
  rw [prefixes, length_array] at hEq
  exact hEq

theorem exactFrom_eq
    {remainingName : List Char}
    {entries : List Nat}
    {i : Nat}
    (hReads : Reads (area.exactMatch node) i entries)
    (hTexts :
      ∀ entry ∈ entries,
        area.isNull (area.nameOffset entry) = false) :
    area.exactFrom remainingName node entries.length i =
      some
        (entries.find? fun entry =>
          area.label entry = remainingName) := by
  induction entries generalizing i with
  | nil => rfl
  | cons entry entries ih =>
      rw [List.forall_mem_cons] at hTexts
      have hRest := ih hReads.tail hTexts.2
      rw [List.length_cons, exactFrom, hReads.first]
      simp only [Option.bind_eq_bind, Option.bind_some,
        cString_of_sound hTexts.1]
      by_cases hSame : area.label entry = remainingName
      · rw [List.find?_cons_of_pos (by simpa using hSame)]
        exact if_pos hSame
      · rw [List.find?_cons_of_neg (by simpa using hSame),
          ← hRest]
        exact if_neg hSame

theorem exactFrom_of_sound
    (hSound : area.NodeSound node)
    {remainingName : List Char} :
    area.exactFrom remainingName node
        (area.numExactMatches node) 0 =
      some
        ((area.exacts node).find? fun entry =>
          area.label entry = remainingName) := by
  have hEq :=
    @exactFrom_eq area node remainingName
      (area.exacts node) 0
      (reads_array hSound.exactArray)
      (fun entry hIn =>
        hSound.entryTexts entry
          (List.mem_append_right _ hIn))
  rw [exacts, length_array] at hEq
  exact hEq

/- What an entry has is seen, and otherwise what was found. -/
theorem override_get
    {found : Indexes}
    {entry : Nat}
    {kind : Kind} :
    (found.override area entry).get kind =
      if area.index entry kind ≠ noIndex then
        area.index entry kind
      else
        found.get kind := by
  cases kind with
  | context => rfl
  | type => rfl

theorem override_override
    {found : Indexes}
    {entry : Nat} :
    (found.override area entry).override area entry =
      found.override area entry := by
  rw [Indexes.override, Indexes.override]
  dsimp only
  congr 1
  · split
    · rfl
    · rfl
  · split
    · rfl
    · rfl

theorem overrideBy_overrideBy
    {found : Indexes}
    {entry : Option Nat} :
    (found.overrideBy area entry).overrideBy area entry =
      found.overrideBy area entry := by
  cases entry with
  | none => rfl
  | some entry => exact override_override

end PropertyInfoArea

end Resetprop

end Universal7420

------------------------------------------------------------
-- Paths
------------------------------------------------------------

namespace Universal7420

namespace Resetprop

namespace PropertyInfoArea

variable {area : PropertyInfoArea}
variable {parts path : List (List Char)}

theorem pathText_cons
    {part : List Char} :
    pathText (part :: parts) =
      part ++ '.' :: pathText parts := by
  simp [pathText]

theorem pathText_append
    {more : List (List Char)} :
    pathText (parts ++ more) =
      pathText parts ++ pathText more := by
  rw [pathText, pathText, pathText, List.flatMap_append]

/- The part before the first dot is the same. -/
theorem part_unique
    {first second rest tail : List Char}
    (hFirst : '.' ∉ first)
    (hSecond : '.' ∉ second)
    (hSame : first ++ '.' :: rest = second ++ '.' :: tail) :
    first = second ∧ rest = tail := by
  have hLeft :
      CText.strchr '.' (first ++ '.' :: rest) =
        some (first, rest) :=
    CText.strchr_eq_some_iff.mpr ⟨rfl, hFirst⟩
  have hRight :=
    CText.strchr_eq_some_iff.mpr ⟨hSame, hSecond⟩
  rw [hLeft, Option.some.injEq, Prod.mk.injEq] at hRight
  exact hRight

/- A text without dots does not go beyond the part. -/
theorem length_le_part
    {text part rest : List Char}
    (hDots : '.' ∉ text)
    (hFront : text <+: part ++ '.' :: rest) :
    text.length ≤ part.length := by
  by_contra hLong
  have hPart : part ++ ['.'] <+: part ++ '.' :: rest :=
    ⟨rest, by simp⟩
  have hInside :=
    List.prefix_of_prefix_length_le hPart hFront (by
      rw [List.length_append, List.length_singleton]
      omega)
  exact hDots (hInside.subset (by simp))

/- A path that begins a name ends on the way or goes on. -/
theorem path_cases
    {remainingName : List Char}
    (hParts : ∀ part ∈ parts, '.' ∉ part)
    (hPath : ∀ part ∈ path, '.' ∉ part)
    (hFront :
      pathText parts <+: pathText path ++ remainingName) :
    parts <+: path ∨
    ∃ part more rest,
      parts = path ++ part :: more ∧
      remainingName = part ++ '.' :: rest := by
  induction parts generalizing path with
  | nil => exact Or.inl List.nil_prefix
  | cons part parts ih =>
      rw [List.forall_mem_cons] at hParts
      rcases hFront with ⟨tail, hTail⟩
      rw [pathText_cons] at hTail
      rcases path with _ | ⟨first, path⟩
      · refine Or.inr ⟨part, parts, pathText parts ++ tail,
          rfl, ?_⟩
        rw [← List.nil_append remainingName]
        rw [show pathText [] = [] from rfl] at hTail
        rw [← hTail]
        simp
      · rw [List.forall_mem_cons] at hPath
        rw [pathText_cons] at hTail
        rcases part_unique hParts.1 hPath.1 (by
            simpa using hTail) with ⟨rfl, hRest⟩
        rcases ih hParts.2 hPath.2 ⟨tail, hRest⟩ with
          hOn | ⟨next, more, rest, rfl, hRemaining⟩
        · exact Or.inl
            (List.cons_prefix_cons.mpr ⟨rfl, hOn⟩)
        · exact Or.inr ⟨next, more, rest, rfl, hRemaining⟩

theorem childNamed_spec
    {node child : Nat}
    {part : List Char}
    (hChild : area.childNamed node part = some child) :
    child ∈ area.children node ∧
    area.nodeLabel child = part :=
  ⟨List.mem_of_find?_eq_some hChild,
    by simpa using List.find?_some hChild⟩

theorem nodeAt_append
    {node : Nat}
    {more : List (List Char)} :
    area.nodeAt node (parts ++ more) =
      (area.nodeAt node parts).bind fun child =>
        area.nodeAt child more := by
  induction parts generalizing node with
  | nil => rfl
  | cons part parts ih =>
      rw [List.cons_append, nodeAt, nodeAt]
      cases area.childNamed node part with
      | none => rfl
      | some child => exact ih

/- The parts of a path have no dots. -/
theorem Sound.dotless
    (hSound : area.Sound)
    {node : Nat}
    (hNode : area.nodeAt area.rootOffset parts = some node) :
    ∀ part ∈ parts, '.' ∉ part := by
  intro part hIn
  rcases List.append_of_mem hIn with ⟨before, after, rfl⟩
  rw [nodeAt_append, Option.bind_eq_some_iff] at hNode
  rcases hNode with ⟨parent, hParent, hRest⟩
  rw [nodeAt, Option.bind_eq_some_iff] at hRest
  rcases hRest with ⟨child, hChild, _⟩
  rcases childNamed_spec hChild with ⟨hMem, rfl⟩
  exact (hSound.nodes before parent hParent).childDots
    child hMem

end PropertyInfoArea

end Resetprop

end Universal7420

------------------------------------------------------------
-- The Longest Rule
------------------------------------------------------------

namespace Universal7420

namespace Resetprop

namespace PropertyInfoArea

variable {area : PropertyInfoArea}
variable {path : List (List Char)}
variable {name remainingName : List Char}
variable {node : Nat}
variable {kind : Kind}

/- Rules of the nodes on the way to a node are shorter. -/
theorem Rule.length_lt
    (hSound : area.Sound)
    {parts : List (List Char)}
    {text : List Char}
    {entry : Nat}
    (hRule : area.Rule parts text entry)
    (hFront : text <+: pathText path ++ remainingName)
    (hOn : parts <+: path)
    (hOther : parts ≠ path) :
    text.length < (pathText path).length := by
  rcases hOn with ⟨more, rfl⟩
  rcases more with _ | ⟨part, more⟩
  · simp at hOther
  · rw [pathText_append, pathText_cons, List.append_assoc] at hFront
    rw [pathText_append, pathText_cons, List.length_append,
      List.length_append, List.length_cons]
    rcases hRule with
      ⟨node, hNode, ⟨rfl, _⟩ | ⟨hEntry, rfl⟩⟩
    · omega
    · rw [List.prefix_append_right_inj] at hFront
      have hDots :=
        (hSound.nodes parts node hNode).entryDots entry
          (List.mem_append_left _ hEntry)
      have hLe := length_le_part hDots (by
        rw [List.append_assoc] at hFront
        exact hFront)
      rw [List.length_append]
      omega

/- The rules of one node, as `checkPrefixMatch` sees them. -/
theorem Rule.at_node
    {text : List Char}
    {entry : Nat}
    (hNode : area.nodeAt area.rootOffset path = some node)
    (hRule : area.Rule path text entry) :
    (text = pathText path ∧
      entry = area.nodePropertyEntry node) ∨
    (entry ∈ area.prefixes node ∧
      text = pathText path ++ area.label entry) := by
  rcases hRule with ⟨other, hOther, hText⟩
  rw [hNode, Option.some.injEq] at hOther
  rw [hOther]
  exact hText

/- The nodes on the way to a node, with it or without it. -/
def upTo (path parts : List (List Char)) : Prop :=
  parts <+: path

def above (path parts : List (List Char)) : Prop :=
  parts <+: path ∧ parts ≠ path

theorem fitting_eq_some
    (hSound : area.NodeSound node)
    {entry : Nat}
    (hFits : area.fitting node remainingName = some entry) :
    entry ∈ area.prefixes node ∧
    area.label entry <+: remainingName ∧
    ∀ other ∈ area.prefixes node,
      area.label other <+: remainingName →
      (area.label other).length ≤
        (area.label entry).length := by
  have hFirst := List.find?_some hFits
  rcases List.find?_eq_some_iff_append.mp hFits with
    ⟨_, before, after, hSplit, hBefore⟩
  refine ⟨List.mem_of_find?_eq_some hFits, by simpa using
    hFirst, ?_⟩
  intro other hIn hOther
  have hLongest := hSound.longestFirst
  rw [hSplit, List.pairwise_append,
    List.pairwise_cons] at hLongest
  rw [hSplit] at hIn
  rcases List.mem_append.mp hIn with hThere | hRest
  · have hNot := hBefore other hThere
    rw [Bool.not_eq_true', decide_eq_false_iff_not] at hNot
    exact absurd hOther hNot
  · rcases List.mem_cons.mp hRest with rfl | hAfter
    · exact Nat.le_refl _
    · exact hLongest.2.1.1 other hAfter

/-
  One turn of the loop: the rules of a node are taken over
  those above it.
-/
theorem Best.at_node
    (hSound : area.Sound)
    (hSet : area.PrefixesHave kind)
    (hNode : area.nodeAt area.rootOffset path = some node)
    {found : Indexes}
    (hBest :
      area.Best (above path) (pathText path ++ remainingName)
        kind (found.get kind)) :
    area.Best (upTo path) (pathText path ++ remainingName)
      kind
      (((found.override area
          (area.nodePropertyEntry node)).overrideBy area
        (area.fitting node remainingName)).get kind) := by
  have hHere := hSound.nodes path node hNode
  -- A rule above the node is shorter than all of its own.
  have hAbove :
      ∀ parts text entry,
        upTo path parts →
        area.Rule parts text entry →
        text <+: pathText path ++ remainingName →
        parts = path ∨
        text.length < (pathText path).length := by
    intro parts text entry hOn hRule hFront
    by_cases hSame : parts = path
    · exact Or.inl hSame
    · exact Or.inr (hRule.length_lt hSound hFront hOn hSame)
  rcases hFits : area.fitting node remainingName with
    _ | entry
  · have hNone :
        ∀ entry ∈ area.prefixes node,
          ¬ area.label entry <+: remainingName := by
      intro entry hIn hFront
      have hNot := List.find?_eq_none.mp hFits entry hIn
      exact hNot (by simpa using hFront)
    -- The node itself is then its only rule that fits.
    have hOwn :
        ∀ text entry,
          area.Rule path text entry →
          text <+: pathText path ++ remainingName →
          text = pathText path ∧
          entry = area.nodePropertyEntry node := by
      intro text entry hRule hFront
      rcases hRule.at_node hNode with hOwn | ⟨hIn, rfl⟩
      · exact hOwn
      · rw [List.prefix_append_right_inj] at hFront
        exact absurd hFront (hNone entry hIn)
    rw [Indexes.overrideBy, Option.elim_none, override_get]
    split
    · rename_i hIndex
      refine Or.inl ⟨path, pathText path,
        area.nodePropertyEntry node, List.prefix_rfl,
        ⟨node, hNode, Or.inl ⟨rfl, rfl⟩⟩,
        List.prefix_append _ _, hIndex, rfl, ?_⟩
      intro parts text other hOn hRule hText _
      rcases hAbove parts text other hOn hRule hText with
        rfl | hShort
      · rw [(hOwn text other hRule hText).1]
      · exact hShort.le
    · rename_i hIndex
      rw [not_not] at hIndex
      have hElsewhere :
          ∀ parts text entry,
            upTo path parts →
            area.Rule parts text entry →
            text <+: pathText path ++ remainingName →
            area.index entry kind ≠ noIndex →
            above path parts := by
        intro parts text entry hOn hRule hText hOther
        refine ⟨hOn, ?_⟩
        rintro rfl
        rw [(hOwn text entry hRule hText).2] at hOther
        exact hOther hIndex
      rcases hBest with
        ⟨parts, text, entry, hOn, hRule, hText, hEntry, hEq,
          hMax⟩ | ⟨hEq, hUnset⟩
      · refine Or.inl ⟨parts, text, entry, hOn.1, hRule,
          hText, hEntry, hEq, ?_⟩
        intro parts' text' entry' hOn' hRule' hText' hEntry'
        exact hMax parts' text' entry'
          (hElsewhere parts' text' entry' hOn' hRule' hText'
            hEntry') hRule' hText' hEntry'
      · refine Or.inr ⟨hEq, ?_⟩
        intro parts' text' entry' hOn' hRule' hText'
        by_contra hEntry'
        exact hEntry' (hUnset parts' text' entry'
          (hElsewhere parts' text' entry' hOn' hRule' hText'
            hEntry') hRule' hText')
  · rcases fitting_eq_some hHere hFits with
      ⟨hIn, hFront, hLongest⟩
    have hIndex := hSet path node entry hNode hIn
    refine Or.inl ⟨path, pathText path ++ area.label entry,
      entry, List.prefix_rfl, ⟨node, hNode, Or.inr ⟨hIn, rfl⟩⟩,
      ?_, hIndex, ?_, ?_⟩
    · rwa [List.prefix_append_right_inj]
    · rw [Indexes.overrideBy, Option.elim_some, override_get,
        if_pos hIndex]
    · intro parts text other hOn hRule hText _
      rw [List.length_append]
      rcases hAbove parts text other hOn hRule hText with
        rfl | hShort
      · rcases hRule.at_node hNode with
          ⟨rfl, _⟩ | ⟨hOther, rfl⟩
        · omega
        · rw [List.prefix_append_right_inj] at hText
          have hLe := hLongest other hOther hText
          rw [List.length_append]
          omega
      · omega

theorem Best.congr
    {among other : List (List Char) → Prop}
    {index : Nat}
    (hBest : area.Best among name kind index)
    (hSame :
      ∀ parts text entry,
        area.Rule parts text entry →
        text <+: name →
        (among parts ↔ other parts)) :
    area.Best other name kind index := by
  rcases hBest with
    ⟨parts, text, entry, hOn, hRule, hText, hEntry, hEq,
      hMax⟩ | ⟨hEq, hUnset⟩
  · refine Or.inl ⟨parts, text, entry,
      (hSame parts text entry hRule hText).mp hOn, hRule,
      hText, hEntry, hEq, ?_⟩
    intro parts' text' entry' hOn' hRule' hText' hEntry'
    exact hMax parts' text' entry'
      ((hSame parts' text' entry' hRule' hText').mpr hOn')
      hRule' hText' hEntry'
  · refine Or.inr ⟨hEq, ?_⟩
    intro parts' text' entry' hOn' hRule' hText'
    exact hUnset parts' text' entry'
      ((hSame parts' text' entry' hRule' hText').mpr hOn')
      hRule' hText'

/- Above a child are the nodes up to its parent. -/
theorem above_snoc
    {part : List Char}
    {parts : List (List Char)} :
    above (path ++ [part]) parts ↔ upTo path parts := by
  rw [above, upTo, List.prefix_concat_iff]
  constructor
  · rintro ⟨hSame | hOn, hOther⟩
    · exact absurd hSame hOther
    · exact hOn
  · intro hOn
    refine ⟨Or.inr hOn, ?_⟩
    rintro rfl
    have hLe := hOn.length_le
    rw [List.length_append, List.length_singleton] at hLe
    omega

/- Where the loop ends: no child goes on with the name. -/
structure Arrived
    (area : PropertyInfoArea)
    (kind : Kind)
    (name : List Char)
    (path : List (List Char))
    (node : Nat)
    (remainingName : List Char)
    (found : Indexes) :
    Prop where
  nodeAt : area.nodeAt area.rootOffset path = some node
  split : name = pathText path ++ remainingName
  best : area.Best (upTo path) name kind (found.get kind)
  checked :
    found.overrideBy area
      (area.fitting node remainingName) = found
  ends :
    ∀ part rest,
      remainingName = part ++ '.' :: rest →
      '.' ∉ part →
      area.childNamed node part = none

/- The loop arrives, and has then seen all nodes on the way. -/
theorem walk_spec
    (hSound : area.Sound)
    (hSet : area.PrefixesHave kind)
    {turns : Nat}
    {found : Indexes}
    (hNull : '\x00' ∉ remainingName)
    (hTurns : remainingName.length < turns)
    (hNode : area.nodeAt area.rootOffset path = some node)
    (hBest :
      area.Best (above path) (pathText path ++ remainingName)
        kind (found.get kind)) :
    ∃ last rest final parts,
      area.walk turns node remainingName found =
        some (last, rest, final) ∧
      Arrived area kind (pathText path ++ remainingName)
        parts last rest final := by
  induction turns generalizing node path remainingName found
    with
  | zero => omega
  | succ turns ih =>
      have hHere := hSound.nodes path node hNode
      have hStep := hBest.at_node hSound hSet hNode
      rw [walk]
      simp only [checkPrefixMatch_eq hHere,
        Option.bind_eq_bind, Option.bind_some]
      rcases hDot : CText.strchr '.' remainingName with
        _ | ⟨part, rest⟩
      · refine ⟨node, remainingName, _, path, rfl, hNode, rfl,
          hStep, overrideBy_overrideBy, ?_⟩
        intro part rest hSplit hPart
        rw [CText.strchr_eq_none_iff, hSplit] at hDot
        simp at hDot
      · rw [CText.strchr_eq_some_iff] at hDot
        rcases hDot with ⟨rfl, hPart⟩
        have hPartNull : '\x00' ∉ part :=
          fun hIn => hNull (List.mem_append_left _ hIn)
        simp only [findChildForString_eq hHere hPartNull,
          Option.bind_some]
        rcases hChild : area.childNamed node part with
          _ | child
        · refine ⟨node, part ++ '.' :: rest, _, path, rfl,
            hNode, rfl, hStep, overrideBy_overrideBy, ?_⟩
          intro other tail hSplit hOther
          rw [← (part_unique hPart hOther hSplit).1]
          exact hChild
        · have hNext :
              area.nodeAt area.rootOffset (path ++ [part]) =
                some child := by
            rw [nodeAt_append, hNode, Option.bind_some,
              PropertyInfoArea.nodeAt, hChild]
            rfl
          have hSame :
              pathText (path ++ [part]) ++ rest =
                pathText path ++ (part ++ '.' :: rest) := by
            simp [pathText]
          have hRest := ih
            (fun hIn => hNull
              (List.mem_append_right _
                (List.mem_cons_of_mem _ hIn)))
            (by
              rw [List.length_append, List.length_cons]
                at hTurns
              omega)
            hNext
            (by
              rw [hSame]
              exact hStep.congr fun parts _ _ _ _ =>
                above_snoc.symm)
          rw [hSame] at hRest
          exact hRest

/- A node whose parts begin the name is on the way. -/
theorem Arrived.upTo
    (hSound : area.Sound)
    {found : Indexes}
    (hArrived :
      Arrived area kind name path node remainingName found)
    {parts : List (List Char)}
    {other : Nat}
    (hOther : area.nodeAt area.rootOffset parts = some other)
    (hFront : pathText parts <+: name) :
    upTo path parts := by
  rw [hArrived.split] at hFront
  have hDotless := hSound.dotless hOther
  rcases path_cases hDotless
      (hSound.dotless hArrived.nodeAt) hFront with
    hOn | ⟨part, more, rest, rfl, hRest⟩
  · exact hOn
  · have hPart := hDotless part (by simp)
    rw [nodeAt_append, hArrived.nodeAt, Option.bind_some,
      PropertyInfoArea.nodeAt,
      hArrived.ends part rest hRest hPart] at hOther
    cases hOther

theorem Rule.front
    {parts : List (List Char)}
    {text : List Char}
    {entry : Nat}
    (hRule : area.Rule parts text entry) :
    pathText parts <+: text := by
  rcases hRule with ⟨_, _, ⟨rfl, _⟩ | ⟨_, rfl⟩⟩
  · exact List.prefix_rfl
  · exact List.prefix_append _ _

/- The exact matches for the name are those at the end. -/
theorem Arrived.exact_iff
    (hSound : area.Sound)
    {found : Indexes}
    (hArrived :
      Arrived area kind name path node remainingName found)
    {entry : Nat} :
    area.Exact name entry ↔
      entry ∈ area.exacts node ∧
      area.label entry = remainingName := by
  constructor
  · rintro ⟨parts, other, hOther, hIn, hName⟩
    have hOn :=
      hArrived.upTo hSound hOther ⟨_, hName.symm⟩
    rcases hOn with ⟨more, rfl⟩
    have hSplit := hArrived.split
    rw [hName, pathText_append, List.append_assoc,
      List.append_cancel_left_eq] at hSplit
    rcases more with _ | ⟨part, more⟩
    · have hNode := hArrived.nodeAt
      rw [List.append_nil, hOther, Option.some.injEq] at hNode
      rw [← hNode]
      exact ⟨hIn, hSplit⟩
    · have hDots :=
        (hSound.nodes parts other hOther).entryDots entry
          (List.mem_append_right _ hIn)
      rw [hSplit, pathText_cons] at hDots
      simp at hDots
  · rintro ⟨hIn, hLabel⟩
    refine ⟨path, node, hArrived.nodeAt, hIn, ?_⟩
    rw [hLabel]
    exact hArrived.split

/-
  In a sound file every name is looked up without a null
  pointer, and is given the index of the exact match for it,
  or without one the index of the longest rule that fits it.
-/
theorem getPropertyInfoIndexes_longest
    (area : PropertyInfoArea)
    (kind : Kind)
    (name : List Char)
    (hSound : area.Sound)
    (hSet : area.PrefixesHave kind)
    (hNull : '\x00' ∉ name) :
    ∃ found,
      area.getPropertyInfoIndexes name = some found ∧
      ((∃ entry,
        area.Exact name entry ∧
        area.index entry kind ≠ noIndex ∧
        found.get kind = area.index entry kind) ∨
      ((∀ entry,
        area.Exact name entry →
        area.index entry kind = noIndex) ∧
      area.Best (fun _ => True) name kind
        (found.get kind))) := by
  have hStart :
      area.Best (above []) (pathText [] ++ name) kind
        (Indexes.get ⟨noIndex, noIndex⟩ kind) := by
    refine Or.inr ⟨?_, ?_⟩
    · cases kind with
      | context => rfl
      | type => rfl
    · intro parts _ _ hAbove
      exact absurd (List.prefix_nil.mp hAbove.1) hAbove.2
  rcases walk_spec hSound hSet hNull (Nat.lt_succ_self _)
      (show area.nodeAt area.rootOffset [] =
        some area.rootOffset from rfl) hStart with
    ⟨node, rest, final, path, hWalk, hArrived⟩
  rw [show pathText [] ++ name = name from rfl] at hArrived
  have hHere := hSound.nodes path node hArrived.nodeAt
  have hAll :
      area.Best (fun _ => True) name kind
        (final.get kind) :=
    hArrived.best.congr fun parts text entry hRule hText =>
      ⟨fun _ => trivial, fun _ => by
        rcases id hRule with ⟨other, hOther, _⟩
        exact hArrived.upTo hSound hOther
          (hRule.front.trans hText)⟩
  have hRoot : area.rootNode = some area.rootOffset := by
    rw [rootNode, hSound.root]
    rfl
  rw [getPropertyInfoIndexes]
  simp only [hRoot, Option.bind_eq_bind, Option.bind_some,
    hWalk, exactFrom_of_sound hHere]
  rcases hExact :
      (area.exacts node).find? fun entry =>
        area.label entry = rest with _ | entry
  · refine ⟨final, ?_, Or.inr ⟨?_, hAll⟩⟩
    · rw [checkPrefixMatch_eq hHere, hArrived.checked]
    · intro entry hEntry
      rcases (hArrived.exact_iff hSound).mp hEntry with
        ⟨hIn, hLabel⟩
      have hNot := List.find?_eq_none.mp hExact entry hIn
      exact absurd (by simpa using hLabel) hNot
  · have hIn := List.mem_of_find?_eq_some hExact
    have hLabel : area.label entry = rest := by
      simpa using List.find?_some hExact
    refine ⟨final.override area entry, rfl, ?_⟩
    rw [override_get]
    split
    · rename_i hIndex
      exact Or.inl ⟨entry,
        (hArrived.exact_iff hSound).mpr ⟨hIn, hLabel⟩,
        hIndex, rfl⟩
    · rename_i hIndex
      rw [not_not] at hIndex
      refine Or.inr ⟨?_, hAll⟩
      intro other hOther
      rcases (hArrived.exact_iff hSound).mp hOther with
        ⟨hOtherIn, hOtherLabel⟩
      -- The exact matches of a node have different texts.
      have hSame : other = entry :=
        List.inj_on_of_nodup_map hHere.exactOnce hOtherIn hIn
          (hOtherLabel.trans hLabel.symm)
      rw [hSame]
      exact hIndex

/-
  A file with the prefix `r`, the node `ro` and the exact
  match `ro.x`, in the contexts 2, 1 and 3.
-/
def smallArea : PropertyInfoArea where
  word
  | 8 => 500
  | 20 => 100
  | 100 => 200
  | 104 => 1
  | 108 => 300
  | 112 => 1
  | 116 => 304
  | 130 => 220
  | 150 => 1
  | 154 => 308
  | 300 => 130
  | 304 => 240
  | 308 => 260
  | 200 => 400
  | 208 => noIndex
  | 212 => noIndex
  | 220 => 401
  | 228 => 1
  | 232 => noIndex
  | 240 => 402
  | 244 => 1
  | 248 => 2
  | 260 => 403
  | 268 => 3
  | _ => 0
  text
  | 401 => ['r', 'o']
  | 402 => ['r']
  | 403 => ['x']
  | _ => []
  ended := by
    intro offset
    split
    · decide
    · decide
    · decide
    · decide

theorem smallArea_node
    {parts : List (List Char)}
    {node : Nat}
    (hNode :
      smallArea.nodeAt smallArea.rootOffset parts =
        some node) :
    node = 100 ∨ node = 130 := by
  rcases parts with _ | ⟨part, parts⟩
  · left
    exact (Option.some.inj hNode).symm
  · right
    rw [nodeAt, Option.bind_eq_some_iff] at hNode
    rcases hNode with ⟨child, hChild, hRest⟩
    have hOnly : child ∈ [130] :=
      (childNamed_spec hChild).1
    rw [List.mem_singleton.mp hOnly] at hRest
    rcases parts with _ | ⟨next, parts⟩
    · exact (Option.some.inj hRest).symm
    · cases hRest

theorem smallArea_sound : smallArea.Sound := by
  refine ⟨rfl, ?_⟩
  intro parts node hNode
  rcases smallArea_node hNode with rfl | rfl
  · exact ⟨rfl, rfl, rfl, by decide, by decide, by simp
      [show smallArea.children 100 = [130] from rfl],
      by decide, by decide, by decide, by decide, by decide⟩
  · exact ⟨rfl, rfl, rfl, by decide, by decide, by simp
      [show smallArea.children 130 = [] from rfl],
      by decide, by decide, by decide, by decide, by decide⟩

theorem smallArea_prefixesHave :
    smallArea.PrefixesHave .context := by
  intro parts node entry hNode hIn
  rcases smallArea_node hNode with rfl | rfl
  · have hOnly : entry ∈ [240] := hIn
    rw [List.mem_singleton.mp hOnly]
    decide
  · cases hIn

/- The node `ro` is longer than the prefix `r`. -/
theorem getPropertyInfoIndexes_longest_small :
    ∃ found,
      smallArea.getPropertyInfoIndexes
          ['r', 'o', '.', 'y'] = some found ∧
      ((∃ entry,
        smallArea.Exact ['r', 'o', '.', 'y'] entry ∧
        smallArea.index entry .context ≠ noIndex ∧
        found.get .context =
          smallArea.index entry .context) ∨
      ((∀ entry,
        smallArea.Exact ['r', 'o', '.', 'y'] entry →
        smallArea.index entry .context = noIndex) ∧
      smallArea.Best (fun _ => True) ['r', 'o', '.', 'y']
        .context (found.get .context))) :=
  getPropertyInfoIndexes_longest smallArea .context
    ['r', 'o', '.', 'y'] smallArea_sound
    smallArea_prefixesHave (by decide)

/- The three ways to be found. -/
example :
    smallArea.getPropertyInfoIndexes
        ['r', 'o', '.', 'x'] = some ⟨3, 0⟩ ∧
    smallArea.getPropertyInfoIndexes
        ['r', 'o', '.', 'y'] = some ⟨1, 0⟩ ∧
    smallArea.getPropertyInfoIndexes
        ['r', 'a'] = some ⟨2, 0⟩ := by
  decide

end PropertyInfoArea

end Resetprop

end Universal7420
