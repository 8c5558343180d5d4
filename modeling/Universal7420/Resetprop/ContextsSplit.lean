import Universal7420.Lib.CString
import Universal7420.Lib.Decimal
import Mathlib.Data.List.TakeWhile

/-
  The contexts of `contexts_split.cpp`.

  The files of contexts give a context to each prefix of names.
  The prefixes are kept in one list, in which the longer ones
  come first and the one that fits every name comes last, and a
  name belongs to the first prefix that fits it.

  Main declarations:
    * `Universal7420.Resetprop.PrefixNode`
    * `Universal7420.Resetprop.listAddAfterLen`
    * `Universal7420.Resetprop.readSpecEntries`
    * `Universal7420.Resetprop.ContextsSplit.initializePropertiesFromFile`
    * `Universal7420.Resetprop.ContextsSplit.getPropAreaForName`
    * `Universal7420.Resetprop.Longest`
    * `Universal7420.Resetprop.getPropAreaForName_longest`
-/

------------------------------------------------------------
-- The List Of Prefixes
------------------------------------------------------------

namespace Universal7420

namespace Resetprop

/- `PrefixNode`, whose context is found by its text. -/
structure PrefixNode where
  prefixText : List Char
  context : List Char
deriving DecidableEq, Repr

def PrefixNode.isStar (node : PrefixNode) : Bool :=
  node.prefixText.head? = some '*'

def PrefixNode.prefixLen (node : PrefixNode) : Nat :=
  node.prefixText.length

def listAddAfterLen
    (new : PrefixNode) :
    List PrefixNode → List PrefixNode
| [] => [new]
| node :: rest =>
    if node.prefixLen < new.prefixLen ∨ node.isStar = true
    then
      new :: node :: rest
    else
      node :: listAddAfterLen new rest

/- The condition of `GetPropAreaForName`. -/
def PrefixNode.fits
    (name : List Char)
    (node : PrefixNode) :
    Bool :=
  node.isStar ||
    decide
      (CText.strncmp node.prefixLen node.prefixText name = 0)

/- `prefixes_` and `contexts_`. -/
structure ContextsSplit where
  prefixes : List PrefixNode
  contexts : List (List Char)
deriving DecidableEq, Repr

/- The context whose area is opened for a name. -/
def ContextsSplit.getPropAreaForName
    (split : ContextsSplit)
    (name : List Char) :
    Option (List Char) :=
  (split.prefixes.find? (PrefixNode.fits name)).map
    PrefixNode.context

end Resetprop

end Universal7420

------------------------------------------------------------
-- Files
------------------------------------------------------------

namespace Universal7420

namespace Resetprop

open CText

/- `read_spec_entry`: the next word, and the text behind it. -/
def readSpecEntry
    (text : List Char) :
    List Char × List Char :=
  let word := text.dropWhile isSpace
  ( word.takeWhile fun c => !isSpace c
  , word.dropWhile fun c => !isSpace c )

/- The loop of `read_spec_entries`. -/
def specWords
    (numArgs : Nat) :
    Nat → List (List Char) → List Char → List (List Char)
| 0, items, _ => items
| fuel + 1, items, text =>
    if numArgs ≤ items.length then
      items
    else if text = [] then
      items
    else
      let entry := readSpecEntry text
      if entry.1 = [] then
        specWords numArgs fuel items entry.2
      else
        specWords numArgs fuel (items ++ [entry.1]) entry.2

/- The C text of a line, without its newline. -/
def specText (line : List Char) : List Char :=
  let text := line.takeWhile fun c => c != '\x00'
  if text.getLast? = some '\n' then
    text.dropLast
  else
    text

/- Comments and empty lines have no entries. -/
def readSpecEntries
    (numArgs : Nat)
    (line : List Char) :
    List (List Char) :=
  let buf := (specText line).dropWhile isSpace
  if buf = [] ∨ buf.head? = some '#' then
    []
  else
    specWords numArgs (buf.length + 1) [] buf

/- The prefix and the context of a line, if it has both. -/
def specLine (line : List Char) : Option PrefixNode :=
  match readSpecEntries 2 line with
  | [prefixText, context] =>
      -- Control properties are not stored.
      if CText.strncmp 4 prefixText "ctl.".toList = 0 then
        none
      else
        some ⟨prefixText, context⟩
  | _ => none

/- One line of `InitializePropertiesFromFile`. -/
def ContextsSplit.addNode
    (split : ContextsSplit)
    (new : PrefixNode) :
    ContextsSplit where
  prefixes := listAddAfterLen new split.prefixes
  contexts :=
    if new.context ∈ split.contexts then
      split.contexts
    else
      new.context :: split.contexts

def ContextsSplit.initializePropertiesFromFile
    (split : ContextsSplit)
    (lines : List (List Char)) :
    ContextsSplit :=
  (lines.filterMap specLine).foldl
    ContextsSplit.addNode split

/- The files that are there and may be read. -/
abbrev ContextFiles := String → Option (List (List Char))

/-
  The files of the platform and of the vendor: a failure of
  the second one is not one of `InitializeProperties`.
-/
def initializePlatAndVendor
    (files : ContextFiles)
    (plat vendor nonplat : String) :
    Bool × ContextsSplit :=
  match files plat with
  | none => (false, ⟨[], []⟩)
  | some lines =>
      let split :=
        ContextsSplit.initializePropertiesFromFile ⟨[], []⟩
          lines
      match (files vendor).or (files nonplat) with
      | none => (true, split)
      | some more =>
          (true, split.initializePropertiesFromFile more)

/- The first result is what `InitializeProperties` returns. -/
def initializeProperties
    (files : ContextFiles) :
    Bool × ContextsSplit :=
  match files "/property_contexts" with
  | some lines =>
      ( true
      , ContextsSplit.initializePropertiesFromFile ⟨[], []⟩
          lines )
  | none =>
      if (files
          "/system/etc/selinux/plat_property_contexts").isSome
      then
        initializePlatAndVendor files
          "/system/etc/selinux/plat_property_contexts"
          "/vendor/etc/selinux/vendor_property_contexts"
          "/vendor/etc/selinux/nonplat_property_contexts"
      else
        initializePlatAndVendor files
          "/plat_property_contexts"
          "/vendor_property_contexts"
          "/nonplat_property_contexts"

end Resetprop

end Universal7420

------------------------------------------------------------
-- The Longest Prefix
------------------------------------------------------------

namespace Universal7420

namespace Resetprop

/- What `read_spec_entries` makes sure of. -/
def PrefixNode.Spelled (node : PrefixNode) : Prop :=
  node.prefixText ≠ [] ∧ '\x00' ∉ node.prefixText

/- A star stands for every name, and alone. -/
def PrefixNode.StarAlone (node : PrefixNode) : Prop :=
  node.isStar = true → node.prefixText = ['*']

/- The prefix of a node is one of the name. -/
def PrefixNode.Begins
    (name : List Char)
    (node : PrefixNode) :
    Prop :=
  node.isStar = false ∧ node.prefixText <+: name

/-
  The node is the longest that begins the name, the earliest
  of them in the files, or without any the latest star.
-/
def Longest
    (nodes : List PrefixNode)
    (name : List Char)
    (node : PrefixNode) :
    Prop :=
  ∃ before after,
    nodes = before ++ node :: after ∧
    ((node.Begins name ∧
      (∀ other ∈ before,
        other.Begins name →
        other.prefixLen < node.prefixLen) ∧
      (∀ other ∈ after,
        other.Begins name →
        other.prefixLen ≤ node.prefixLen)) ∨
    (node.isStar = true ∧
      (∀ other ∈ nodes, ¬ other.Begins name) ∧
      ∀ other ∈ after, other.isStar = false))

/- What the list keeps: no star and no shorter one is before. -/
def Follows (node next : PrefixNode) : Prop :=
  next.isStar = false →
    node.isStar = false ∧ next.prefixLen ≤ node.prefixLen

/- The better of a node that was found and a new one. -/
def better
    (name : List Char)
    (new : PrefixNode) :
    Option PrefixNode → Option PrefixNode
| none => if new.fits name then some new else none
| some node =>
    if new.fits name = false then
      some node
    else if node.isStar = true then
      some new
    else if new.isStar = true then
      some node
    else if new.prefixLen ≤ node.prefixLen then
      some node
    else
      some new

variable {name : List Char}
variable {node new : PrefixNode}

theorem fits_iff
    (hSpelled : node.Spelled) :
    node.fits name = true ↔
      node.isStar = true ∨ node.Begins name := by
  unfold PrefixNode.fits PrefixNode.Begins
    PrefixNode.prefixLen
  rw [Bool.or_eq_true, decide_eq_true_iff,
    CText.strncmp_length_eq_zero_iff_front hSpelled.2]
  cases node.isStar with
  | true => simp
  | false => simp

theorem prefixLen_of_star
    (hAlone : node.StarAlone)
    (hStar : node.isStar = true) :
    node.prefixLen = 1 := by
  unfold PrefixNode.prefixLen
  rw [hAlone hStar]
  rfl

theorem mem_listAddAfterLen
    {list : List PrefixNode} :
    node ∈ listAddAfterLen new list ↔
      node = new ∨ node ∈ list := by
  induction list with
  | nil => simp [listAddAfterLen]
  | cons first rest ih =>
      rw [listAddAfterLen]
      split
      · simp
      · rw [List.mem_cons, ih, List.mem_cons]
        constructor
        · rintro (hFirst | hNew | hRest)
          · exact Or.inr (Or.inl hFirst)
          · exact Or.inl hNew
          · exact Or.inr (Or.inr hRest)
        · rintro (hNew | hFirst | hRest)
          · exact Or.inr (Or.inl hNew)
          · exact Or.inl hFirst
          · exact Or.inr (Or.inr hRest)

/- Behind the place of a new node the others are shorter. -/
theorem shorter_behind
    {first next : PrefixNode}
    {rest : List PrefixNode}
    (hNew : new.StarAlone)
    (hFirst : first.Spelled)
    (hFollows : ∀ next ∈ rest, Follows first next)
    (hHere :
      first.prefixLen < new.prefixLen ∨
      first.isStar = true)
    (hIn : next ∈ first :: rest)
    (hLetter : next.isStar = false) :
    new.isStar = false ∧
    next.prefixLen < new.prefixLen := by
  have hPos : 1 ≤ first.prefixLen :=
    List.length_pos_iff.mpr hFirst.1
  have hNext :
      first.isStar = false ∧
      next.prefixLen ≤ first.prefixLen := by
    rcases List.mem_cons.mp hIn with rfl | hRest
    · exact ⟨hLetter, Nat.le_refl _⟩
    · exact hFollows next hRest hLetter
  rw [hNext.1] at hHere
  have hShorter : first.prefixLen < new.prefixLen := by
    simpa using hHere
  constructor
  · rw [Bool.eq_false_iff]
    intro hStar
    rw [prefixLen_of_star hNew hStar] at hShorter
    omega
  · omega

/- The order of the list is kept. -/
theorem listAddAfterLen_ordered
    {list : List PrefixNode}
    (hNew : new.StarAlone)
    (hSpelled : ∀ node ∈ list, node.Spelled)
    (hOrdered : list.Pairwise Follows) :
    (listAddAfterLen new list).Pairwise Follows := by
  induction list with
  | nil => simp [listAddAfterLen]
  | cons first rest ih =>
      rw [List.pairwise_cons] at hOrdered
      rw [List.forall_mem_cons] at hSpelled
      rw [listAddAfterLen]
      split
      · rename_i hHere
        rw [List.pairwise_cons, List.pairwise_cons]
        refine ⟨?_, hOrdered⟩
        intro next hIn hLetter
        have hShorter :=
          shorter_behind hNew hSpelled.1 hOrdered.1 hHere
            hIn hLetter
        exact ⟨hShorter.1, hShorter.2.le⟩
      · rename_i hLater
        rw [not_or] at hLater
        rw [List.pairwise_cons]
        refine ⟨?_, ih hSpelled.2 hOrdered.2⟩
        intro next hIn
        rcases mem_listAddAfterLen.mp hIn with rfl | hThere
        · intro _
          exact ⟨by simpa using hLater.2, by omega⟩
        · exact hOrdered.1 next hThere

/- What is found after a node was added. -/
theorem find?_listAddAfterLen
    {list : List PrefixNode}
    (hNew : new.StarAlone)
    (hSpelled : ∀ node ∈ list, node.Spelled)
    (hOrdered : list.Pairwise Follows) :
    (listAddAfterLen new list).find?
        (PrefixNode.fits name) =
      better name new
        (list.find? (PrefixNode.fits name)) := by
  induction list with
  | nil =>
      rw [listAddAfterLen, List.find?_cons, List.find?_nil,
        better]
      cases new.fits name with
      | true => rfl
      | false => rfl
  | cons first rest ih =>
      rw [List.pairwise_cons] at hOrdered
      rw [List.forall_mem_cons] at hSpelled
      rw [listAddAfterLen]
      split
      · rename_i hHere
        rw [List.find?_cons]
        rcases hFound :
            (first :: rest).find? (PrefixNode.fits name)
            with _ | node
        · rw [better]
          cases new.fits name with
          | true => rfl
          | false => rfl
        · have hIn := List.mem_of_find?_eq_some hFound
          rw [better]
          cases hFits : new.fits name with
          | false => rfl
          | true =>
              cases hStar : node.isStar with
              | true => simp
              | false =>
                  have hShorter :=
                    shorter_behind hNew hSpelled.1
                      hOrdered.1 hHere hIn hStar
                  have hLonger :
                      ¬ new.prefixLen ≤ node.prefixLen := by
                    omega
                  simp [hShorter.1, hLonger]
      · rename_i hLater
        rw [not_or] at hLater
        rw [List.find?_cons, List.find?_cons]
        cases hFits : first.fits name with
        | false => exact ih hSpelled.2 hOrdered.2
        | true =>
            have hShorter :
                new.prefixLen ≤ first.prefixLen := by
              omega
            simp [better, hLater.2, hShorter]

/- A node that is not better leaves the longest one. -/
theorem Longest.snoc
    {nodes : List PrefixNode}
    (hLongest : Longest nodes name node)
    (hLetters :
      new.Begins name →
      node.isStar = false ∧ new.prefixLen ≤ node.prefixLen)
    (hStars :
      node.isStar = true → new.isStar = false) :
    Longest (nodes ++ [new]) name node := by
  rcases hLongest with ⟨before, after, rfl, hBest⟩
  refine ⟨before, after ++ [new], by simp, ?_⟩
  rcases hBest with
    ⟨hBegins, hBefore, hAfter⟩ | ⟨hStar, hNone, hAfter⟩
  · refine Or.inl ⟨hBegins, hBefore, ?_⟩
    intro other hIn hOther
    rcases List.mem_append.mp hIn with hOld | hLast
    · exact hAfter other hOld hOther
    · rw [List.mem_singleton.mp hLast] at hOther ⊢
      exact (hLetters hOther).2
  · refine Or.inr ⟨hStar, ?_, ?_⟩
    · intro other hIn hOther
      rcases List.mem_append.mp hIn with hOld | hLast
      · exact hNone other hOld hOther
      · rw [List.mem_singleton.mp hLast] at hOther
        rw [(hLetters hOther).1] at hStar
        cases hStar
    · intro other hIn
      rcases List.mem_append.mp hIn with hOld | hLast
      · exact hAfter other hOld
      · rw [List.mem_singleton.mp hLast]
        exact hStars hStar

/- The nodes that begin a name are no longer than the found. -/
theorem Longest.prefixLen_le
    {nodes : List PrefixNode}
    {other : PrefixNode}
    (hLongest : Longest nodes name node)
    (hIn : other ∈ nodes)
    (hOther : other.Begins name) :
    node.isStar = false ∧
    other.prefixLen ≤ node.prefixLen := by
  rcases hLongest with ⟨before, after, rfl, hBest⟩
  rcases hBest with
    ⟨hBegins, hBefore, hAfter⟩ | ⟨_, hNone, _⟩
  · refine ⟨hBegins.1, ?_⟩
    rcases List.mem_append.mp hIn with hOld | hRest
    · exact (hBefore other hOld hOther).le
    · rcases List.mem_cons.mp hRest with rfl | hLater
      · exact Nat.le_refl _
      · exact hAfter other hLater hOther
  · exact absurd hOther (hNone other hIn)

/- The last node is the longest one if it is better. -/
theorem Longest.last
    {nodes : List PrefixNode}
    (hBest :
      (new.Begins name ∧
        ∀ other ∈ nodes,
          other.Begins name →
          other.prefixLen < new.prefixLen) ∨
      (new.isStar = true ∧
        ∀ other ∈ nodes, ¬ other.Begins name)) :
    Longest (nodes ++ [new]) name new := by
  refine ⟨nodes, [], rfl, ?_⟩
  rcases hBest with ⟨hBegins, hShorter⟩ | ⟨hStar, hNone⟩
  · exact Or.inl ⟨hBegins, hShorter, by simp⟩
  · refine Or.inr ⟨hStar, ?_, by simp⟩
    intro other hIn
    rcases List.mem_append.mp hIn with hOld | hLast
    · exact hNone other hOld
    · rw [List.mem_singleton.mp hLast]
      intro hBegins
      rw [hBegins.1] at hStar
      cases hStar

/- What is found among the nodes of the files. -/
def Found
    (nodes : List PrefixNode)
    (name : List Char) :
    Option PrefixNode → Prop
| none => ∀ node ∈ nodes, node.fits name = false
| some node => Longest nodes name node

theorem not_begins_of_not_fits
    (hSpelled : node.Spelled)
    (hFits : node.fits name = false) :
    node.isStar = false ∧ ¬ node.Begins name := by
  have hNot :
      ¬ (node.isStar = true ∨ node.Begins name) := by
    rw [← fits_iff hSpelled, hFits]
    simp
  rw [not_or] at hNot
  exact ⟨by simpa using hNot.1, hNot.2⟩

/- The better of what is found is what is found of all. -/
theorem Found.snoc
    {nodes : List PrefixNode}
    {found : Option PrefixNode}
    (hNew : new.Spelled)
    (hSpelled : ∀ node ∈ nodes, node.Spelled)
    (hFound : Found nodes name found) :
    Found (nodes ++ [new]) name (better name new found) := by
  rcases found with _ | node
  · have hNone : ∀ other ∈ nodes, ¬ other.Begins name :=
      fun other hIn =>
        (not_begins_of_not_fits (hSpelled other hIn)
          (hFound other hIn)).2
    cases hFits : new.fits name with
    | false =>
        rw [better, hFits]
        intro other hIn
        rcases List.mem_append.mp hIn with hOld | hLast
        · exact hFound other hOld
        · rw [List.mem_singleton.mp hLast]
          exact hFits
    | true =>
        rw [better, if_pos hFits]
        apply Longest.last
        rcases (fits_iff hNew).mp hFits with hStar | hBegins
        · exact Or.inr ⟨hStar, hNone⟩
        · refine Or.inl ⟨hBegins, ?_⟩
          intro other hIn hOther
          exact absurd hOther (hNone other hIn)
  · have hLongest : Longest nodes name node := hFound
    rw [better]
    split
    · rename_i hFits
      have hNot := not_begins_of_not_fits hNew hFits
      exact hLongest.snoc (fun hBegins =>
        absurd hBegins hNot.2) (fun _ => hNot.1)
    · rename_i hFits
      rw [Bool.not_eq_false, fits_iff hNew] at hFits
      split
      · rename_i hStar
        have hNone :
            ∀ other ∈ nodes, ¬ other.Begins name := by
          intro other hIn hOther
          have hLe := hLongest.prefixLen_le hIn hOther
          rw [hLe.1] at hStar
          cases hStar
        apply Longest.last
        rcases hFits with hNewStar | hBegins
        · exact Or.inr ⟨hNewStar, hNone⟩
        · refine Or.inl ⟨hBegins, ?_⟩
          intro other hIn hOther
          exact absurd hOther (hNone other hIn)
      · rename_i hLetter
        split
        · rename_i hNewStar
          refine hLongest.snoc ?_ (fun hStar =>
            absurd hStar hLetter)
          intro hBegins
          rw [hBegins.1] at hNewStar
          cases hNewStar
        · rename_i hNewLetter
          have hBegins :=
            hFits.resolve_left hNewLetter
          split
          · rename_i hShort
            exact hLongest.snoc (fun _ =>
              ⟨by simpa using hLetter, hShort⟩) (fun hStar =>
              absurd hStar hLetter)
          · rename_i hLong
            refine Longest.last (Or.inl ⟨hBegins, ?_⟩)
            intro other hIn hOther
            have hLe := hLongest.prefixLen_le hIn hOther
            omega

/- What holds of the lists after any nodes were added. -/
structure Filed
    (nodes : List PrefixNode)
    (split : ContextsSplit) :
    Prop where
  ordered : split.prefixes.Pairwise Follows
  mem :
    ∀ node, node ∈ split.prefixes ↔ node ∈ nodes
  found :
    ∀ name,
      Found nodes name
        (split.prefixes.find? (PrefixNode.fits name))
  contexts :
    ∀ context,
      context ∈ split.contexts ↔
        ∃ node ∈ nodes, node.context = context
  nodup : split.contexts.Nodup

theorem Filed.addNode
    {nodes : List PrefixNode}
    {split : ContextsSplit}
    (hFiled : Filed nodes split)
    (hAlone : new.StarAlone)
    (hNew : new.Spelled)
    (hSpelled : ∀ node ∈ nodes, node.Spelled) :
    Filed (nodes ++ [new]) (split.addNode new) := by
  have hPrefixes :
      ∀ node ∈ split.prefixes, node.Spelled :=
    fun node hIn =>
      hSpelled node ((hFiled.mem node).mp hIn)
  refine ⟨?_, ?_, ?_, ?_, ?_⟩
  · exact listAddAfterLen_ordered hAlone hPrefixes
      hFiled.ordered
  · intro node
    rw [ContextsSplit.addNode, mem_listAddAfterLen,
      hFiled.mem, List.mem_append, List.mem_singleton]
    exact or_comm
  · intro name
    rw [ContextsSplit.addNode,
      find?_listAddAfterLen hAlone hPrefixes hFiled.ordered]
    exact (hFiled.found name).snoc hNew hSpelled
  · intro context
    have hOld := hFiled.contexts context
    rw [ContextsSplit.addNode]
    split
    · rename_i hKnown
      rw [hOld]
      constructor
      · rintro ⟨node, hIn, hContext⟩
        exact ⟨node, List.mem_append_left [new] hIn,
          hContext⟩
      · rintro ⟨node, hIn, rfl⟩
        rcases List.mem_append.mp hIn with hThere | hLast
        · exact ⟨node, hThere, rfl⟩
        · rw [List.mem_singleton.mp hLast]
          exact (hFiled.contexts new.context).mp hKnown
    · rw [List.mem_cons, hOld]
      constructor
      · rintro (rfl | ⟨node, hIn, hContext⟩)
        · exact ⟨new, by simp, rfl⟩
        · exact ⟨node, List.mem_append_left [new] hIn,
            hContext⟩
      · rintro ⟨node, hIn, rfl⟩
        rcases List.mem_append.mp hIn with hThere | hLast
        · exact Or.inr ⟨node, hThere, rfl⟩
        · rw [List.mem_singleton.mp hLast]
          exact Or.inl rfl
  · rw [ContextsSplit.addNode]
    split
    · exact hFiled.nodup
    · rename_i hUnknown
      exact List.nodup_cons.mpr ⟨hUnknown, hFiled.nodup⟩

/- The order of the nodes in the files is that of the adds. -/
theorem filed_foldl
    {nodes more : List PrefixNode}
    {split : ContextsSplit}
    (hFiled : Filed nodes split)
    (hAlone : ∀ node ∈ more, node.StarAlone)
    (hMore : ∀ node ∈ more, node.Spelled)
    (hSpelled : ∀ node ∈ nodes, node.Spelled) :
    Filed (nodes ++ more)
      (more.foldl ContextsSplit.addNode split) := by
  induction more generalizing nodes split with
  | nil => simpa using hFiled
  | cons new more ih =>
      rw [List.forall_mem_cons] at hAlone hMore
      have hStep :=
        hFiled.addNode hAlone.1 hMore.1 hSpelled
      have hRest :=
        ih hStep hAlone.2 hMore.2 (by
          intro node hIn
          rcases List.mem_append.mp hIn with hOld | hLast
          · exact hSpelled node hOld
          · rw [List.mem_singleton.mp hLast]
            exact hMore.1)
      rw [List.append_assoc, List.singleton_append] at hRest
      exact hRest

theorem filed_empty :
    Filed [] ⟨[], []⟩ := by
  refine ⟨List.Pairwise.nil, ?_, ?_, ?_, List.nodup_nil⟩
  · intro node
    rfl
  · intro name node hIn
    cases hIn
  · intro context
    simp

end Resetprop

end Universal7420

------------------------------------------------------------
-- Lines And Files
------------------------------------------------------------

namespace Universal7420

namespace Resetprop

open CText

variable {name : List Char}
variable {node : PrefixNode}

/- A character of a line that can be part of a word. -/
def inWord (c : Char) : Bool :=
  !isSpace c && c != '\x00'

/- What every word of a line is. -/
def IsWord (word : List Char) : Prop :=
  word ≠ [] ∧ ∀ c ∈ word, inWord c = true

theorem readSpecEntry_isWord
    {text : List Char}
    (hText : '\x00' ∉ text)
    (hWord : (readSpecEntry text).1 ≠ []) :
    IsWord (readSpecEntry text).1 := by
  refine ⟨hWord, ?_⟩
  intro c hIn
  have hLetter := List.mem_takeWhile_imp hIn
  have hThere : c ∈ text :=
    (List.dropWhile_sublist _).subset
      ((List.takeWhile_sublist _).subset hIn)
  rw [inWord, hLetter, Bool.true_and, bne_iff_ne]
  rintro rfl
  exact hText hThere

theorem null_not_mem_readSpecEntry
    {text : List Char}
    (hText : '\x00' ∉ text) :
    '\x00' ∉ (readSpecEntry text).2 := by
  intro hIn
  exact hText ((List.dropWhile_sublist _).subset
    ((List.dropWhile_sublist _).subset hIn))

/- The entries are words. -/
theorem specWords_isWord
    {numArgs fuel : Nat}
    {items : List (List Char)}
    {text : List Char}
    (hItems : ∀ item ∈ items, IsWord item)
    (hText : '\x00' ∉ text) :
    ∀ item ∈ specWords numArgs fuel items text,
      IsWord item := by
  induction fuel generalizing items text with
  | zero => exact hItems
  | succ fuel ih =>
      have hRest := null_not_mem_readSpecEntry hText
      rw [specWords]
      split
      · exact hItems
      · split
        · exact hItems
        · dsimp only
          split
          · exact ih hItems hRest
          · rename_i hWord
            refine ih ?_ hRest
            intro item hIn
            rcases List.mem_append.mp hIn with hOld | hLast
            · exact hItems item hOld
            · rw [List.mem_singleton.mp hLast]
              exact readSpecEntry_isWord hText hWord

theorem null_not_mem_specText
    {line : List Char} :
    '\x00' ∉ specText line := by
  intro hText
  have hLine :
      '\x00' ∈ line.takeWhile fun c => c != '\x00' := by
    rw [specText] at hText
    split at hText
    · exact List.mem_of_mem_dropLast hText
    · exact hText
  have hNot := List.mem_takeWhile_imp hLine
  simp at hNot

theorem readSpecEntries_isWord
    {numArgs : Nat}
    {line : List Char} :
    ∀ item ∈ readSpecEntries numArgs line,
      IsWord item := by
  rw [readSpecEntries]
  split
  · intro item hIn
    cases hIn
  · apply specWords_isWord
    · intro item hIn
      cases hIn
    · intro hNull
      exact null_not_mem_specText
        ((List.dropWhile_sublist _).subset hNull)

theorem specLine_isWord
    {line : List Char}
    (hLine : specLine line = some node) :
    IsWord node.prefixText ∧ IsWord node.context := by
  rw [specLine] at hLine
  split at hLine
  · rename_i prefixText context hEntries
    have hWords := @readSpecEntries_isWord 2 line
    rw [hEntries] at hWords
    split at hLine
    · cases hLine
    · cases hLine
      exact ⟨hWords prefixText (by simp),
        hWords context (by simp)⟩
  · cases hLine

theorem spelled_of_mem
    {lines : List (List Char)}
    (hIn : node ∈ lines.filterMap specLine) :
    node.Spelled := by
  rcases List.mem_filterMap.mp hIn with ⟨line, _, hLine⟩
  have hWord := (specLine_isWord hLine).1
  refine ⟨hWord.1, ?_⟩
  intro hNull
  have hInWord := hWord.2 '\x00' hNull
  simp [inWord] at hInWord

/- The lines of the platform, then those of the vendor. -/
def platAndVendorLines
    (files : ContextFiles)
    (plat vendor nonplat : String) :
    Option (List (List Char)) :=
  (files plat).map fun lines =>
    lines ++ ((files vendor).or (files nonplat)).getD []

/- The lines that `InitializeProperties` reads. -/
def contextLines
    (files : ContextFiles) :
    Option (List (List Char)) :=
  (files "/property_contexts").or
    ((platAndVendorLines files
      "/system/etc/selinux/plat_property_contexts"
      "/vendor/etc/selinux/vendor_property_contexts"
      "/vendor/etc/selinux/nonplat_property_contexts").or
    (platAndVendorLines files
      "/plat_property_contexts"
      "/vendor_property_contexts"
      "/nonplat_property_contexts"))

theorem initializePropertiesFromFile_append
    {split : ContextsSplit}
    {lines more : List (List Char)} :
    (split.initializePropertiesFromFile
        lines).initializePropertiesFromFile more =
      split.initializePropertiesFromFile (lines ++ more) := by
  unfold ContextsSplit.initializePropertiesFromFile
  rw [List.filterMap_append, List.foldl_append]

theorem initializePlatAndVendor_eq
    {files : ContextFiles}
    {plat vendor nonplat : String} :
    initializePlatAndVendor files plat vendor nonplat =
      (platAndVendorLines files plat vendor nonplat).elim
        (false, ⟨[], []⟩)
        fun lines =>
          ( true
          , ContextsSplit.initializePropertiesFromFile
              ⟨[], []⟩ lines ) := by
  rw [initializePlatAndVendor, platAndVendorLines]
  rcases files plat with _ | lines
  · rfl
  · rcases (files vendor).or (files nonplat) with _ | more
    · simp
    · simp [initializePropertiesFromFile_append]

/- All files together are one file. -/
theorem initializeProperties_eq
    {files : ContextFiles} :
    initializeProperties files =
      (contextLines files).elim (false, ⟨[], []⟩)
        fun lines =>
          ( true
          , ContextsSplit.initializePropertiesFromFile
              ⟨[], []⟩ lines ) := by
  rw [initializeProperties, contextLines]
  rcases files "/property_contexts" with _ | lines
  · dsimp only
    rw [initializePlatAndVendor_eq,
      initializePlatAndVendor_eq, Option.none_or]
    rcases hSystem :
        files "/system/etc/selinux/plat_property_contexts"
        with _ | lines
    · have hNone :
          ∀ vendor nonplat,
            platAndVendorLines files
              "/system/etc/selinux/plat_property_contexts"
              vendor nonplat = none := by
        intro vendor nonplat
        rw [platAndVendorLines, hSystem, Option.map_none]
      rw [hNone, Option.none_or]
      rfl
    · have hSome :
          ∀ vendor nonplat,
            ∃ all,
              platAndVendorLines files
                "/system/etc/selinux/plat_property_contexts"
                vendor nonplat = some all := by
        intro vendor nonplat
        rw [platAndVendorLines, hSystem, Option.map_some]
        exact ⟨_, rfl⟩
      rcases hSome
          "/vendor/etc/selinux/vendor_property_contexts"
          "/vendor/etc/selinux/nonplat_property_contexts"
          with ⟨all, hAll⟩
      rw [hAll, Option.some_or]
      rfl
  · rfl

/-
  A name belongs to the context of the longest prefix that
  begins it, in whatever order and files the prefixes stand,
  and every context has one area.
-/
theorem getPropAreaForName_longest
    {files : ContextFiles}
    {split : ContextsSplit}
    {lines : List (List Char)}
    (hLines : contextLines files = some lines)
    (hAlone :
      ∀ node ∈ lines.filterMap specLine, node.StarAlone)
    (hInit : initializeProperties files = (true, split)) :
    (∀ name context,
      split.getPropAreaForName name = some context →
      ∃ node,
        Longest (lines.filterMap specLine) name node ∧
        node.context = context) ∧
    (∀ name,
      split.getPropAreaForName name = none ↔
        ∀ node ∈ lines.filterMap specLine,
          node.isStar = false ∧ ¬ node.Begins name) ∧
    split.contexts.Nodup ∧
    (∀ context,
      context ∈ split.contexts ↔
        ∃ node ∈ lines.filterMap specLine,
          node.context = context) := by
  have hSpelled :
      ∀ node ∈ lines.filterMap specLine, node.Spelled :=
    fun node hIn => spelled_of_mem hIn
  have hSplit :
      split =
        ContextsSplit.initializePropertiesFromFile
          ⟨[], []⟩ lines := by
    rw [initializeProperties_eq, hLines] at hInit
    exact (congrArg Prod.snd hInit).symm
  have hFiled : Filed (lines.filterMap specLine) split := by
    rw [hSplit]
    exact filed_foldl filed_empty hAlone hSpelled (by simp)
  refine ⟨?_, ?_, hFiled.nodup, hFiled.contexts⟩
  · intro name context hArea
    have hFound := hFiled.found name
    rcases Option.map_eq_some_iff.mp hArea with
      ⟨node, hNode, hContext⟩
    rw [hNode] at hFound
    exact ⟨node, hFound, hContext⟩
  · intro name
    have hFound := hFiled.found name
    rw [ContextsSplit.getPropAreaForName,
      Option.map_eq_none_iff]
    constructor
    · intro hNone node hIn
      rw [hNone] at hFound
      exact not_begins_of_not_fits (hSpelled node hIn)
        (hFound node hIn)
    · intro hNot
      rw [List.find?_eq_none]
      intro node hIn hFits
      have hNode := (hFiled.mem node).mp hIn
      rcases (fits_iff (hSpelled node hNode)).mp hFits with
        hStar | hBegins
      · rw [(hNot node hNode).1] at hStar
        cases hStar
      · exact (hNot node hNode).2 hBegins

/- A star before a prefix in the file. -/
theorem getPropAreaForName_longest_of_two :
    ∃ node,
      Longest
        [⟨['*'], ['d']⟩, ⟨['r', 'o', '.'], ['b']⟩]
        ['r', 'o', '.', 'x'] node ∧
      node.context = ['b'] := by
  have hAll :=
    @getPropAreaForName_longest
      (fun _ => some
        [['*', ' ', 'd', '\n'],
          ['r', 'o', '.', '\t', 'b', ' ', 'e']])
      ⟨[⟨['r', 'o', '.'], ['b']⟩, ⟨['*'], ['d']⟩],
        [['b'], ['d']]⟩
      [['*', ' ', 'd', '\n'],
        ['r', 'o', '.', '\t', 'b', ' ', 'e']]
      (by rfl)
      (by
        intro node hIn
        have hTwo :
            node ∈
              [ PrefixNode.mk ['*'] ['d']
              , PrefixNode.mk ['r', 'o', '.'] ['b'] ] := hIn
        rw [List.mem_cons, List.mem_singleton] at hTwo
        rcases hTwo with rfl | rfl
        · exact fun _ => rfl
        · intro hStar
          cases hStar)
      (by rfl)
  exact hAll.1 ['r', 'o', '.', 'x'] ['b'] (by rfl)

end Resetprop

end Universal7420
