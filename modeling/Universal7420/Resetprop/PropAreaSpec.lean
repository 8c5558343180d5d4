import Universal7420.Resetprop.PropArea

/-
  The invariant of the property area.

  The nodes of an area form one linked trie, and the parts of
  a name are the path to its node.  `Sound` says so, together
  with the bounds of all objects and with what the pointers to
  properties lead to.  Every operation keeps it, and what each
  operation does is said by the properties that the paths lead
  to before and after it.

  Main declarations:
    * `Universal7420.Resetprop.PropArea.Sound`
    * `Universal7420.Resetprop.PropArea.PropAt`
    * `Universal7420.Resetprop.PropArea.Grown`
    * `Universal7420.Resetprop.PropArea.findPropBt_spec`
    * `Universal7420.Resetprop.PropArea.findPropBt_alloc_spec`
    * `Universal7420.Resetprop.PropArea.Sound.setProp_propAt`
-/

------------------------------------------------------------
-- Names
------------------------------------------------------------

namespace Universal7420

namespace Resetprop

theorem strncmp_length_eq_zero_iff
    {one two : List Char}
    (hLength : one.length = two.length) :
    CText.strncmp one.length one two = 0 ↔ one = two := by
  induction one generalizing two with
  | nil =>
      have hNil : two = [] :=
        List.length_eq_zero_iff.mp hLength.symm
      simp [CText.strncmp, hNil]
  | cons c one ih =>
      rcases two with _ | ⟨d, two⟩
      · simp at hLength
      · have hRest : one.length = two.length := by
          simpa using hLength
        by_cases hSame : c = d
        · simp [CText.strncmp, hSame, ih hRest]
        · have hDiffer : c.toNat ≠ d.toNat := by
            intro hEq
            exact hSame (Char.toNat_inj.mp hEq)
          simp only [List.length_cons, CText.strncmp,
            List.cons.injEq, hSame, false_and, if_false,
            iff_false]
          omega

/- Equal names are those that compare as equal. -/
theorem cmpPropName_eq_zero_iff
    (one two : List Char) :
    cmpPropName one two = 0 ↔ one = two := by
  unfold cmpPropName
  split
  · rename_i hLess
    simp only [reduceCtorEq, false_iff]
    rintro rfl
    omega
  · split
    · rename_i hMore
      have hOne : (1 : Int) ≠ 0 := by omega
      simp only [hOne, false_iff]
      rintro rfl
      omega
    · exact strncmp_length_eq_zero_iff (by omega)

/- The parts between the separators. -/
def nameParts (name : List Char) : List (List Char) :=
  name.splitOn '.'

/- No part of the name is empty. -/
def Splits (name : List Char) : Prop :=
  [] ∉ nameParts name

theorem nameParts_injective
    {name name' : List Char}
    (hParts : nameParts name = nameParts name') :
    name = name' := by
  have hJoin :
      ['.'].intercalate (nameParts name) =
        ['.'].intercalate (nameParts name') := by
    rw [hParts]
  unfold nameParts at hJoin
  rw [List.intercalate_splitOn, List.intercalate_splitOn]
    at hJoin
  exact hJoin

/- The loop takes the parts one by one. -/
theorem nameParts_eq
    (name : List Char) :
    nameParts name =
      (PropArea.nextPart name).1 ::
        (PropArea.nextPart name).2.elim [] nameParts := by
  unfold PropArea.nextPart nameParts
  cases hSep : CText.strchr '.' name with
  | none =>
      rw [CText.strchr_eq_none_iff] at hSep
      simp [List.splitOn_eq_singleton hSep]
  | some parts =>
      rcases parts with ⟨part, rest⟩
      rw [CText.strchr_eq_some_iff] at hSep
      rcases hSep with ⟨rfl, hNone⟩
      simp [List.splitOn_append_cons_self_of_not_mem hNone]

theorem nextPart_length
    {name rest : List Char}
    (hRest : (PropArea.nextPart name).2 = some rest) :
    rest.length < name.length := by
  unfold PropArea.nextPart at hRest
  cases hSep : CText.strchr '.' name with
  | none => simp [hSep] at hRest
  | some parts =>
      rcases parts with ⟨part, rest'⟩
      simp only [hSep, Option.some.injEq] at hRest
      rw [CText.strchr_eq_some_iff] at hSep
      rcases hSep with ⟨rfl, _⟩
      subst hRest
      simp
      omega

end Resetprop

end Universal7420

------------------------------------------------------------
-- The Trie Of An Area
------------------------------------------------------------

namespace Universal7420

namespace Resetprop

open LinkedTrie

/- What a node is in the trie. -/
def PropBt.cell (bt : PropBt) : Cell (List Char) Nat :=
  ⟨bt.name, bt.prop, bt.link⟩

/- The bytes of an object.  Only the root has no name. -/
def Obj.size : Obj → Nat
| .bt node =>
    if node.name = [] then
      sizeofPropBt
    else
      sizeofPropBt + node.name.length + 1
| .info prop => sizeofPropInfo + prop.name.length + 1
| .text chars => chars.length + 1

namespace PropArea

def cells (pa : PropArea) : Cells (List Char) Nat :=
  fun a => (pa.btAt a).map PropBt.cell

/- A pointer to a property leads to it, and to its text. -/
def LeadsTo
    (pa : PropArea)
    (off : Nat)
    (path : List (List Char)) :
    Prop :=
  ∃ info,
    pa.data off = some (.info info) ∧
    nameParts info.name = path ∧
    Splits info.name ∧
    (info.isLong = true →
      ∃ text,
        pa.data (off + info.offset) = some (.text text))

/-
  The nodes are one trie, the objects lie one after another
  in the used part of the block, and every property is where
  its node points to.
-/
structure Sound
    (pa : PropArea)
    (home : Nat → List (List Char)) :
    Prop where
  linked :
    WellLinked cmpPropName pa.cells home pa.bytesUsed
  within : pa.bytesUsed ≤ pa.dataSize
  used :
    ∀ off obj,
      pa.data off = some obj →
      off + obj.size ≤ pa.bytesUsed
  apart :
    ∀ off obj off' obj',
      pa.data off = some obj →
      pa.data off' = some obj' →
      off < off' →
      off + obj.size ≤ off'
  props :
    ∀ a bt,
      pa.btAt a = some bt →
      bt.prop ≠ 0 →
      pa.LeadsTo bt.prop (pathOf home a bt.name)

/- A path leads to a node with a property. -/
def PropAt
    (pa : PropArea)
    (path : List (List Char))
    (off : Nat) :
    Prop :=
  ∃ x bt,
    Walk cmpPropName pa.cells 0 path x ∧
    pa.btAt x = some bt ∧
    bt.prop = off ∧
    off ≠ 0

/-
  Nodes were added, and nothing else: no property was changed
  or got another path.
-/
structure Grown (pa pa' : PropArea) : Prop where
  serial : pa'.serial = pa.serial
  dataSize : pa'.dataSize = pa.dataSize
  bytesUsed : pa.bytesUsed ≤ pa'.bytesUsed
  walk :
    ∀ path x,
      Walk cmpPropName pa.cells 0 path x →
      Walk cmpPropName pa'.cells 0 path x
  propAt :
    ∀ path off,
      pa'.PropAt path off ↔ pa.PropAt path off
  info :
    ∀ off info,
      pa'.data off = some (.info info) ↔
        pa.data off = some (.info info)
  text :
    ∀ off text,
      pa'.data off = some (.text text) ↔
        pa.data off = some (.text text)

theorem Grown.refl (pa : PropArea) : Grown pa pa where
  serial := rfl
  dataSize := rfl
  bytesUsed := Nat.le_refl _
  walk := fun _ _ hWalk => hWalk
  propAt := fun _ _ => Iff.rfl
  info := fun _ _ => Iff.rfl
  text := fun _ _ => Iff.rfl

theorem Grown.trans
    {pa pa' pa'' : PropArea}
    (h : Grown pa pa')
    (h' : Grown pa' pa'') :
    Grown pa pa'' where
  serial := h'.serial.trans h.serial
  dataSize := h'.dataSize.trans h.dataSize
  bytesUsed := Nat.le_trans h.bytesUsed h'.bytesUsed
  walk := fun path x hWalk =>
    h'.walk path x (h.walk path x hWalk)
  propAt := fun path off =>
    (h'.propAt path off).trans (h.propAt path off)
  info := fun off info =>
    (h'.info off info).trans (h.info off info)
  text := fun off text =>
    (h'.text off text).trans (h.text off text)

end PropArea

end Resetprop

end Universal7420

------------------------------------------------------------
-- Reading And Writing
------------------------------------------------------------

namespace Universal7420

namespace Resetprop

open LinkedTrie

namespace PropArea

theorem btAt_eq_some_iff
    {pa : PropArea}
    {a : Nat}
    {bt : PropBt} :
    pa.btAt a = some bt ↔ pa.data a = some (.bt bt) := by
  unfold btAt
  split
  · rename_i bt' hData
    simp [hData]
  · rename_i hOther
    constructor
    · intro hNone
      cases hNone
    · intro hData
      exact absurd hData (hOther bt)

theorem infoAt_eq_some_iff
    {pa : PropArea}
    {a : Nat}
    {info : PropInfo} :
    pa.infoAt a = some info ↔
      pa.data a = some (.info info) := by
  unfold infoAt
  split
  · rename_i info' hData
    simp [hData]
  · rename_i hOther
    constructor
    · intro hNone
      cases hNone
    · intro hData
      exact absurd hData (hOther info)

theorem cells_eq_some_iff
    {pa : PropArea}
    {a : Nat}
    {c : Cell (List Char) Nat} :
    pa.cells a = some c ↔
      ∃ bt, pa.btAt a = some bt ∧ bt.cell = c := by
  simp [cells]

theorem cell_of_btAt
    {pa : PropArea}
    {a : Nat}
    {bt : PropBt}
    (hBt : pa.btAt a = some bt) :
    pa.cells a = some bt.cell := by
  simp [cells, hBt]

@[simp] theorem put_data
    (pa : PropArea)
    (off : Nat)
    (obj : Obj)
    (a : Nat) :
    (pa.put off obj).data a =
      if a = off then some obj else pa.data a :=
  rfl

@[simp] theorem put_bytesUsed
    (pa : PropArea)
    (off : Nat)
    (obj : Obj) :
    (pa.put off obj).bytesUsed = pa.bytesUsed :=
  rfl

@[simp] theorem put_dataSize
    (pa : PropArea)
    (off : Nat)
    (obj : Obj) :
    (pa.put off obj).dataSize = pa.dataSize :=
  rfl

@[simp] theorem put_serial
    (pa : PropArea)
    (off : Nat)
    (obj : Obj) :
    (pa.put off obj).serial = pa.serial :=
  rfl

theorem btAt_put_bt
    (pa : PropArea)
    (off : Nat)
    (bt : PropBt)
    (a : Nat) :
    (pa.put off (.bt bt)).btAt a =
      if a = off then some bt else pa.btAt a := by
  by_cases hAt : a = off
  · simp [btAt, hAt]
  · simp [btAt, hAt]

theorem setLink_cell
    (bt : PropBt)
    (l : Link)
    (off : Nat) :
    (bt.setLink l off).cell = bt.cell.setLink l off := by
  unfold PropBt.cell Cell.setLink
  cases l with
  | left =>
      congr 1
      funext m
      cases m with
      | left => rfl
      | right => rfl
      | down => rfl
  | right =>
      congr 1
      funext m
      cases m with
      | left => rfl
      | right => rfl
      | down => rfl
  | down =>
      congr 1
      funext m
      cases m with
      | left => rfl
      | right => rfl
      | down => rfl

theorem toPropObj_eq_some
    {pa : PropArea}
    {off : Nat}
    (hOff : off ≤ pa.dataSize) :
    pa.toPropObj off = some off := by
  unfold toPropObj
  rw [if_neg (by omega)]

theorem Sound.root_bt
    {pa : PropArea}
    {home : Nat → List (List Char)}
    (hSound : pa.Sound home) :
    ∃ bt, pa.btAt 0 = some bt := by
  rcases hSound.linked.root with ⟨c, hCell, _, _⟩
  rcases cells_eq_some_iff.mp hCell with ⟨bt, hBt, _⟩
  exact ⟨bt, hBt⟩

theorem size_positive (obj : Obj) : 0 < obj.size := by
  cases obj with
  | bt node =>
      by_cases hRoot : node.name = []
      · simp [Obj.size, hRoot, sizeofPropBt]
      · simp [Obj.size, hRoot]
  | info prop => simp [Obj.size]
  | text chars => simp [Obj.size]

/- Nothing lies in the part that is not used. -/
theorem Sound.data_fresh
    {pa : PropArea}
    {home : Nat → List (List Char)}
    (hSound : pa.Sound home)
    {off : Nat}
    (hOff : pa.bytesUsed ≤ off) :
    pa.data off = none := by
  cases hData : pa.data off with
  | none => rfl
  | some obj =>
      have hUsed := hSound.used off obj hData
      have hSize := size_positive obj
      omega

end PropArea

end Resetprop

end Universal7420

------------------------------------------------------------
-- A New Node
------------------------------------------------------------

namespace Universal7420

namespace Resetprop

open LinkedTrie

namespace PropArea

/- The room that a node takes. -/
def nodeRoom (part : List Char) : Nat :=
  align (sizeofPropBt + part.length + 1)

theorem le_align (size : Nat) : size ≤ align size := by
  unfold align
  omega

/- The area with a new node that a link leads to. -/
def withNode
    (pa : PropArea)
    (e : Nat)
    (bt : PropBt)
    (l : Link)
    (part : List Char) :
    PropArea :=
  { pa with
    bytesUsed := pa.bytesUsed + nodeRoom part
    data := fun a =>
      if a = e then
        some (.bt (bt.setLink l pa.bytesUsed))
      else if a = pa.bytesUsed then
        some (.bt (PropBt.new part))
      else
        pa.data a }

theorem newPropBt_eq
    (pa : PropArea)
    (part : List Char) :
    pa.newPropBt part =
      if pa.dataSize < pa.bytesUsed + nodeRoom part then
        (none, pa)
      else
        ( some pa.bytesUsed
        , { pa with
            bytesUsed := pa.bytesUsed + nodeRoom part }.put
              pa.bytesUsed (.bt (PropBt.new part)) ) := by
  unfold newPropBt allocateObj nodeRoom
  by_cases hRoom :
      pa.dataSize <
        pa.bytesUsed +
          align (sizeofPropBt + part.length + 1)
  · rw [if_pos hRoom, if_pos hRoom]
  · rw [if_neg hRoom, if_neg hRoom]

theorem newLinked_eq
    {pa : PropArea}
    {e : Nat}
    {bt : PropBt}
    (hBt : pa.btAt e = some bt)
    (hOld : e ≠ pa.bytesUsed)
    (l : Link)
    (part : List Char) :
    pa.newLinked e l part =
      if pa.dataSize < pa.bytesUsed + nodeRoom part then
        (none, pa)
      else
        (some pa.bytesUsed, pa.withNode e bt l part) := by
  unfold newLinked
  rw [newPropBt_eq]
  by_cases hRoom :
      pa.dataSize < pa.bytesUsed + nodeRoom part
  · rw [if_pos hRoom, if_pos hRoom]
  · rw [if_neg hRoom, if_neg hRoom]
    have hSame :
        btAt
          { pa with
            bytesUsed := pa.bytesUsed + nodeRoom part }
          e = some bt :=
      hBt
    simp only [setLink, btAt_put_bt, if_neg hOld, hSame]
    rfl

theorem withNode_btAt
    (pa : PropArea)
    (e : Nat)
    (bt : PropBt)
    (l : Link)
    (part : List Char)
    (a : Nat) :
    (pa.withNode e bt l part).btAt a =
      if a = e then
        some (bt.setLink l pa.bytesUsed)
      else if a = pa.bytesUsed then
        some (PropBt.new part)
      else
        pa.btAt a := by
  by_cases hAt : a = e
  · simp [btAt, withNode, hAt]
  · by_cases hNew : a = pa.bytesUsed
    · have hNe : pa.bytesUsed ≠ e := by
        rw [← hNew]
        exact hAt
      simp [btAt, withNode, hNew, hNe]
    · simp [btAt, withNode, hAt, hNew]

theorem new_cell
    (part : List Char) :
    (PropBt.new part).cell = bare part 0 := by
  unfold PropBt.cell bare
  congr 1
  funext m
  cases m with
  | left => rfl
  | right => rfl
  | down => rfl

variable {pa : PropArea}
variable {home : Nat → List (List Char)}

/- In the trie, the new node is a cell that is attached. -/
theorem withNode_cells
    {e : Nat}
    {bt : PropBt}
    (hBt : pa.btAt e = some bt)
    (hOld : e ≠ pa.bytesUsed)
    (l : Link)
    (part : List Char) :
    (pa.withNode e bt l part).cells =
      attach pa.cells e l pa.bytesUsed part 0 := by
  funext a
  unfold cells attach
  rw [withNode_btAt]
  by_cases hAt : a = e
  · subst hAt
    rw [if_pos rfl, if_neg hOld, if_pos rfl]
    simp [hBt, setLink_cell]
  · rw [if_neg hAt, if_neg hAt]
    by_cases hNew : a = pa.bytesUsed
    · rw [if_pos hNew, if_pos hNew, Option.map_some,
        new_cell]
    · rw [if_neg hNew, if_neg hNew]

/- A node that is there is older than the used part ends. -/
theorem Sound.bt_old
    (hSound : pa.Sound home)
    {a : Nat}
    {bt : PropBt}
    (hBt : pa.btAt a = some bt) :
    a < pa.bytesUsed :=
  hSound.linked.bounded a bt.cell (cell_of_btAt hBt)

@[simp] theorem setLink_prop
    (bt : PropBt)
    (l : Link)
    (off : Nat) :
    (bt.setLink l off).prop = bt.prop := by
  cases l with
  | left => rfl
  | right => rfl
  | down => rfl

@[simp] theorem setLink_name
    (bt : PropBt)
    (l : Link)
    (off : Nat) :
    (bt.setLink l off).name = bt.name := by
  cases l with
  | left => rfl
  | right => rfl
  | down => rfl

/- The node of an old offset differs in its links only. -/
theorem withNode_btAt_old
    {e a : Nat}
    {bt bt' : PropBt}
    {l : Link}
    {part : List Char}
    (hBt : pa.btAt e = some bt)
    (hOld : a ≠ pa.bytesUsed)
    (hNode : (pa.withNode e bt l part).btAt a = some bt') :
    ∃ node,
      pa.btAt a = some node ∧
      bt'.prop = node.prop ∧
      bt'.name = node.name := by
  rw [withNode_btAt] at hNode
  split at hNode
  · rename_i hAt
    subst hAt
    cases hNode
    exact ⟨bt, hBt, by simp, by simp⟩
  · exact ⟨bt', hNode, rfl, rfl⟩

theorem withNode_btAt_keeps
    {e a : Nat}
    {bt node : PropBt}
    (l : Link)
    (part : List Char)
    (hBt : pa.btAt e = some bt)
    (hOld : a ≠ pa.bytesUsed)
    (hNode : pa.btAt a = some node) :
    ∃ bt',
      (pa.withNode e bt l part).btAt a = some bt' ∧
      bt'.prop = node.prop := by
  rw [withNode_btAt]
  by_cases hAt : a = e
  · subst hAt
    rw [hBt] at hNode
    cases hNode
    rw [if_pos rfl]
    exact ⟨_, rfl, by simp⟩
  · rw [if_neg hAt, if_neg hOld]
    exact ⟨node, hNode, rfl⟩

/- Every object was there with its size, or it is the node. -/
theorem withNode_data_cases
    {e off : Nat}
    {bt : PropBt}
    {l : Link}
    {part : List Char}
    {obj : Obj}
    (hBt : pa.btAt e = some bt)
    (hPart : part ≠ [])
    (hData :
      (pa.withNode e bt l part).data off = some obj) :
    (off = pa.bytesUsed ∧ obj.size ≤ nodeRoom part) ∨
    ∃ obj',
      pa.data off = some obj' ∧ obj'.size = obj.size := by
  unfold withNode at hData
  dsimp only at hData
  split at hData
  · rename_i hAt
    subst hAt
    cases hData
    rw [btAt_eq_some_iff] at hBt
    exact Or.inr ⟨.bt bt, hBt, by simp [Obj.size]⟩
  · split at hData
    · rename_i hNew
      cases hData
      left
      refine ⟨hNew, ?_⟩
      have hRoom :=
        le_align (sizeofPropBt + part.length + 1)
      simpa [Obj.size, PropBt.new, hPart, nodeRoom]
        using hRoom
    · exact Or.inr ⟨obj, hData, rfl⟩

/- Properties and texts are not written. -/
theorem withNode_data_iff
    {e : Nat}
    {bt : PropBt}
    {l : Link}
    {part : List Char}
    {obj : Obj}
    (hBt : pa.btAt e = some bt)
    (hFresh : pa.data pa.bytesUsed = none)
    (hObj : ∀ node, obj ≠ .bt node)
    (off : Nat) :
    (pa.withNode e bt l part).data off = some obj ↔
      pa.data off = some obj := by
  unfold withNode
  dsimp only
  split
  · rename_i hAt
    subst hAt
    rw [btAt_eq_some_iff] at hBt
    rw [hBt]
    simp [Ne.symm (hObj _)]
  · split
    · rename_i hNew
      subst hNew
      simp [hFresh, Ne.symm (hObj _)]
    · exact Iff.rfl

theorem LeadsTo.mono
    {pa' : PropArea}
    {off : Nat}
    {path : List (List Char)}
    (hInfo :
      ∀ info,
        pa.data off = some (.info info) →
        pa'.data off = some (.info info))
    (hText :
      ∀ a text,
        pa.data a = some (.text text) →
        pa'.data a = some (.text text))
    (hLeads : pa.LeadsTo off path) :
    pa'.LeadsTo off path := by
  rcases hLeads with ⟨info, hData, hName, hSplits, hLong⟩
  refine ⟨info, hInfo info hData, hName, hSplits, ?_⟩
  intro hFlag
  rcases hLong hFlag with ⟨text, hThere⟩
  exact ⟨text, hText _ text hThere⟩

/- A node that is missing on a path may be added. -/
theorem Sound.withNode
    (hSound : pa.Sound home)
    {e : Nat}
    {bt : PropBt}
    {l : Link}
    {path : List (List Char)}
    {part : List Char}
    (hBt : pa.btAt e = some bt)
    (hPart : part ≠ [])
    (hRoom : pa.bytesUsed + nodeRoom part ≤ pa.dataSize)
    (hFalls :
      FallsOff cmpPropName pa.cells 0 (path ++ [part]) e l
        [part]) :
    (pa.withNode e bt l part).Sound
      (Function.update home pa.bytesUsed path) := by
  have hOld : e ≠ pa.bytesUsed :=
    Nat.ne_of_lt (hSound.bt_old hBt)
  have hFresh : pa.data pa.bytesUsed = none :=
    hSound.data_fresh (Nat.le_refl _)
  have hTakes : 0 < nodeRoom part := by
    unfold nodeRoom align
    omega
  refine
    { linked := ?_
      within := hRoom
      used := ?_
      apart := ?_
      props := ?_ }
  · rw [withNode_cells hBt hOld]
    exact
      hSound.linked.attach cmpPropName_eq_zero_iff
        (Nat.le_refl _)
        (Nat.lt_add_of_pos_right hTakes) 0 hFalls
  · intro off obj hData
    change _ ≤ pa.bytesUsed + nodeRoom part
    rcases withNode_data_cases hBt hPart hData with
      ⟨hNew, hSize⟩ | ⟨obj', hThere, hSize⟩
    · omega
    · have hUsed := hSound.used off obj' hThere
      omega
  · intro off obj off' obj' hData hData' hLess
    rcases withNode_data_cases hBt hPart hData' with
      ⟨hNew', _⟩ | ⟨old', hThere', _⟩
    · rcases withNode_data_cases hBt hPart hData with
        ⟨hNew, _⟩ | ⟨old, hThere, hSize⟩
      · omega
      · have hUsed := hSound.used off old hThere
        omega
    · have hUsed' := hSound.used off' old' hThere'
      rcases withNode_data_cases hBt hPart hData with
        ⟨hNew, _⟩ | ⟨old, hThere, hSize⟩
      · omega
      · rw [← hSize]
        exact
          hSound.apart off old off' old' hThere hThere' hLess
  · intro a bt' hNode hProp
    by_cases hNew : a = pa.bytesUsed
    · rw [withNode_btAt] at hNode
      rw [if_neg (by omega), if_pos hNew] at hNode
      cases hNode
      exact absurd rfl hProp
    · rcases withNode_btAt_old hBt hNew hNode with
        ⟨node, hThere, hSame, hName⟩
      rw [hSame] at hProp ⊢
      have hPath :
          pathOf (Function.update home pa.bytesUsed path) a
              bt'.name =
            pathOf home a node.name := by
        simp [pathOf, hNew, hName]
      rw [hPath]
      refine (hSound.props a node hThere hProp).mono ?_ ?_
      · intro info hInfo
        rw [withNode_data_iff hBt hFresh (by simp)]
        exact hInfo
      · intro off text hText
        rw [withNode_data_iff hBt hFresh (by simp)]
        exact hText

/- The new node has no property. -/
theorem Sound.grown_withNode
    (hSound : pa.Sound home)
    {e : Nat}
    {bt : PropBt}
    {l : Link}
    {path : List (List Char)}
    {part : List Char}
    (hBt : pa.btAt e = some bt)
    (hFalls :
      FallsOff cmpPropName pa.cells 0 (path ++ [part]) e l
        [part]) :
    Grown pa (pa.withNode e bt l part) := by
  have hOld : e ≠ pa.bytesUsed :=
    Nat.ne_of_lt (hSound.bt_old hBt)
  have hFresh : pa.data pa.bytesUsed = none :=
    hSound.data_fresh (Nat.le_refl _)
  have hPositive := hSound.linked.positive
  have hWalk :=
    walk_attach_iff cmpPropName_eq_zero_iff hSound.linked
      (by omega) (hSound.linked.fresh (Nat.le_refl _)) 0
      hFalls
  rw [← withNode_cells hBt hOld l part] at hWalk
  refine
    { serial := rfl
      dataSize := rfl
      bytesUsed := Nat.le_add_right _ _
      walk := ?_
      propAt := ?_
      info := ?_
      text := ?_ }
  · intro q x hOn
    exact (hWalk q x).mpr (Or.inl hOn)
  · intro q off
    constructor
    · rintro ⟨x, bt', hOn, hNode, hProp, hNe⟩
      rcases (hWalk q x).mp hOn with hThere | ⟨_, hNew⟩
      · have hNotNew : x ≠ pa.bytesUsed := by
          rcases hThere.path
            (fun k key => (cmpPropName_eq_zero_iff k key).1)
            hSound.linked with ⟨c, hCell, _⟩
          have hBelow := hSound.linked.bounded x c hCell
          omega
        rcases withNode_btAt_old hBt hNotNew hNode with
          ⟨node, hHere, hSame, _⟩
        exact
          ⟨x, node, hThere, hHere, hSame.symm.trans hProp,
            hNe⟩
      · rw [withNode_btAt] at hNode
        rw [if_neg (by omega), if_pos hNew] at hNode
        cases hNode
        exact absurd hProp.symm hNe
    · rintro ⟨x, node, hOn, hHere, hProp, hNe⟩
      have hNotNew : x ≠ pa.bytesUsed :=
        Nat.ne_of_lt (hSound.bt_old hHere)
      rcases
        withNode_btAt_keeps l part hBt hNotNew hHere with
        ⟨bt', hNode, hSame⟩
      exact
        ⟨x, bt', (hWalk q x).mpr (Or.inl hOn), hNode,
          hSame.trans hProp, hNe⟩
  · intro off info
    exact withNode_data_iff hBt hFresh (by simp) off
  · intro off text
    exact withNode_data_iff hBt hFresh (by simp) off

end PropArea

end Resetprop

end Universal7420

------------------------------------------------------------
-- One Level
------------------------------------------------------------

namespace Universal7420

namespace Resetprop

open LinkedTrie

namespace PropArea

variable {pa : PropArea}
variable {home : Nat → List (List Char)}

/- What the search at a node other than the root does. -/
theorem move_node
    {a : Nat}
    (hNode : a ≠ 0)
    {key part : List Char}
    (hOther : ¬ cmpPropName part key = 0) :
    move cmpPropName a key [part] =
      .follow
        (if cmpPropName part key < 0 then .left else .right)
        [part] := by
  simp only [move, if_neg hNode, if_neg hOther]
  rfl

/-
  The search in one level follows the walk.  It ends at the
  node, or where a node would have to be attached.
-/
theorem findSibling_spec
    (hSound : pa.Sound home)
    (part : List Char)
    (alloc : Bool)
    (fuel : Nat)
    {a : Nat}
    {bt : PropBt}
    (hNode : a ≠ 0)
    (hBt : pa.btAt a = some bt)
    (hFuel : pa.bytesUsed - a < fuel) :
    (∃ x,
      Walk cmpPropName pa.cells a [part] x ∧
      findSibling part alloc fuel (some a) pa =
        some (some x, pa)) ∨
    (∃ e l,
      FallsOff cmpPropName pa.cells a [part] e l [part] ∧
      findSibling part alloc fuel (some a) pa =
        if alloc = true then
          some (pa.newLinked e l part)
        else
          some (none, pa)) := by
  induction fuel generalizing a bt with
  | zero => omega
  | succ fuel ih =>
      have hCell := cell_of_btAt hBt
      rw [findSibling, hBt]
      by_cases hSame : cmpPropName part bt.name = 0
      · left
        refine ⟨a, .found hCell ?_, by simp [hSame]⟩
        simp [move, hNode, PropBt.cell, hSame]
      · have hMove := move_node hNode hSame
        simp only [if_neg hSame]
        generalize
          (if cmpPropName part bt.name < 0 then
            Link.left
          else
            Link.right) = l at hMove ⊢
        by_cases hLink : bt.link l = 0
        · right
          refine ⟨a, l, .here hCell hMove hLink, ?_⟩
          simp [hLink]
        · rcases hSound.linked.target a _ l hCell hLink with
            ⟨c, hTarget⟩
          rcases cells_eq_some_iff.mp hTarget with
            ⟨node, hThere, _⟩
          have hUp :=
            hSound.linked.younger a _ l hCell hLink
          change a < bt.link l at hUp
          change pa.btAt (bt.link l) = some node at hThere
          have hBelow := hSound.bt_old hThere
          have hWithin := hSound.within
          rw [if_pos hLink]
          rw [toPropObj_eq_some (by omega)]
          rcases ih hLink hThere (by omega) with
            ⟨x, hWalk, hFind⟩ | ⟨e, m, hFalls, hFind⟩
          · left
            exact ⟨x, .step hCell hMove hLink hWalk, hFind⟩
          · right
            exact
              ⟨e, m, .step hCell hMove hLink hFalls, hFind⟩

/- The search for one part below a node. -/
def findPart
    (pa : PropArea)
    (current : Nat)
    (bt : PropBt)
    (part : List Char)
    (alloc : Bool) :
    Option (Option Nat × PropArea) :=
  match pa.childrenOf current bt part alloc with
  | (none, pa) => some (none, pa)
  | (some root, pa) =>
      findSibling part alloc (pa.dataSize + 1) (some root) pa

/- A node that was just made is found at once. -/
theorem findSibling_new
    {e : Nat}
    {bt : PropBt}
    (hOld : e ≠ pa.bytesUsed)
    (l : Link)
    (part : List Char)
    (fuel : Nat) :
    findSibling part true (fuel + 1) (some pa.bytesUsed)
        (pa.withNode e bt l part) =
      some
        (some pa.bytesUsed, pa.withNode e bt l part) := by
  have hSelf : cmpPropName part part = 0 :=
    (cmpPropName_eq_zero_iff part part).mpr rfl
  rw [findSibling, withNode_btAt, if_neg (Ne.symm hOld)]
  simp [PropBt.new, hSelf]

theorem findPart_spec
    (hSound : pa.Sound home)
    {path : List (List Char)}
    {current : Nat}
    {bt : PropBt}
    (hBt : pa.btAt current = some bt)
    (hWalk : Walk cmpPropName pa.cells 0 path current)
    (part : List Char)
    (alloc : Bool) :
    (∃ x,
      Walk cmpPropName pa.cells 0 (path ++ [part]) x ∧
      pa.findPart current bt part alloc =
        some (some x, pa)) ∨
    (∃ e l,
      FallsOff cmpPropName pa.cells 0 (path ++ [part]) e l
        [part] ∧
      pa.findPart current bt part alloc =
        if alloc = true then
          some (pa.newLinked e l part)
        else
          some (none, pa)) := by
  have hCell := cell_of_btAt hBt
  unfold findPart childrenOf
  by_cases hChildren : bt.children = 0
  · -- There is no level below, so its first node is made.
    right
    refine
      ⟨current, .down,
        hWalk.append_fallsOff_here hCell hChildren part [],
        ?_⟩
    cases alloc with
    | false => simp [hChildren]
    | true =>
        have hOld : current ≠ pa.bytesUsed :=
          Nat.ne_of_lt (hSound.bt_old hBt)
        simp only [hChildren, ne_eq, not_true_eq_false,
          if_false, if_true]
        rw [newLinked_eq hBt hOld]
        by_cases hRoom :
            pa.dataSize < pa.bytesUsed + nodeRoom part
        · rw [if_pos hRoom]
        · rw [if_neg hRoom]
          exact findSibling_new hOld _ _ _
  · have hLink : bt.cell.link .down ≠ 0 := hChildren
    rcases hSound.linked.target _ _ _ hCell hLink with
      ⟨c, hTarget⟩
    rcases cells_eq_some_iff.mp hTarget with
      ⟨node, hThere, _⟩
    change pa.btAt bt.children = some node at hThere
    have hBelow := hSound.bt_old hThere
    have hWithin := hSound.within
    rw [if_pos hChildren]
    rw [toPropObj_eq_some (by omega)]
    rcases
      findSibling_spec hSound part alloc (pa.dataSize + 1)
        hChildren hThere (by omega) with
      ⟨x, hOn, hFind⟩ | ⟨e, l, hFalls, hFind⟩
    · exact
        Or.inl ⟨x, hWalk.append hCell hLink hOn, hFind⟩
    · exact
        Or.inr
          ⟨e, l, hWalk.append_fallsOff hCell hLink hFalls,
            hFind⟩

end PropArea

end Resetprop

end Universal7420

------------------------------------------------------------
-- The Whole Name
------------------------------------------------------------

namespace Universal7420

namespace Resetprop

open LinkedTrie

namespace PropArea

variable {pa : PropArea}
variable {home : Nat → List (List Char)}

/- The search goes on below the part that was found. -/
def resume
    (alloc : Bool)
    (fuel : Nat)
    (rest : Option (List Char)) :
    Option Nat × PropArea →
      Option (Option Nat × PropArea)
| (none, pa) => some (none, pa)
| (some node, pa) =>
    match rest with
    | none => some (some node, pa)
    | some remaining =>
        findPropBt alloc fuel node remaining pa

theorem findPropBt_succ
    (alloc : Bool)
    (fuel : Nat)
    {current : Nat}
    {bt : PropBt}
    (hBt : pa.btAt current = some bt)
    (remaining : List Char)
    (hPart : (nextPart remaining).1 ≠ []) :
    findPropBt alloc (fuel + 1) current remaining pa =
      (pa.findPart current bt (nextPart remaining).1
        alloc).bind
          (resume alloc fuel (nextPart remaining).2) := by
  rw [findPropBt, if_neg hPart, hBt]
  unfold findPart
  dsimp only
  cases hRoot :
      pa.childrenOf current bt (nextPart remaining).1
        alloc with
  | mk root pa' =>
      cases root with
      | none => rfl
      | some root =>
          dsimp only
          cases
            findSibling (nextPart remaining).1 alloc
              (pa'.dataSize + 1) (some root) pa' with
          | none => rfl
          | some found =>
              rcases found with ⟨node, pa''⟩
              cases node with
              | none => rfl
              | some node => rfl

theorem Sound.bt_of_walk
    (hSound : pa.Sound home)
    {path : List (List Char)}
    {x : Nat}
    (hWalk : Walk cmpPropName pa.cells 0 path x) :
    ∃ bt, pa.btAt x = some bt := by
  rcases hWalk.path
    (fun k key => (cmpPropName_eq_zero_iff k key).1)
    hSound.linked with ⟨c, hCell, _⟩
  rcases cells_eq_some_iff.mp hCell with ⟨bt, hBt, _⟩
  exact ⟨bt, hBt⟩

theorem nameParts_of_last
    {name : List Char}
    (hLast : (nextPart name).2 = none) :
    nameParts name = [(nextPart name).1] := by
  rw [nameParts_eq, hLast]
  rfl

theorem nameParts_of_rest
    {name rest : List Char}
    (hRest : (nextPart name).2 = some rest) :
    nameParts name =
      (nextPart name).1 :: nameParts rest := by
  rw [nameParts_eq, hRest]
  rfl

theorem splits_of_last
    {name : List Char}
    (hPart : (nextPart name).1 ≠ [])
    (hLast : (nextPart name).2 = none) :
    Splits name := by
  simp [Splits, nameParts_of_last hLast, Ne.symm hPart]

theorem splits_iff_rest
    {name rest : List Char}
    (hPart : (nextPart name).1 ≠ [])
    (hRest : (nextPart name).2 = some rest) :
    Splits name ↔ Splits rest := by
  simp [Splits, nameParts_of_rest hRest, Ne.symm hPart]

/-
  Without allocation the area stays as it is, and the node is
  found if the walk for all the parts arrives.
-/
theorem findPropBt_spec
    (hSound : pa.Sound home)
    (fuel : Nat)
    {path : List (List Char)}
    {current : Nat}
    (hWalk : Walk cmpPropName pa.cells 0 path current)
    (remaining : List Char)
    (hFuel : remaining.length < fuel) :
    ∃ r,
      findPropBt false fuel current remaining pa =
        some (r, pa) ∧
      ∀ x,
        r = some x ↔
          Splits remaining ∧
          Walk cmpPropName pa.cells 0
            (path ++ nameParts remaining) x := by
  induction fuel generalizing path current remaining with
  | zero => omega
  | succ fuel ih =>
      rcases hSound.bt_of_walk hWalk with ⟨bt, hBt⟩
      have hParts := nameParts_eq remaining
      by_cases hPart : (nextPart remaining).1 = []
      · refine ⟨none, ?_, ?_⟩
        · rw [findPropBt, if_pos hPart]
        · intro x
          simp [Splits, hParts, hPart]
      · rw [findPropBt_succ false fuel hBt remaining hPart]
        rcases
          findPart_spec hSound hBt hWalk
            (nextPart remaining).1 false with
          ⟨y, hOn, hFind⟩ | ⟨e, l, hFalls, hFind⟩
        · rw [hFind, Option.bind_some]
          cases hRest : (nextPart remaining).2 with
          | none =>
              refine ⟨some y, rfl, ?_⟩
              intro x
              rw [nameParts_of_last hRest]
              constructor
              · intro hSame
                cases hSame
                exact ⟨splits_of_last hPart hRest, hOn⟩
              · rintro ⟨_, hOther⟩
                rw [hOn.unique hOther]
          | some rest =>
              have hShort := nextPart_length hRest
              rcases ih hOn rest (by omega) with
                ⟨r, hGo, hThere⟩
              refine ⟨r, hGo, ?_⟩
              intro x
              rw [hThere, splits_iff_rest hPart hRest]
              rw [nameParts_of_rest hRest]
              simp
        · rw [hFind]
          refine ⟨none, rfl, ?_⟩
          intro x
          simp only [reduceCtorEq, false_iff]
          rintro ⟨_, hOther⟩
          have hMore :=
            hFalls.append
              ((nextPart remaining).2.elim [] nameParts)
          rw [hParts] at hOther
          rw [List.append_assoc] at hMore
          exact hMore.not_walk hOther

/- The room that the nodes of a path take at most. -/
def partsRoom : List (List Char) → Nat
| [] => 0
| part :: parts => nodeRoom part + partsRoom parts

/- What a search that may allocate ends with. -/
structure Reserved
    (pa : PropArea)
    (path : List (List Char))
    (remaining : List Char)
    (r : Option Nat)
    (pa' : PropArea) :
    Prop where
  sound : ∃ home', pa'.Sound home'
  grown : Grown pa pa'
  used :
    pa'.bytesUsed ≤
      pa.bytesUsed + partsRoom (nameParts remaining)
  node :
    ∀ x,
      r = some x →
      Splits remaining ∧
      Walk cmpPropName pa'.cells 0
        (path ++ nameParts remaining) x
  present :
    ∀ x,
      Splits remaining →
      Walk cmpPropName pa.cells 0
        (path ++ nameParts remaining) x →
      r = some x ∧ pa' = pa
  full :
    r = none →
    Splits remaining →
    pa.dataSize <
      pa.bytesUsed + partsRoom (nameParts remaining)

/- A part of a path that was there is not made again. -/
def Present
    (pa : PropArea)
    (path : List (List Char))
    (pa' : PropArea) :
    Prop :=
  ∀ more x,
    Walk cmpPropName pa.cells 0 (path ++ more) x → pa' = pa

/- The search ends with the part that was reached. -/
theorem Reserved.of_last
    {pa' : PropArea}
    {home' : Nat → List (List Char)}
    {path : List (List Char)}
    {remaining : List Char}
    {x : Nat}
    (hSound : pa'.Sound home')
    (hGrown : Grown pa pa')
    (hUsed :
      pa'.bytesUsed ≤
        pa.bytesUsed + nodeRoom (nextPart remaining).1)
    (hPresent :
      Present pa (path ++ [(nextPart remaining).1]) pa')
    (hPart : (nextPart remaining).1 ≠ [])
    (hLast : (nextPart remaining).2 = none)
    (hWalk :
      Walk cmpPropName pa'.cells 0
        (path ++ [(nextPart remaining).1]) x) :
    Reserved pa path remaining (some x) pa' where
  sound := ⟨home', hSound⟩
  grown := hGrown
  used := by
    rw [nameParts_of_last hLast]
    simpa [partsRoom] using hUsed
  node := by
    intro y hSame
    cases hSame
    rw [nameParts_of_last hLast]
    exact ⟨splits_of_last hPart hLast, hWalk⟩
  present := by
    intro y _ hThere
    rw [nameParts_of_last hLast] at hThere
    have hSame : pa' = pa :=
      hPresent [] y (by simpa using hThere)
    subst hSame
    rw [hWalk.unique hThere]
    exact ⟨rfl, rfl⟩
  full := by
    intro hNone
    cases hNone

/- The search goes on from the part that was reached. -/
theorem Reserved.of_rest
    {pa' pa'' : PropArea}
    {path : List (List Char)}
    {remaining rest : List Char}
    {r : Option Nat}
    (hGrown : Grown pa pa')
    (hUsed :
      pa'.bytesUsed ≤
        pa.bytesUsed + nodeRoom (nextPart remaining).1)
    (hPresent :
      Present pa (path ++ [(nextPart remaining).1]) pa')
    (hPart : (nextPart remaining).1 ≠ [])
    (hRest : (nextPart remaining).2 = some rest)
    (hOn :
      Reserved pa' (path ++ [(nextPart remaining).1]) rest
        r pa'') :
    Reserved pa path remaining r pa'' where
  sound := hOn.sound
  grown := hGrown.trans hOn.grown
  used := by
    have hMore := hOn.used
    rw [nameParts_of_rest hRest]
    simp only [partsRoom] at hMore ⊢
    omega
  node := by
    intro x hSame
    rcases hOn.node x hSame with ⟨hSplits, hWalk⟩
    rw [splits_iff_rest hPart hRest]
    rw [nameParts_of_rest hRest]
    refine ⟨hSplits, ?_⟩
    simpa using hWalk
  present := by
    intro x hSplits hThere
    rw [splits_iff_rest hPart hRest] at hSplits
    rw [nameParts_of_rest hRest, List.append_cons] at hThere
    have hSame : pa' = pa :=
      hPresent (nameParts rest) x hThere
    subst hSame
    exact hOn.present x hSplits hThere
  full := by
    intro hNone hSplits
    rw [splits_iff_rest hPart hRest] at hSplits
    have hMore := hOn.full hNone hSplits
    rw [hGrown.dataSize] at hMore
    rw [nameParts_of_rest hRest]
    simp only [partsRoom] at hMore ⊢
    omega

/- A search that stops leaves the area as it is. -/
theorem Reserved.of_stop
    (hSound : pa.Sound home)
    {path : List (List Char)}
    {remaining : List Char}
    (hMissing :
      ∀ x,
        Splits remaining →
        ¬ Walk cmpPropName pa.cells 0
          (path ++ nameParts remaining) x)
    (hFull :
      Splits remaining →
      pa.dataSize <
        pa.bytesUsed + partsRoom (nameParts remaining)) :
    Reserved pa path remaining none pa where
  sound := ⟨home, hSound⟩
  grown := Grown.refl pa
  used := Nat.le_add_right _ _
  node := by
    intro x hNone
    cases hNone
  present := fun x hSplits hThere =>
    absurd hThere (hMissing x hSplits)
  full := fun _ => hFull

/- The node of a part is there, is made, or has no room. -/
theorem findPart_alloc_spec
    (hSound : pa.Sound home)
    {path : List (List Char)}
    {current : Nat}
    {bt : PropBt}
    {part : List Char}
    (hBt : pa.btAt current = some bt)
    (hWalk : Walk cmpPropName pa.cells 0 path current)
    (hPart : part ≠ []) :
    (∃ x pa' home',
      pa.findPart current bt part true =
        some (some x, pa') ∧
      pa'.Sound home' ∧
      Grown pa pa' ∧
      pa'.bytesUsed ≤ pa.bytesUsed + nodeRoom part ∧
      Present pa (path ++ [part]) pa' ∧
      Walk cmpPropName pa'.cells 0 (path ++ [part]) x) ∨
    (pa.findPart current bt part true = some (none, pa) ∧
      (∀ more x,
        ¬ Walk cmpPropName pa.cells 0
          (path ++ [part] ++ more) x) ∧
      pa.dataSize < pa.bytesUsed + nodeRoom part) := by
  rcases findPart_spec hSound hBt hWalk part true with
    ⟨x, hOn, hFind⟩ | ⟨e, l, hFalls, hFind⟩
  · left
    exact
      ⟨x, pa, home, hFind, hSound, Grown.refl pa,
        Nat.le_add_right _ _, fun _ _ _ => rfl, hOn⟩
  · rcases hFalls.free with ⟨d, hEnd, _⟩
    rcases cells_eq_some_iff.mp hEnd with ⟨node, hNode, _⟩
    have hOld : e ≠ pa.bytesUsed :=
      Nat.ne_of_lt (hSound.bt_old hNode)
    have hMissing :
        ∀ more x,
          ¬ Walk cmpPropName pa.cells 0
            (path ++ [part] ++ more) x :=
      fun more x => (hFalls.append more).not_walk
    rw [if_pos rfl, newLinked_eq hNode hOld] at hFind
    by_cases hRoom :
        pa.dataSize < pa.bytesUsed + nodeRoom part
    · right
      rw [if_pos hRoom] at hFind
      exact ⟨hFind, hMissing, hRoom⟩
    · left
      rw [if_neg hRoom] at hFind
      have hPositive := hSound.linked.positive
      have hWalk' :=
        (walk_attach_iff cmpPropName_eq_zero_iff
          hSound.linked (by omega)
          (hSound.linked.fresh (Nat.le_refl _)) 0 hFalls
          (path ++ [part]) pa.bytesUsed).mpr
            (Or.inr ⟨rfl, rfl⟩)
      rw [← withNode_cells hNode hOld l part] at hWalk'
      exact
        ⟨pa.bytesUsed, _, _, hFind,
          hSound.withNode hNode hPart (by omega) hFalls,
          hSound.grown_withNode hNode hFalls,
          Nat.le_refl _,
          fun more x hThere =>
            absurd hThere (hMissing more x),
          hWalk'⟩

/- With allocation the missing nodes are made on the way. -/
theorem findPropBt_alloc_spec
    (hSound : pa.Sound home)
    (fuel : Nat)
    {path : List (List Char)}
    {current : Nat}
    (hWalk : Walk cmpPropName pa.cells 0 path current)
    (remaining : List Char)
    (hFuel : remaining.length < fuel) :
    ∃ r pa',
      findPropBt true fuel current remaining pa =
        some (r, pa') ∧
      Reserved pa path remaining r pa' := by
  induction fuel
    generalizing pa home path current remaining with
  | zero => omega
  | succ fuel ih =>
      rcases hSound.bt_of_walk hWalk with ⟨bt, hBt⟩
      have hParts := nameParts_eq remaining
      by_cases hPart : (nextPart remaining).1 = []
      · have hNot : ¬ Splits remaining := by
          simp [Splits, hParts, hPart]
        refine
          ⟨none, pa, ?_, .of_stop hSound
            (fun _ hSplits => absurd hSplits hNot)
            (fun hSplits => absurd hSplits hNot)⟩
        rw [findPropBt, if_pos hPart]
      · rw [findPropBt_succ true fuel hBt remaining hPart]
        rcases findPart_alloc_spec hSound hBt hWalk hPart with
          ⟨x, pa', home', hFind, hSound', hGrown, hUsed,
            hPresent, hOn⟩ | ⟨hFind, hMissing, hFull⟩
        · rw [hFind, Option.bind_some]
          cases hRest : (nextPart remaining).2 with
          | none =>
              exact
                ⟨some x, pa', rfl,
                  .of_last hSound' hGrown hUsed hPresent
                    hPart hRest hOn⟩
          | some rest =>
              have hShort := nextPart_length hRest
              rcases ih hSound' hOn rest (by omega) with
                ⟨r, pa'', hGo, hReserved⟩
              exact
                ⟨r, pa'', hGo,
                  .of_rest hGrown hUsed hPresent hPart
                    hRest hReserved⟩
        · rw [hFind]
          refine ⟨none, pa, rfl, .of_stop hSound ?_ ?_⟩
          · intro x _ hThere
            rw [hParts, List.append_cons] at hThere
            exact hMissing _ x hThere
          · intro _
            rw [hParts]
            simp only [partsRoom]
            omega

end PropArea

end Resetprop

end Universal7420

------------------------------------------------------------
-- Objects That Are No Nodes
------------------------------------------------------------

namespace Universal7420

namespace Resetprop

open LinkedTrie

namespace PropArea

/- The area with room that is used and not written. -/
def skip
    (pa : PropArea)
    (room : Nat) :
    PropArea :=
  { pa with bytesUsed := pa.bytesUsed + room }

/- The area with a new object. -/
def withObj
    (pa : PropArea)
    (obj : Obj)
    (room : Nat) :
    PropArea :=
  (pa.skip room).put pa.bytesUsed obj

/- The room that the text of a property takes. -/
def textRoom (value : List Char) : Nat :=
  align (value.length + 1)

/- The room that a property takes without its text. -/
def infoRoom (name : List Char) : Nat :=
  align (sizeofPropInfo + name.length + 1)

theorem newPropInfo_eq
    (pa : PropArea)
    (name value : List Char) :
    pa.newPropInfo name value =
      if pa.dataSize < pa.bytesUsed + infoRoom name then
        (none, pa)
      else if propValueMax ≤ value.length then
        if pa.dataSize <
            pa.bytesUsed + infoRoom name + textRoom value
        then
          (none, pa.skip (infoRoom name))
        else
          ( some pa.bytesUsed
          , (pa.withObj
              (.info
                (PropInfo.ofOffset name (infoRoom name)))
              (infoRoom name)).withObj
                (.text value) (textRoom value) )
      else
        ( some pa.bytesUsed
        , pa.withObj
            (.info (PropInfo.ofValue name value))
            (infoRoom name) ) := by
  unfold newPropInfo allocateObj infoRoom textRoom
  by_cases hRoom :
      pa.dataSize <
        pa.bytesUsed +
          align (sizeofPropInfo + name.length + 1)
  · rw [if_pos hRoom, if_pos hRoom]
  · rw [if_neg hRoom, if_neg hRoom]
    by_cases hLong : propValueMax ≤ value.length
    · simp only [if_pos hLong]
      by_cases hText :
          pa.dataSize <
            pa.bytesUsed +
                align (sizeofPropInfo + name.length + 1) +
              align (value.length + 1)
      · rw [if_pos hText, if_pos hText]
        rfl
      · rw [if_neg hText, if_neg hText]
        have hTakes :
            align (sizeofPropInfo + name.length + 1) ≠
              0 := by
          unfold align
          omega
        refine Prod.ext rfl ?_
        unfold withObj skip put
        simp only [PropArea.mk.injEq, true_and,
          Nat.add_sub_cancel_left]
        funext a
        by_cases hInfo : a = pa.bytesUsed
        · subst hInfo
          simp [hTakes]
        · simp [hInfo]
    · simp only [if_neg hLong]
      rfl

variable {pa : PropArea}
variable {home : Nat → List (List Char)}

theorem withObj_data
    (pa : PropArea)
    (obj : Obj)
    (room a : Nat) :
    (pa.withObj obj room).data a =
      if a = pa.bytesUsed then some obj else pa.data a :=
  rfl

/- What was there stays. -/
theorem Sound.withObj_data_old
    (hSound : pa.Sound home)
    {obj old : Obj}
    (room : Nat)
    {a : Nat}
    (hData : pa.data a = some old) :
    (pa.withObj obj room).data a = some old := by
  rw [withObj_data, if_neg]
  · exact hData
  · rintro rfl
    rw [hSound.data_fresh (Nat.le_refl _)] at hData
    cases hData

theorem Sound.withObj_btAt
    (hSound : pa.Sound home)
    {obj : Obj}
    (hObj : ∀ node, obj ≠ .bt node)
    (room a : Nat) :
    (pa.withObj obj room).btAt a = pa.btAt a := by
  unfold btAt
  rw [withObj_data]
  by_cases hAt : a = pa.bytesUsed
  · subst hAt
    rw [if_pos rfl, hSound.data_fresh (Nat.le_refl _)]
    cases obj with
    | bt node => exact absurd rfl (hObj node)
    | info prop => rfl
    | text chars => rfl
  · rw [if_neg hAt]

theorem Sound.withObj_cells
    (hSound : pa.Sound home)
    {obj : Obj}
    (hObj : ∀ node, obj ≠ .bt node)
    (room : Nat) :
    (pa.withObj obj room).cells = pa.cells := by
  funext a
  unfold cells
  rw [hSound.withObj_btAt hObj]

theorem Sound.skip
    (hSound : pa.Sound home)
    {room : Nat}
    (hRoom : pa.bytesUsed + room ≤ pa.dataSize) :
    (pa.skip room).Sound home where
  linked := hSound.linked.mono (Nat.le_add_right _ _)
  within := hRoom
  used := fun off obj hData =>
    Nat.le_trans (hSound.used off obj hData)
      (Nat.le_add_right _ _)
  apart := hSound.apart
  props := hSound.props

/- A new object lies behind all others. -/
theorem Sound.withObj
    (hSound : pa.Sound home)
    {obj : Obj}
    {room : Nat}
    (hObj : ∀ node, obj ≠ .bt node)
    (hSize : obj.size ≤ room)
    (hRoom : pa.bytesUsed + room ≤ pa.dataSize) :
    (pa.withObj obj room).Sound home := by
  refine
    { linked := ?_
      within := hRoom
      used := ?_
      apart := ?_
      props := ?_ }
  · rw [hSound.withObj_cells hObj]
    exact hSound.linked.mono (Nat.le_add_right _ _)
  · intro off obj' hData
    change _ ≤ pa.bytesUsed + room
    rw [withObj_data] at hData
    split at hData
    · cases hData
      omega
    · have hUsed := hSound.used off obj' hData
      omega
  · intro off obj₁ off' obj₂ hData hData' hLess
    rw [withObj_data] at hData hData'
    split at hData
    · split at hData'
      · omega
      · have hUsed := hSound.used off' obj₂ hData'
        omega
    · split at hData'
      · have hUsed := hSound.used off obj₁ hData
        omega
      · exact
          hSound.apart off obj₁ off' obj₂ hData hData' hLess
  · intro a bt hBt hProp
    rw [hSound.withObj_btAt hObj] at hBt
    refine (hSound.props a bt hBt hProp).mono ?_ ?_
    · intro info hInfo
      exact hSound.withObj_data_old room hInfo
    · intro off text hText
      exact hSound.withObj_data_old room hText

end PropArea

end Resetprop

end Universal7420

------------------------------------------------------------
-- The Property Of A Node
------------------------------------------------------------

namespace Universal7420

namespace Resetprop

open LinkedTrie

namespace PropArea

variable {pa : PropArea}
variable {home : Nat → List (List Char)}

theorem setProp_eq
    {x : Nat}
    {bt : PropBt}
    (hBt : pa.btAt x = some bt)
    (off : Nat) :
    pa.setProp x off =
      pa.put x (.bt { bt with prop := off }) := by
  unfold setProp
  rw [hBt]

theorem setProp_btAt
    {x : Nat}
    {bt : PropBt}
    (hBt : pa.btAt x = some bt)
    (off a : Nat) :
    (pa.setProp x off).btAt a =
      if a = x then
        some { bt with prop := off }
      else
        pa.btAt a := by
  rw [setProp_eq hBt, btAt_put_bt]

@[simp] theorem setProp_serial
    (pa : PropArea)
    (x off : Nat) :
    (pa.setProp x off).serial = pa.serial := by
  unfold setProp
  split
  · rfl
  · rfl

@[simp] theorem setProp_dataSize
    (pa : PropArea)
    (x off : Nat) :
    (pa.setProp x off).dataSize = pa.dataSize := by
  unfold setProp
  split
  · rfl
  · rfl

@[simp] theorem setProp_bytesUsed
    (pa : PropArea)
    (x off : Nat) :
    (pa.setProp x off).bytesUsed = pa.bytesUsed := by
  unfold setProp
  split
  · rfl
  · rfl

/- Properties and texts are not written. -/
theorem setProp_data_iff
    {x : Nat}
    {bt : PropBt}
    {obj : Obj}
    (hBt : pa.btAt x = some bt)
    (hObj : ∀ node, obj ≠ .bt node)
    (off a : Nat) :
    (pa.setProp x off).data a = some obj ↔
      pa.data a = some obj := by
  rw [setProp_eq hBt, put_data]
  split
  · rename_i hAt
    subst hAt
    rw [btAt_eq_some_iff] at hBt
    rw [hBt]
    simp [Ne.symm (hObj _)]
  · exact Iff.rfl

theorem setProp_sameLinks
    {x : Nat}
    {bt : PropBt}
    (hBt : pa.btAt x = some bt)
    (off : Nat) :
    SameLinks pa.cells (pa.setProp x off).cells := by
  intro a
  unfold cells
  rw [setProp_btAt hBt]
  split
  · rename_i hAt
    subst hAt
    rw [hBt]
    rfl
  · rfl

/- The path to a node is the only one. -/
theorem Sound.walk_iff_path
    (hSound : pa.Sound home)
    {x : Nat}
    {bt : PropBt}
    (hBt : pa.btAt x = some bt)
    (path : List (List Char)) :
    Walk cmpPropName pa.cells 0 path x ↔
      path = pathOf home x bt.name := by
  constructor
  · intro hWalk
    rcases hWalk.path
      (fun k key => (cmpPropName_eq_zero_iff k key).1)
      hSound.linked with ⟨c, hCell, hPath⟩
    rw [cell_of_btAt hBt] at hCell
    cases hCell
    rw [hSound.linked.home_root, List.nil_append] at hPath
    exact hPath.symm
  · rintro rfl
    exact hSound.linked.found x bt.cell (cell_of_btAt hBt)

theorem Sound.setProp
    (hSound : pa.Sound home)
    {x off : Nat}
    {bt : PropBt}
    (hBt : pa.btAt x = some bt)
    (hOff :
      off ≠ 0 → pa.LeadsTo off (pathOf home x bt.name)) :
    (pa.setProp x off).Sound home := by
  have hMono :
      ∀ {off' path},
        pa.LeadsTo off' path →
        (pa.setProp x off).LeadsTo off' path := by
    intro off' path hLeads
    refine hLeads.mono ?_ ?_
    · intro info hInfo
      rw [setProp_data_iff hBt (by simp)]
      exact hInfo
    · intro a text hText
      rw [setProp_data_iff hBt (by simp)]
      exact hText
  have hData :
      ∀ a obj,
        (pa.setProp x off).data a = some obj →
        ∃ old, pa.data a = some old ∧ old.size = obj.size := by
    intro a obj hThere
    rw [setProp_eq hBt, put_data] at hThere
    split at hThere
    · rename_i hAt
      subst hAt
      cases hThere
      rw [btAt_eq_some_iff] at hBt
      exact ⟨.bt bt, hBt, by simp [Obj.size]⟩
    · exact ⟨obj, hThere, rfl⟩
  refine
    { linked := ?_
      within := ?_
      used := ?_
      apart := ?_
      props := ?_ }
  · rw [setProp_bytesUsed]
    exact (setProp_sameLinks hBt off).wellLinked hSound.linked
  · rw [setProp_bytesUsed, setProp_dataSize]
    exact hSound.within
  · intro a obj hThere
    rcases hData a obj hThere with ⟨old, hOld, hSize⟩
    rw [setProp_bytesUsed, ← hSize]
    exact hSound.used a old hOld
  · intro a obj a' obj' hThere hThere' hLess
    rcases hData a obj hThere with ⟨old, hOld, hSize⟩
    rcases hData a' obj' hThere' with ⟨old', hOld', _⟩
    rw [← hSize]
    exact hSound.apart a old a' old' hOld hOld' hLess
  · intro a bt' hNode hProp
    rw [setProp_btAt hBt] at hNode
    split at hNode
    · rename_i hAt
      subst hAt
      cases hNode
      exact hMono (hOff hProp)
    · exact hMono (hSound.props a bt' hNode hProp)

/- One path leads to the new property, and no other changes. -/
theorem Sound.setProp_propAt
    (hSound : pa.Sound home)
    {x off : Nat}
    {bt : PropBt}
    (hBt : pa.btAt x = some bt)
    (path : List (List Char))
    (off' : Nat) :
    (pa.setProp x off).PropAt path off' ↔
      if path = pathOf home x bt.name then
        off' = off ∧ off ≠ 0
      else
        pa.PropAt path off' := by
  have hSame := setProp_sameLinks hBt off
  constructor
  · rintro ⟨y, bt', hWalk, hNode, hProp, hNe⟩
    have hBack := hSame.symm.walk hWalk
    rw [setProp_btAt hBt] at hNode
    split at hNode
    · rename_i hAt
      subst hAt
      cases hNode
      rw [if_pos ((hSound.walk_iff_path hBt path).mp hBack)]
      refine ⟨hProp.symm, ?_⟩
      rw [← hProp] at hNe
      exact hNe
    · rename_i hAt
      rw [if_neg]
      · exact ⟨y, bt', hBack, hNode, hProp, hNe⟩
      · intro hPath
        have hHere := (hSound.walk_iff_path hBt path).mpr hPath
        exact hAt (hBack.unique hHere)
  · intro hThere
    split at hThere
    · rename_i hPath
      rcases hThere with ⟨hOff, hNe⟩
      subst hOff
      refine
        ⟨x, { bt with prop := off' },
          hSame.walk
            ((hSound.walk_iff_path hBt path).mpr hPath),
          ?_, rfl, hNe⟩
      rw [setProp_btAt hBt, if_pos rfl]
    · rename_i hPath
      rcases hThere with ⟨y, bt', hWalk, hNode, hProp, hNe⟩
      refine ⟨y, bt', hSame.walk hWalk, ?_, hProp, hNe⟩
      rw [setProp_btAt hBt, if_neg]
      · exact hNode
      · rintro rfl
        exact hPath ((hSound.walk_iff_path hBt path).mp hWalk)

end PropArea

end Resetprop

end Universal7420
