import Mathlib.Data.List.Nodup
import Universal7420.Resetprop.PropAreaSpec

/-
  The property area as a map from names to values.

  `lookup` reads the value that is stored under a name.  Every
  operation answers, and what it does to `lookup` is what it
  does to a map: a name that is there keeps its value when it
  is added again, a name that is added is there unless its
  parts or the room do not allow it, and a name that is deleted
  is gone.

  Main declarations:
    * `Universal7420.Resetprop.PropArea.lookup`
    * `Universal7420.Resetprop.PropArea.find_spec`
    * `Universal7420.Resetprop.PropArea.add_spec`
    * `Universal7420.Resetprop.PropArea.del_spec`
    * `Universal7420.Resetprop.PropArea.foreach_spec`
    * `Universal7420.Resetprop.AreaOp`
    * `Universal7420.Resetprop.contents`
    * `Universal7420.Resetprop.runOps_lookup`
    * `Universal7420.Resetprop.runOps_add_fails`
    * `Universal7420.Resetprop.runOps_foreach`
    * `Universal7420.Resetprop.runOps_layout`
-/

------------------------------------------------------------
-- Looking Up A Name
------------------------------------------------------------

namespace Universal7420

namespace Resetprop

open LinkedTrie

namespace PropArea

/- The value of a property, in its place or elsewhere. -/
def stored
    (pa : PropArea)
    (off : Nat) :
    Option (List Char) :=
  match pa.infoAt off with
  | none => none
  | some info =>
      if info.isLong = true then
        match pa.data (off + info.offset) with
        | some (.text text) => some text
        | _ => none
      else
        some info.value

/- The value of the property that `find` leads to. -/
def lookup
    (pa : PropArea)
    (name : List Char) :
    Option (List Char) :=
  match pa.find name with
  | some (some off) => pa.stored off
  | _ => none

variable {pa : PropArea}
variable {home : Nat → List (List Char)}

theorem Sound.walk_root
    (hSound : pa.Sound home) :
    Walk cmpPropName pa.cells 0 [] 0 := by
  rcases hSound.root_bt with ⟨bt, hBt⟩
  exact .found (cell_of_btAt hBt) (by simp [move])

theorem findRoot_spec
    (hSound : pa.Sound home)
    (name : List Char) :
    ∃ r,
      pa.findRoot name false = some (r, pa) ∧
      ∀ x,
        r = some x ↔
          Splits name ∧
          Walk cmpPropName pa.cells 0 (nameParts name) x :=
  findPropBt_spec hSound (name.length + 1) hSound.walk_root
    name (Nat.lt_succ_self _)

theorem findRoot_alloc_spec
    (hSound : pa.Sound home)
    (name : List Char) :
    ∃ r pa',
      pa.findRoot name true = some (r, pa') ∧
      Reserved pa [] name r pa' :=
  findPropBt_alloc_spec hSound (name.length + 1)
    hSound.walk_root name (Nat.lt_succ_self _)

theorem PropAt.unique
    {path : List (List Char)}
    {off off' : Nat}
    (hOff : pa.PropAt path off)
    (hOff' : pa.PropAt path off') :
    off = off' := by
  rcases hOff with ⟨x, bt, hWalk, hBt, hProp, _⟩
  rcases hOff' with ⟨x', bt', hWalk', hBt', hProp', _⟩
  have hSame : x = x' := hWalk.unique hWalk'
  subst hSame
  rw [hBt] at hBt'
  cases hBt'
  rw [← hProp, ← hProp']

/- A path with a property leads to it. -/
theorem Sound.leadsTo
    (hSound : pa.Sound home)
    {path : List (List Char)}
    {off : Nat}
    (hProp : pa.PropAt path off) :
    pa.LeadsTo off path := by
  rcases hProp with ⟨x, bt, hWalk, hBt, hOff, hNe⟩
  rw [(hSound.walk_iff_path hBt path).mp hWalk, ← hOff]
  rw [← hOff] at hNe
  exact hSound.props x bt hBt hNe

theorem Sound.prop_within
    (hSound : pa.Sound home)
    {path : List (List Char)}
    {off : Nat}
    (hProp : pa.PropAt path off) :
    pa.toPropObj off = some off := by
  rcases hSound.leadsTo hProp with ⟨info, hInfo, _⟩
  have hUsed := hSound.used off _ hInfo
  have hWithin := hSound.within
  exact toPropObj_eq_some (by omega)

/- The search leads to the property of the path. -/
theorem find_spec
    (hSound : pa.Sound home)
    (name : List Char) :
    ∃ r,
      pa.find name = some r ∧
      ∀ off,
        r = some off ↔
          Splits name ∧ pa.PropAt (nameParts name) off := by
  rcases findRoot_spec hSound name with ⟨r, hFind, hThere⟩
  unfold find findProperty
  rw [hFind]
  cases r with
  | none =>
      refine ⟨none, rfl, ?_⟩
      intro off
      simp only [reduceCtorEq, false_iff]
      rintro ⟨hSplits, x, bt, hWalk, _⟩
      have hSome := (hThere x).mpr ⟨hSplits, hWalk⟩
      cases hSome
  | some x =>
      rcases (hThere x).mp rfl with ⟨hSplits, hWalk⟩
      rcases hSound.bt_of_walk hWalk with ⟨bt, hBt⟩
      dsimp only
      rw [hBt]
      by_cases hProp : bt.prop = 0
      · refine ⟨none, by simp [hProp], ?_⟩
        intro off
        simp only [reduceCtorEq, false_iff]
        rintro ⟨_, y, bt', hWalk', hBt', hOff, hNe⟩
        have hSame : x = y := hWalk.unique hWalk'
        subst hSame
        rw [hBt] at hBt'
        cases hBt'
        exact hNe (hOff.symm.trans hProp)
      · have hPropAt :
            pa.PropAt (nameParts name) bt.prop :=
          ⟨x, bt, hWalk, hBt, rfl, hProp⟩
        refine ⟨some bt.prop, ?_, ?_⟩
        · simp [hProp, hSound.prop_within hPropAt]
        · intro off
          constructor
          · intro hOff
            cases hOff
            exact ⟨hSplits, hPropAt⟩
          · rintro ⟨_, hOther⟩
            rw [hPropAt.unique hOther]

/- A property that a path leads to has a value. -/
theorem LeadsTo.stored_isSome
    {off : Nat}
    {path : List (List Char)}
    (hLeads : pa.LeadsTo off path) :
    ∃ value, pa.stored off = some value := by
  rcases hLeads with ⟨info, hInfo, _, _, hLong⟩
  unfold stored
  rw [infoAt_eq_some_iff.mpr hInfo]
  by_cases hFlag : info.isLong = true
  · rcases hLong hFlag with ⟨text, hText⟩
    simp [hFlag, hText]
  · simp [hFlag]

theorem lookup_eq_some_iff
    (hSound : pa.Sound home)
    (name value : List Char) :
    pa.lookup name = some value ↔
      Splits name ∧
      ∃ off,
        pa.PropAt (nameParts name) off ∧
        pa.stored off = some value := by
  rcases find_spec hSound name with ⟨r, hFind, hThere⟩
  unfold lookup
  rw [hFind]
  cases r with
  | none =>
      simp only [reduceCtorEq, false_iff]
      rintro ⟨hSplits, off, hProp, _⟩
      have hSome := (hThere off).mpr ⟨hSplits, hProp⟩
      cases hSome
  | some off =>
      rcases (hThere off).mp rfl with ⟨hSplits, hProp⟩
      constructor
      · intro hStored
        exact ⟨hSplits, off, hProp, hStored⟩
      · rintro ⟨_, off', hProp', hStored⟩
        rw [hProp.unique hProp']
        exact hStored

/- A name is found exactly if a value is stored under it. -/
theorem lookup_ne_none_iff
    (hSound : pa.Sound home)
    (name : List Char) :
    pa.lookup name ≠ none ↔
      Splits name ∧
      ∃ off, pa.PropAt (nameParts name) off := by
  rw [Option.ne_none_iff_exists']
  simp only [lookup_eq_some_iff hSound]
  constructor
  · rintro ⟨value, hSplits, off, hProp, _⟩
    exact ⟨hSplits, off, hProp⟩
  · rintro ⟨hSplits, off, hProp⟩
    rcases (hSound.leadsTo hProp).stored_isSome with
      ⟨value, hStored⟩
    exact ⟨value, hSplits, off, hProp, hStored⟩

end PropArea

end Resetprop

end Universal7420

------------------------------------------------------------
-- Adding And Deleting
------------------------------------------------------------

namespace Universal7420

namespace Resetprop

open LinkedTrie

namespace PropArea

variable {pa pa' : PropArea}
variable {home home' : Nat → List (List Char)}

/- A value does not change while its objects stay. -/
theorem stored_mono
    (hKeep :
      ∀ a obj,
        (∀ node, obj ≠ .bt node) →
        pa.data a = some obj →
        pa'.data a = some obj)
    {off : Nat}
    {value : List Char}
    (hStored : pa.stored off = some value) :
    pa'.stored off = some value := by
  unfold stored at hStored ⊢
  cases hInfo : pa.infoAt off with
  | none => simp [hInfo] at hStored
  | some info =>
      rw [hInfo] at hStored
      have hThere :=
        hKeep off _ (by simp) (infoAt_eq_some_iff.mp hInfo)
      rw [infoAt_eq_some_iff.mpr hThere]
      by_cases hFlag : info.isLong = true
      · simp only [hFlag, if_true] at hStored ⊢
        split at hStored
        · rename_i text hText
          have hText' := hKeep _ _ (by simp) hText
          rw [hText']
          exact hStored
        · cases hStored
      · simpa [hFlag] using hStored

/- The same paths with the same properties are the same map. -/
theorem lookup_eq_of_propAt
    (hSound : pa.Sound home)
    (hSound' : pa'.Sound home')
    (hKeep :
      ∀ a obj,
        (∀ node, obj ≠ .bt node) →
        pa.data a = some obj →
        pa'.data a = some obj)
    {name : List Char}
    (hProp :
      ∀ off,
        pa'.PropAt (nameParts name) off ↔
          pa.PropAt (nameParts name) off) :
    pa'.lookup name = pa.lookup name := by
  cases hOld : pa.lookup name with
  | some value =>
      rw [lookup_eq_some_iff hSound] at hOld
      rcases hOld with ⟨hSplits, off, hThere, hStored⟩
      rw [lookup_eq_some_iff hSound']
      exact
        ⟨hSplits, off, (hProp off).mpr hThere,
          stored_mono hKeep hStored⟩
  | none =>
      apply Classical.byContradiction
      intro hNew
      rcases (lookup_ne_none_iff hSound' name).mp hNew with
        ⟨hSplits, off, hThere⟩
      refine
        (lookup_ne_none_iff hSound name).mpr
          ⟨hSplits, off, (hProp off).mp hThere⟩ hOld

/- Nodes do not change the map. -/
theorem Grown.lookup_eq
    (hGrown : Grown pa pa')
    (hSound : pa.Sound home)
    (hSound' : pa'.Sound home')
    (name : List Char) :
    pa'.lookup name = pa.lookup name := by
  refine
    lookup_eq_of_propAt hSound hSound' ?_
      (hGrown.propAt (nameParts name))
  intro a obj hObj hData
  cases obj with
  | bt node => exact absurd rfl (hObj node)
  | info prop => exact (hGrown.info a prop).mpr hData
  | text chars => exact (hGrown.text a chars).mpr hData

/- The room for the property of a name. -/
def propRoom (name value : List Char) : Nat :=
  infoRoom name +
    if propValueMax ≤ value.length then
      textRoom value
    else
      0

theorem ofValue_isLong
    (name value : List Char) :
    (PropInfo.ofValue name value).isLong = false := by
  have hBit : ¬ value.length * 2 ^ 24 / 2 ^ 16 % 2 = 1 := by
    omega
  exact decide_eq_false hBit

theorem ofOffset_isLong
    (name : List Char)
    (longOffset : Nat) :
    (PropInfo.ofOffset name longOffset).isLong = true := by
  have hLength : PropInfo.kLongLegacyError.length = 50 := by
    decide
  simp [PropInfo.isLong, PropInfo.ofOffset, hLength,
    PropInfo.kLongFlag]

theorem stored_of_short
    {off : Nat}
    {info : PropInfo}
    (hInfo : pa.data off = some (.info info))
    (hShort : info.isLong = false) :
    pa.stored off = some info.value := by
  unfold stored
  rw [infoAt_eq_some_iff.mpr hInfo]
  simp [hShort]

theorem stored_of_long
    {off : Nat}
    {info : PropInfo}
    {text : List Char}
    (hInfo : pa.data off = some (.info info))
    (hLong : info.isLong = true)
    (hText : pa.data (off + info.offset) = some (.text text)) :
    pa.stored off = some text := by
  unfold stored
  rw [infoAt_eq_some_iff.mpr hInfo]
  simp [hLong, hText]

/- A property that was made but is not linked yet. -/
structure Prepared
    (pa : PropArea)
    (home : Nat → List (List Char))
    (name value : List Char)
    (off : Nat)
    (pa' : PropArea) :
    Prop where
  sound : pa'.Sound home
  serial : pa'.serial = pa.serial
  dataSize : pa'.dataSize = pa.dataSize
  positive : off ≠ 0
  node : ∀ a, pa'.btAt a = pa.btAt a
  keep :
    ∀ a obj,
      pa.data a = some obj → pa'.data a = some obj
  leads :
    Splits name → pa'.LeadsTo off (nameParts name)
  stored : pa'.stored off = some value
  infos :
    value.length < propValueMax →
    ∀ a info,
      pa'.data a = some (.info info) →
      pa.data a = some (.info info) ∨
      info = PropInfo.ofValue name value

theorem Prepared.short
    (hSound : pa.Sound home)
    {name value : List Char}
    (hRoom : pa.bytesUsed + infoRoom name ≤ pa.dataSize) :
    Prepared pa home name value pa.bytesUsed
      (pa.withObj
        (.info (PropInfo.ofValue name value))
        (infoRoom name)) where
  sound :=
    hSound.withObj (by simp) (le_align _) hRoom
  serial := rfl
  dataSize := rfl
  positive := by
    have hPositive := hSound.linked.positive
    omega
  node := hSound.withObj_btAt (by simp) _
  keep := fun a obj hData =>
    hSound.withObj_data_old _ hData
  leads := by
    intro hSplits
    refine
      ⟨PropInfo.ofValue name value, ?_, rfl, hSplits, ?_⟩
    · rw [withObj_data, if_pos rfl]
    · intro hLong
      rw [ofValue_isLong] at hLong
      cases hLong
  stored :=
    stored_of_short
      (by rw [withObj_data, if_pos rfl])
      (ofValue_isLong name value)
  infos := by
    intro _ a info hThere
    rw [withObj_data] at hThere
    split at hThere
    · cases hThere
      exact Or.inr rfl
    · exact Or.inl hThere

theorem Prepared.long
    (hSound : pa.Sound home)
    {name value : List Char}
    (hLong : propValueMax ≤ value.length)
    (hRoom :
      pa.bytesUsed + infoRoom name + textRoom value ≤
        pa.dataSize) :
    Prepared pa home name value pa.bytesUsed
      ((pa.withObj
        (.info (PropInfo.ofOffset name (infoRoom name)))
        (infoRoom name)).withObj
          (.text value) (textRoom value)) := by
  generalize hObj :
    Obj.info (PropInfo.ofOffset name (infoRoom name)) = obj
  have hNode : ∀ node, obj ≠ .bt node := by
    rw [← hObj]
    simp
  have hSize : obj.size ≤ infoRoom name := by
    rw [← hObj]
    exact le_align _
  have hFirst :
      (pa.withObj obj (infoRoom name)).Sound home :=
    hSound.withObj hNode hSize (by omega)
  have hInfo :
      ((pa.withObj obj (infoRoom name)).withObj
        (.text value) (textRoom value)).data pa.bytesUsed =
          some obj :=
    hFirst.withObj_data_old _
      (by rw [withObj_data, if_pos rfl])
  have hText :
      ((pa.withObj obj (infoRoom name)).withObj
        (.text value) (textRoom value)).data
          (pa.bytesUsed + infoRoom name) =
            some (.text value) := by
    rw [withObj_data]
    exact if_pos rfl
  subst hObj
  refine
    { sound := hFirst.withObj (by simp) (le_align _) hRoom
      serial := rfl
      dataSize := rfl
      positive := ?_
      node := ?_
      keep := ?_
      leads := ?_
      stored := ?_
      infos := fun hShort => by omega }
  · have hPositive := hSound.linked.positive
    omega
  · intro a
    rw [hFirst.withObj_btAt (by simp),
      hSound.withObj_btAt hNode]
  · intro a old hData
    exact
      hFirst.withObj_data_old _
        (hSound.withObj_data_old _ hData)
  · intro hSplits
    exact ⟨_, hInfo, rfl, hSplits, fun _ => ⟨value, hText⟩⟩
  · exact stored_of_long hInfo (ofOffset_isLong _ _) hText

/- A property is made, or there is no room for it. -/
theorem newPropInfo_spec
    (hSound : pa.Sound home)
    (name value : List Char) :
    (∃ off pa',
      pa.newPropInfo name value = (some off, pa') ∧
      Prepared pa home name value off pa') ∨
    (∃ pa',
      pa.newPropInfo name value = (none, pa') ∧
      pa'.Sound home ∧
      Grown pa pa' ∧
      pa.dataSize < pa.bytesUsed + propRoom name value) := by
  rw [newPropInfo_eq]
  unfold propRoom
  by_cases hInfo :
      pa.dataSize < pa.bytesUsed + infoRoom name
  · right
    rw [if_pos hInfo]
    exact
      ⟨pa, rfl, hSound, Grown.refl pa, by omega⟩
  · rw [if_neg hInfo]
    by_cases hLong : propValueMax ≤ value.length
    · rw [if_pos hLong, if_pos hLong]
      by_cases hText :
          pa.dataSize <
            pa.bytesUsed + infoRoom name + textRoom value
      · -- The room of the property is lost.
        right
        rw [if_pos hText]
        refine
          ⟨pa.skip (infoRoom name), rfl,
            hSound.skip (by omega), ?_, by omega⟩
        exact
          { serial := rfl
            dataSize := rfl
            bytesUsed := Nat.le_add_right _ _
            walk := fun _ _ hWalk => hWalk
            propAt := fun _ _ => Iff.rfl
            info := fun _ _ => Iff.rfl
            text := fun _ _ => Iff.rfl }
      · left
        rw [if_neg hText]
        exact
          ⟨_, _, rfl, Prepared.long hSound hLong (by omega)⟩
    · left
      rw [if_neg hLong]
      exact ⟨_, _, rfl, Prepared.short hSound (by omega)⟩

/- Linking a property that was made stores it. -/
theorem Prepared.setProp
    {name value : List Char}
    {off x : Nat}
    {bt : PropBt}
    (hPrepared : Prepared pa home name value off pa')
    (hSound : pa.Sound home)
    (hSplits : Splits name)
    (hBt : pa.btAt x = some bt)
    (hWalk :
      Walk cmpPropName pa.cells 0 (nameParts name) x) :
    (pa'.setProp x off).Sound home ∧
    ∀ n,
      (pa'.setProp x off).lookup n =
        if n = name then some value else pa.lookup n := by
  have hSound' := hPrepared.sound
  have hBt' : pa'.btAt x = some bt := by
    rw [hPrepared.node]
    exact hBt
  have hCells : pa'.cells = pa.cells := by
    funext a
    unfold cells
    rw [hPrepared.node]
  have hPath : nameParts name = pathOf home x bt.name := by
    rw [← hCells] at hWalk
    exact (hSound'.walk_iff_path hBt' _).mp hWalk
  have hSet : (pa'.setProp x off).Sound home := by
    refine hSound'.setProp hBt' ?_
    intro _
    rw [← hPath]
    exact hPrepared.leads hSplits
  have hKeep :
      ∀ a obj,
        (∀ node, obj ≠ .bt node) →
        pa'.data a = some obj →
        (pa'.setProp x off).data a = some obj :=
    fun a obj hObj hData =>
      (setProp_data_iff hBt' hObj off a).mpr hData
  have hProp :
      ∀ path o, pa'.PropAt path o ↔ pa.PropAt path o := by
    intro path o
    unfold PropAt
    rw [hCells]
    simp only [hPrepared.node]
  refine ⟨hSet, ?_⟩
  intro n
  split
  · rename_i hSame
    subst hSame
    rw [lookup_eq_some_iff hSet]
    refine
      ⟨hSplits, off, ?_, stored_mono hKeep hPrepared.stored⟩
    rw [hSound'.setProp_propAt hBt', if_pos hPath]
    exact ⟨rfl, hPrepared.positive⟩
  · rename_i hOther
    refine lookup_eq_of_propAt hSound hSet ?_ ?_
    · intro a obj hObj hData
      exact hKeep a obj hObj (hPrepared.keep a obj hData)
    · intro off'
      rw [hSound'.setProp_propAt hBt', if_neg]
      · exact hProp _ off'
      · rw [← hPath]
        intro hParts
        exact hOther (nameParts_injective hParts)

/- What `add` answers, and the map after it. -/
structure Added
    (pa : PropArea)
    (name value : List Char)
    (ok : Bool)
    (pa' : PropArea) :
    Prop where
  sound : ∃ home', pa'.Sound home'
  serial : pa'.serial = pa.serial
  dataSize : pa'.dataSize = pa.dataSize
  infos :
    value.length < propValueMax →
    ∀ a info,
      pa'.data a = some (.info info) →
      pa.data a = some (.info info) ∨
      info = PropInfo.ofValue name value
  done :
    ok = true →
    Splits name ∧
    ∀ n,
      pa'.lookup n =
        if n = name ∧ pa.lookup name = none then
          some value
        else
          pa.lookup n
  failed :
    ok = false →
    (∀ n, pa'.lookup n = pa.lookup n) ∧
    pa.lookup name = none ∧
    (Splits name →
      pa.dataSize <
        pa.bytesUsed + partsRoom (nameParts name) +
          propRoom name value)

/- An addition that fails has made nodes at most. -/
theorem Added.of_failed
    {name value : List Char}
    (hSound : pa.Sound home)
    (hSound' : pa'.Sound home')
    (hGrown : Grown pa pa')
    (hNone : pa.lookup name = none)
    (hFull :
      Splits name →
      pa.dataSize <
        pa.bytesUsed + partsRoom (nameParts name) +
          propRoom name value) :
    Added pa name value false pa' where
  sound := ⟨home', hSound'⟩
  serial := hGrown.serial
  dataSize := hGrown.dataSize
  infos := fun _ a info hThere =>
    Or.inl ((hGrown.info a info).mp hThere)
  done := by
    intro hTrue
    cases hTrue
  failed := fun _ =>
    ⟨hGrown.lookup_eq hSound hSound', hNone, hFull⟩

/- A name that is there keeps its value. -/
theorem Added.of_present
    {name : List Char}
    (value : List Char)
    (hSound : pa.Sound home)
    (hSound' : pa'.Sound home')
    (hGrown : Grown pa pa')
    (hThere : pa.lookup name ≠ none) :
    Added pa name value true pa' where
  sound := ⟨home', hSound'⟩
  serial := hGrown.serial
  dataSize := hGrown.dataSize
  infos := fun _ a info hThere =>
    Or.inl ((hGrown.info a info).mp hThere)
  done := by
    intro _
    refine
      ⟨((lookup_ne_none_iff hSound name).mp hThere).1, ?_⟩
    intro n
    rw [if_neg (fun hNew => hThere hNew.2)]
    exact hGrown.lookup_eq hSound hSound' n
  failed := by
    intro hFalse
    cases hFalse

/- The node of the name had no property. -/
theorem lookup_eq_none_of_prop
    (hSound : pa.Sound home)
    {name : List Char}
    {x : Nat}
    {bt : PropBt}
    (hWalk :
      Walk cmpPropName pa.cells 0 (nameParts name) x)
    (hBt : pa.btAt x = some bt)
    (hProp : bt.prop = 0) :
    pa.lookup name = none := by
  apply Classical.byContradiction
  intro hThere
  rcases (lookup_ne_none_iff hSound name).mp hThere with
    ⟨_, off, y, bt', hWalk', hBt', hOff, hNe⟩
  have hHere : x = y := hWalk.unique hWalk'
  subst hHere
  rw [hBt] at hBt'
  cases hBt'
  exact hNe (hOff.symm.trans hProp)

theorem add_spec
    (hSound : pa.Sound home)
    (name value : List Char) :
    ∃ ok pa',
      pa.add name value = some (ok, pa') ∧
      Added pa name value ok pa' := by
  rcases findRoot_alloc_spec hSound name with
    ⟨r, pa₁, hFind, hReserved⟩
  rcases hReserved.sound with ⟨home₁, hSound₁⟩
  have hSame :=
    hReserved.grown.lookup_eq hSound hSound₁
  unfold add findProperty
  rw [hFind]
  cases r with
  | none =>
      refine ⟨false, pa₁, rfl, ?_⟩
      refine .of_failed hSound hSound₁ hReserved.grown ?_ ?_
      · apply Classical.byContradiction
        intro hThere
        rcases (lookup_ne_none_iff hSound name).mp hThere with
          ⟨hSplits, off, x, bt, hWalk, _⟩
        have hFound :=
          (hReserved.present x hSplits hWalk).1
        cases hFound
      · intro hSplits
        have hFull := hReserved.full rfl hSplits
        omega
  | some x =>
      rcases hReserved.node x rfl with ⟨hSplits, hWalk⟩
      rw [List.nil_append] at hWalk
      rcases hSound₁.bt_of_walk hWalk with ⟨bt, hBt⟩
      dsimp only
      rw [hBt]
      by_cases hProp : bt.prop = 0
      · have hNone : pa.lookup name = none := by
          rw [← hSame]
          exact
            lookup_eq_none_of_prop hSound₁ hWalk hBt hProp
        simp only [hProp, ne_eq, not_true_eq_false, if_false,
          if_true]
        rcases newPropInfo_spec hSound₁ name value with
          ⟨off, pa₂, hNew, hPrepared⟩ |
          ⟨pa₂, hNew, hSound₂, hGrown, hFull⟩
        · rw [hNew]
          rcases
            hPrepared.setProp hSound₁ hSplits hBt hWalk with
            ⟨hSound₂, hLookup⟩
          refine ⟨true, pa₂.setProp x off, rfl, ?_⟩
          refine
            { sound := ⟨home₁, hSound₂⟩
              serial := ?_
              dataSize := ?_
              infos := ?_
              done := ?_
              failed := by
                intro hFalse
                cases hFalse }
          · rw [setProp_serial, hPrepared.serial]
            exact hReserved.grown.serial
          · rw [setProp_dataSize, hPrepared.dataSize]
            exact hReserved.grown.dataSize
          · intro hShort a info hThere
            have hBt₂ : pa₂.btAt x = some bt := by
              rw [hPrepared.node]
              exact hBt
            rw [setProp_data_iff hBt₂ (by simp)] at hThere
            rcases hPrepared.infos hShort a info hThere with
              hOld | hNew
            · exact
                Or.inl
                  ((hReserved.grown.info a info).mp hOld)
            · exact Or.inr hNew
          · intro _
            refine ⟨hSplits, ?_⟩
            intro n
            simp only [hLookup, hSame, hNone, and_true]
        · rw [hNew]
          refine ⟨false, pa₂, rfl, ?_⟩
          refine
            .of_failed hSound hSound₂
              (hReserved.grown.trans hGrown) hNone ?_
          intro _
          have hUsed := hReserved.used
          rw [hReserved.grown.dataSize] at hFull
          omega
      · have hPropAt :
            pa₁.PropAt (nameParts name) bt.prop :=
          ⟨x, bt, hWalk, hBt, rfl, hProp⟩
        refine ⟨true, pa₁, ?_, ?_⟩
        · simp [hProp, hSound₁.prop_within hPropAt]
        · refine
            .of_present value hSound hSound₁ hReserved.grown
              ?_
          rw [← hSame]
          exact
            (lookup_ne_none_iff hSound₁ name).mpr
              ⟨hSplits, bt.prop, hPropAt⟩

/- The node loses its property, also if it has none. -/
theorem del_spec
    (hSound : pa.Sound home)
    (name : List Char) :
    ∃ ok pa',
      pa.del name = some (ok, pa') ∧
      pa'.Sound home ∧
      pa'.serial = pa.serial ∧
      pa'.dataSize = pa.dataSize ∧
      pa'.bytesUsed = pa.bytesUsed ∧
      (∀ a info,
        pa'.data a = some (.info info) ↔
          pa.data a = some (.info info)) ∧
      (pa.lookup name ≠ none → ok = true) ∧
      ∀ n,
        pa'.lookup n =
          if n = name then none else pa.lookup n := by
  rcases findRoot_spec hSound name with ⟨r, hFind, hThere⟩
  unfold del
  rw [hFind]
  cases r with
  | none =>
      have hNone : pa.lookup name = none := by
        apply Classical.byContradiction
        intro hSome
        rcases (lookup_ne_none_iff hSound name).mp hSome with
          ⟨hSplits, off, x, bt, hWalk, _⟩
        have hFound := (hThere x).mpr ⟨hSplits, hWalk⟩
        cases hFound
      refine
        ⟨false, pa, rfl, hSound, rfl, rfl, rfl,
          fun _ _ => Iff.rfl, ?_, ?_⟩
      · intro hSome
        exact absurd hNone hSome
      · intro n
        split
        · rename_i hSame
          rw [hSame]
          exact hNone
        · rfl
  | some x =>
      rcases (hThere x).mp rfl with ⟨hSplits, hWalk⟩
      rcases hSound.bt_of_walk hWalk with ⟨bt, hBt⟩
      have hSet : (pa.setProp x 0).Sound home :=
        hSound.setProp hBt (fun hNe => absurd rfl hNe)
      have hPath :
          nameParts name = pathOf home x bt.name :=
        (hSound.walk_iff_path hBt _).mp hWalk
      refine
        ⟨true, pa.setProp x 0, rfl, hSet, setProp_serial _ _ _,
          setProp_dataSize _ _ _, setProp_bytesUsed _ _ _,
          fun a info => setProp_data_iff hBt (by simp) 0 a,
          fun _ => rfl, ?_⟩
      intro n
      split
      · rename_i hSame
        subst hSame
        apply Classical.byContradiction
        intro hSome
        rcases (lookup_ne_none_iff hSet n).mp hSome with
          ⟨_, off, hProp⟩
        rw [hSound.setProp_propAt hBt, if_pos hPath] at hProp
        exact hProp.2 rfl
      · rename_i hOther
        refine lookup_eq_of_propAt hSound hSet ?_ ?_
        · intro a obj hObj hData
          exact (setProp_data_iff hBt hObj 0 a).mpr hData
        · intro off
          rw [hSound.setProp_propAt hBt, if_neg]
          rw [← hPath]
          intro hParts
          exact hOther (nameParts_injective hParts)

end PropArea

end Resetprop

end Universal7420

------------------------------------------------------------
-- Visiting The Properties
------------------------------------------------------------

namespace Universal7420

namespace Resetprop

open LinkedTrie

namespace PropArea

/- The property of a node, if it has one. -/
def live
    (pa : PropArea)
    (x : Nat) :
    Option Nat :=
  match pa.btAt x with
  | none => none
  | some bt => if bt.prop = 0 then none else some bt.prop

/- The name of a property. -/
def nameAt
    (pa : PropArea)
    (off : Nat) :
    Option (List Char) :=
  (pa.infoAt off).map PropInfo.name

variable {pa : PropArea}
variable {home : Nat → List (List Char)}

theorem live_eq_some_iff
    {x off : Nat} :
    pa.live x = some off ↔
      ∃ bt, pa.btAt x = some bt ∧ bt.prop = off ∧ off ≠ 0 := by
  unfold live
  cases hBt : pa.btAt x with
  | none => simp
  | some bt =>
      by_cases hProp : bt.prop = 0
      · simp only [hProp, if_true, reduceCtorEq,
          Option.some.injEq, false_iff]
        rintro ⟨bt', rfl, hOff, hNe⟩
        exact hNe (hOff.symm.trans hProp)
      · simp only [hProp, if_false, Option.some.injEq]
        constructor
        · rintro rfl
          exact ⟨bt, rfl, rfl, hProp⟩
        · rintro ⟨bt', rfl, hOff, _⟩
          exact hOff

/- The visit follows the traversal of the trie. -/
theorem foreachProperty_eq
    (hSound : pa.Sound home)
    (fuel : Nat)
    {a : Nat}
    {bt : PropBt}
    (hBt : pa.btAt a = some bt)
    (hFuel : pa.bytesUsed - a < fuel) :
    pa.foreachProperty fuel (some a) =
      some
        (true,
          (inorder pa.cells fuel a).filterMap pa.live) := by
  induction fuel generalizing a bt with
  | zero => omega
  | succ fuel ih =>
      have hCell := cell_of_btAt hBt
      have hWithin := hSound.within
      have hSubtree :
          ∀ l,
            (if bt.link l ≠ 0 then
              (foreachProperty pa fuel
                (pa.toPropObj (bt.link l))).map Prod.snd
            else
              some []) =
            some
              ((branch pa.cells fuel bt.cell l).filterMap
                pa.live) := by
        intro l
        unfold branch
        change _ =
          some
            ((if bt.link l = 0 then
              []
            else
              inorder pa.cells fuel (bt.link l)).filterMap
                pa.live)
        by_cases hLink : bt.link l = 0
        · simp [hLink]
        · rcases hSound.linked.target a _ l hCell hLink with
            ⟨c, hTarget⟩
          rcases cells_eq_some_iff.mp hTarget with
            ⟨node, hThere, _⟩
          change pa.btAt (bt.link l) = some node at hThere
          have hUp :=
            hSound.linked.younger a _ l hCell hLink
          change a < bt.link l at hUp
          have hBelow := hSound.bt_old hThere
          rw [if_pos hLink, if_neg hLink]
          rw [toPropObj_eq_some (by omega)]
          rw [ih hThere (by omega)]
          rfl
      rw [inorder_of_cell fuel hCell, foreachProperty, hBt]
      dsimp only
      rw [hSubtree, hSubtree, hSubtree]
      by_cases hProp : bt.prop = 0
      · simp [hProp, live, hBt, List.filterMap_append]
      · have hPropAt :
            pa.PropAt (pathOf home a bt.name) bt.prop :=
          ⟨a, bt,
            (hSound.walk_iff_path hBt _).mpr rfl, hBt, rfl,
            hProp⟩
        simp [hProp, live, hBt, List.filterMap_append,
          hSound.prop_within hPropAt]

/- A node with a property has the path of its name. -/
theorem Sound.live_path
    (hSound : pa.Sound home)
    {x off : Nat}
    (hLive : pa.live x = some off) :
    ∃ info,
      pa.infoAt off = some info ∧
      Splits info.name ∧
      Walk cmpPropName pa.cells 0 (nameParts info.name) x ∧
      pa.PropAt (nameParts info.name) off := by
  rcases live_eq_some_iff.mp hLive with
    ⟨bt, hBt, hProp, hNe⟩
  have hWalk := (hSound.walk_iff_path hBt _).mpr rfl
  have hPropAt : pa.PropAt (pathOf home x bt.name) off :=
    ⟨x, bt, hWalk, hBt, hProp, hNe⟩
  rcases hSound.leadsTo hPropAt with
    ⟨info, hInfo, hName, hSplits, _⟩
  rw [← hName] at hWalk hPropAt
  exact
    ⟨info, infoAt_eq_some_iff.mpr hInfo, hSplits, hWalk,
      hPropAt⟩

/- Every property is visited once, and nothing else is. -/
theorem foreach_spec
    (hSound : pa.Sound home) :
    ∃ offs,
      pa.foreach = some (true, offs) ∧
      (offs.map pa.nameAt).Nodup ∧
      ∀ off,
        off ∈ offs ↔
          ∃ name,
            pa.nameAt off = some name ∧
            pa.find name = some (some off) := by
  rcases hSound.root_bt with ⟨root, hRoot⟩
  have hWithin := hSound.within
  have hEq :=
    foreachProperty_eq hSound (pa.dataSize + 1) hRoot
      (by omega)
  refine ⟨_, hEq, ?_, ?_⟩
  · have hNodup :
        (inorder pa.cells (pa.dataSize + 1) 0).Nodup :=
      nodup_inorder hSound.linked _ (cell_of_btAt hRoot)
        (by omega)
    refine List.Nodup.map_on ?_ (hNodup.filterMap ?_)
    · intro off hIn off' hIn' hSame
      rw [List.mem_filterMap] at hIn hIn'
      rcases hIn with ⟨x, _, hLive⟩
      rcases hIn' with ⟨x', _, hLive'⟩
      rcases hSound.live_path hLive with
        ⟨info, hInfo, _, _, hProp⟩
      rcases hSound.live_path hLive' with
        ⟨info', hInfo', _, _, hProp'⟩
      have hName : info.name = info'.name := by
        simpa [nameAt, hInfo, hInfo'] using hSame
      rw [hName] at hProp
      exact hProp.unique hProp'
    · intro x x' off hLive hLive'
      rcases hSound.live_path hLive with
        ⟨info, hInfo, _, hWalk, _⟩
      rcases hSound.live_path hLive' with
        ⟨info', hInfo', _, hWalk', _⟩
      rw [hInfo] at hInfo'
      cases hInfo'
      exact hWalk.unique hWalk'
  · intro off
    rw [List.mem_filterMap]
    constructor
    · rintro ⟨x, _, hLive⟩
      rcases hSound.live_path hLive with
        ⟨info, hInfo, hSplits, _, hProp⟩
      rcases find_spec hSound info.name with
        ⟨r, hFind, hThere⟩
      refine ⟨info.name, by simp [nameAt, hInfo], ?_⟩
      rw [hFind, (hThere off).mpr ⟨hSplits, hProp⟩]
    · rintro ⟨name, _, hFind⟩
      rcases find_spec hSound name with ⟨r, hFind', hThere⟩
      rw [hFind'] at hFind
      cases hFind
      rcases (hThere off).mp rfl with
        ⟨_, x, bt, _, hBt, hProp, hNe⟩
      refine ⟨x, ?_, live_eq_some_iff.mpr
        ⟨bt, hBt, hProp, hNe⟩⟩
      rw [mem_inorder_root hSound.linked (by omega)]
      exact ⟨bt.cell, cell_of_btAt hBt⟩

end PropArea

end Resetprop

end Universal7420

------------------------------------------------------------
-- Runs
------------------------------------------------------------

namespace Universal7420

namespace Resetprop

open LinkedTrie

/- The operations that write an area. -/
inductive AreaOp where
| add (name value : List Char)
| del (name : List Char)
deriving DecidableEq, Repr

def AreaOp.apply
    (pa : PropArea) :
    AreaOp → Option (Bool × PropArea)
| .add name value => pa.add name value
| .del name => pa.del name

def AreaOp.name : AreaOp → List Char
| .add name _ => name
| .del name => name

/- The answers to a list of operations, and the area. -/
def runOps
    (pa : PropArea) :
    List AreaOp → Option (List Bool × PropArea)
| [] => some ([], pa)
| op :: ops => do
    let (ok, next) ← op.apply pa
    let (oks, last) ← runOps next ops
    return (ok :: oks, last)

/- What an answered operation does to a map. -/
def record
    (m : List Char → Option (List Char)) :
    AreaOp × Bool → List Char → Option (List Char)
| (_, false), n => m n
| (.add name value, true), n =>
    if n = name ∧ m name = none then some value else m n
| (.del name, true), n => if n = name then none else m n

/- The map that answered operations make. -/
def contents
    (ops : List (AreaOp × Bool)) :
    List Char → Option (List Char) :=
  ops.foldl record fun _ => none

/- A fresh area has a root without children. -/
theorem ofDataSize_cells
    {dataSize a : Nat}
    {c : Cell (List Char) Nat}
    (hCell :
      (PropArea.ofDataSize dataSize).cells a = some c) :
    a = 0 ∧ c = bare [] 0 := by
  rcases PropArea.cells_eq_some_iff.mp hCell with
    ⟨bt, hBt, rfl⟩
  rw [PropArea.btAt_eq_some_iff] at hBt
  simp only [PropArea.ofDataSize] at hBt
  split at hBt
  · rename_i hRoot
    cases hBt
    exact ⟨hRoot, PropArea.new_cell []⟩
  · cases hBt

theorem ofDataSize_sound
    {dataSize : Nat}
    (hRoom : sizeofPropBt ≤ dataSize) :
    (PropArea.ofDataSize dataSize).Sound fun _ => [] := by
  have hRoot :
      (PropArea.ofDataSize dataSize).cells 0 =
        some (bare [] 0) := by
    rw [← PropArea.new_cell]
    exact
      PropArea.cell_of_btAt
        (PropArea.btAt_eq_some_iff.mpr rfl)
  have hData :
      ∀ off obj,
        (PropArea.ofDataSize dataSize).data off = some obj →
        off = 0 ∧ obj = .bt (PropBt.new []) := by
    intro off obj hThere
    simp only [PropArea.ofDataSize] at hThere
    split at hThere
    · rename_i hAt
      cases hThere
      exact ⟨hAt, rfl⟩
    · cases hThere
  refine
    { linked :=
        { root := ⟨_, hRoot, rfl, rfl⟩
          home_root := rfl
          bounded := ?_
          younger := ?_
          target := ?_
          home_target := ?_
          found := ?_
          owner := ?_ }
      within := hRoom
      used := ?_
      apart := ?_
      props := ?_ }
  · intro a c hCell
    rcases ofDataSize_cells hCell with ⟨rfl, _⟩
    change 0 < sizeofPropBt
    simp [sizeofPropBt]
  · intro a c l hCell hLink
    rcases ofDataSize_cells hCell with ⟨_, rfl⟩
    exact absurd rfl hLink
  · intro a c l hCell hLink
    rcases ofDataSize_cells hCell with ⟨_, rfl⟩
    exact absurd rfl hLink
  · intro a c l hCell hLink
    rcases ofDataSize_cells hCell with ⟨_, rfl⟩
    exact absurd rfl hLink
  · intro a c hCell
    rcases ofDataSize_cells hCell with ⟨rfl, _⟩
    exact .found hCell (by simp [move, pathOf])
  · intro a c l b d m hCell _ hLink _
    rcases ofDataSize_cells hCell with ⟨_, rfl⟩
    exact absurd rfl hLink
  · intro off obj hThere
    rcases hData off obj hThere with ⟨rfl, rfl⟩
    change 0 + sizeofPropBt ≤ sizeofPropBt
    omega
  · intro off obj off' obj' hThere hThere' hLess
    rcases hData off' obj' hThere' with ⟨rfl, _⟩
    omega
  · intro a bt hBt hProp
    rw [PropArea.btAt_eq_some_iff] at hBt
    rcases hData a _ hBt with ⟨_, hBare⟩
    cases hBare
    exact absurd rfl hProp

/- Nothing is stored in a fresh area. -/
theorem ofDataSize_lookup
    {dataSize : Nat}
    (hRoom : sizeofPropBt ≤ dataSize)
    (name : List Char) :
    (PropArea.ofDataSize dataSize).lookup name = none := by
  have hSound := ofDataSize_sound hRoom
  apply Classical.byContradiction
  intro hSome
  rcases (PropArea.lookup_ne_none_iff hSound name).mp
    hSome with ⟨_, off, x, bt, _, hBt, hProp, hNe⟩
  have hCell := PropArea.cell_of_btAt hBt
  rcases ofDataSize_cells hCell with ⟨_, hBare⟩
  have hZero : bt.cell.value = 0 := by
    rw [hBare]
    rfl
  exact hNe (hProp.symm.trans hZero)

variable {pa : PropArea}

/- Every operation answers, and is one on the map. -/
theorem apply_spec
    (hSound : ∃ home, pa.Sound home)
    (op : AreaOp) :
    ∃ ok next,
      op.apply pa = some (ok, next) ∧
      (∃ home, next.Sound home) ∧
      next.dataSize = pa.dataSize ∧
      (pa.lookup op.name ≠ none → ok = true) ∧
      ∀ n, next.lookup n = record pa.lookup (op, ok) n := by
  rcases hSound with ⟨home, hSound⟩
  cases op with
  | add name value =>
      rcases PropArea.add_spec hSound name value with
        ⟨ok, next, hApply, hAdded⟩
      refine
        ⟨ok, next, hApply, hAdded.sound, hAdded.dataSize, ?_,
          ?_⟩
      · intro hThere
        cases ok with
        | false => exact absurd (hAdded.failed rfl).2.1 hThere
        | true => rfl
      · intro n
        cases ok with
        | false => exact (hAdded.failed rfl).1 n
        | true => exact (hAdded.done rfl).2 n
  | del name =>
      rcases PropArea.del_spec hSound name with
        ⟨ok, next, hApply, hNext, _, hSize, _, _, hOk,
          hLookup⟩
      refine ⟨ok, next, hApply, ⟨home, hNext⟩, hSize, hOk, ?_⟩
      intro n
      cases ok with
      | false =>
          have hNone : pa.lookup name = none := by
            apply Classical.byContradiction
            intro hSome
            have hTrue := hOk hSome
            cases hTrue
          rw [hLookup]
          change _ = pa.lookup n
          split
          · rename_i hSame
            rw [hSame]
            exact hNone.symm
          · rfl
      | true => exact hLookup n

theorem runOps_spec
    (hSound : ∃ home, pa.Sound home)
    (ops : List AreaOp) :
    ∃ oks last,
      runOps pa ops = some (oks, last) ∧
      oks.length = ops.length ∧
      (∃ home, last.Sound home) ∧
      last.dataSize = pa.dataSize ∧
      last.lookup =
        (ops.zip oks).foldl record pa.lookup ∧
      ∀ before op ok after,
        ops.zip oks = before ++ (op, ok) :: after →
        before.foldl record pa.lookup op.name ≠ none →
        ok = true := by
  induction ops generalizing pa with
  | nil =>
      refine ⟨[], pa, rfl, rfl, hSound, rfl, rfl, ?_⟩
      intro before op ok after hSplit
      rw [List.zip_nil_left] at hSplit
      exact absurd hSplit.symm (by simp)
  | cons op ops ih =>
      rcases apply_spec hSound op with
        ⟨ok, next, hApply, hNext, hSize, hOk, hLookup⟩
      rcases ih hNext with
        ⟨oks, last, hRun, hLength, hLast, hSize', hMap,
          hAnswers⟩
      have hStep : next.lookup = record pa.lookup (op, ok) :=
        funext hLookup
      refine
        ⟨ok :: oks, last, ?_, ?_, hLast, hSize'.trans hSize,
          ?_, ?_⟩
      · rw [runOps, hApply]
        simp [hRun]
      · simp [hLength]
      · rw [hMap, hStep]
        rfl
      · intro before op' ok' after hSplit
        rw [List.zip_cons_cons] at hSplit
        cases before with
        | nil =>
            rcases List.cons.inj hSplit with ⟨hHead, _⟩
            cases hHead
            exact hOk
        | cons first before =>
            rcases List.cons.inj hSplit with ⟨hHead, hTail⟩
            rw [← hHead, List.foldl_cons, ← hStep]
            exact hAnswers before op' ok' after hTail

/- A run of operations on a fresh area. -/
theorem mapPropAreaRw_runOps
    (ops : List AreaOp) :
    ∃ oks pa,
      runOps PropArea.mapPropAreaRw ops = some (oks, pa) ∧
      oks.length = ops.length ∧
      (∃ home, pa.Sound home) ∧
      pa.dataSize = paSize - sizeofPropArea ∧
      pa.lookup = contents (ops.zip oks) ∧
      ∀ before op ok after,
        ops.zip oks = before ++ (op, ok) :: after →
        contents before op.name ≠ none →
        ok = true := by
  have hRoom : sizeofPropBt ≤ paSize - sizeofPropArea := by
    simp [sizeofPropBt, paSize, sizeofPropArea]
  have hStart :
      ∃ home, PropArea.mapPropAreaRw.Sound home :=
    ⟨_, ofDataSize_sound hRoom⟩
  have hFresh :
      PropArea.mapPropAreaRw.lookup = fun _ => none :=
    funext (ofDataSize_lookup hRoom)
  rcases runOps_spec hStart ops with
    ⟨oks, pa, hRun, hLength, hSound, hSize, hMap, hAnswers⟩
  rw [hFresh] at hMap hAnswers
  exact
    ⟨oks, pa, hRun, hLength, hSound, hSize, hMap, hAnswers⟩

/-
  Whatever is added and deleted, every operation answers, the
  area holds what a map would hold, and an operation on a name
  that the map holds at that time answers true.
-/
theorem runOps_lookup
    (ops : List AreaOp) :
    ∃ oks pa,
      runOps PropArea.mapPropAreaRw ops = some (oks, pa) ∧
      oks.length = ops.length ∧
      (∀ name,
        pa.lookup name = contents (ops.zip oks) name) ∧
      ∀ before op ok after,
        ops.zip oks = before ++ (op, ok) :: after →
        contents before op.name ≠ none →
        ok = true := by
  rcases mapPropAreaRw_runOps ops with
    ⟨oks, pa, hRun, hLength, _, _, hMap, hAnswers⟩
  exact
    ⟨oks, pa, hRun, hLength, fun name => by rw [hMap],
      hAnswers⟩

/-
  An addition fails only for a name with an empty part, or if
  the room for the whole name is missing.  It then changes no
  value, although nodes and lost room may stay behind.
-/
theorem runOps_add_fails
    (ops : List AreaOp)
    (name value : List Char) :
    ∃ oks pa ok pa',
      runOps PropArea.mapPropAreaRw ops = some (oks, pa) ∧
      pa.add name value = some (ok, pa') ∧
      (ok = true → Splits name ∧ pa'.lookup name ≠ none) ∧
      (ok = false →
        pa.lookup name = none ∧
        (∀ n, pa'.lookup n = pa.lookup n) ∧
        (¬ Splits name ∨
          paSize - sizeofPropArea <
            pa.bytesUsed +
              PropArea.partsRoom (nameParts name) +
              PropArea.propRoom name value)) := by
  rcases mapPropAreaRw_runOps ops with
    ⟨oks, pa, hRun, _, ⟨home, hSound⟩, hSize, _, _⟩
  rcases PropArea.add_spec hSound name value with
    ⟨ok, pa', hAdd, hAdded⟩
  refine ⟨oks, pa, ok, pa', hRun, hAdd, ?_, ?_⟩
  · intro hOk
    rcases hAdded.done hOk with ⟨hSplits, hLookup⟩
    refine ⟨hSplits, ?_⟩
    rw [hLookup]
    split
    · simp
    · rename_i hThere
      intro hNone
      exact hThere ⟨rfl, hNone⟩
  · intro hFail
    rcases hAdded.failed hFail with ⟨hSame, hNone, hFull⟩
    refine ⟨hNone, hSame, ?_⟩
    rw [hSize] at hFull
    by_cases hSplits : Splits name
    · exact Or.inr (hFull hSplits)
    · exact Or.inl hSplits

/-
  The properties that are visited are those that are found,
  and no name comes twice.
-/
theorem runOps_foreach
    (ops : List AreaOp) :
    ∃ oks pa offs,
      runOps PropArea.mapPropAreaRw ops = some (oks, pa) ∧
      pa.foreach = some (true, offs) ∧
      (offs.map pa.nameAt).Nodup ∧
      (∀ off,
        off ∈ offs ↔
          ∃ name,
            pa.nameAt off = some name ∧
            pa.find name = some (some off)) ∧
      ∀ name,
        some name ∈ offs.map pa.nameAt ↔
          contents (ops.zip oks) name ≠ none := by
  rcases mapPropAreaRw_runOps ops with
    ⟨oks, pa, hRun, _, ⟨home, hSound⟩, _, hMap, _⟩
  rcases PropArea.foreach_spec hSound with
    ⟨offs, hForeach, hNodup, hMem⟩
  refine ⟨oks, pa, offs, hRun, hForeach, hNodup, hMem, ?_⟩
  intro name
  rw [← hMap, PropArea.lookup_ne_none_iff hSound]
  rcases PropArea.find_spec hSound name with
    ⟨r, hFind, hThere⟩
  constructor
  · intro hIn
    rcases List.mem_map.mp hIn with ⟨off, hOff, hName⟩
    rcases (hMem off).mp hOff with ⟨n, hName', hFind'⟩
    rw [hName] at hName'
    cases hName'
    rw [hFind] at hFind'
    cases hFind'
    rcases (hThere off).mp rfl with ⟨hSplits, hProp⟩
    exact ⟨hSplits, off, hProp⟩
  · rintro ⟨hSplits, off, hProp⟩
    rcases hSound.leadsTo hProp with
      ⟨info, hInfo, hParts, _, _⟩
    have hName : pa.nameAt off = some name := by
      rw [← nameParts_injective hParts]
      simp [PropArea.nameAt,
        PropArea.infoAt_eq_some_iff.mpr hInfo]
    rw [List.mem_map]
    refine ⟨off, (hMem off).mpr ⟨name, hName, ?_⟩, hName⟩
    rw [hFind, (hThere off).mpr ⟨hSplits, hProp⟩]

/-
  The objects of an area do not overlap and end before the
  part that is free, links lead to nodes that are younger, and
  the pointer of a node leads to a property with the path of
  the node as its name.
-/
theorem runOps_layout
    (ops : List AreaOp) :
    ∃ oks pa,
      runOps PropArea.mapPropAreaRw ops = some (oks, pa) ∧
      pa.bytesUsed ≤ paSize - sizeofPropArea ∧
      (∀ off obj,
        pa.data off = some obj →
        off + obj.size ≤ pa.bytesUsed) ∧
      (∀ off obj off' obj',
        pa.data off = some obj →
        pa.data off' = some obj' →
        off < off' →
        off + obj.size ≤ off') ∧
      (∀ a bt l,
        pa.btAt a = some bt →
        bt.link l ≠ 0 →
        a < bt.link l ∧ ∃ node, pa.btAt (bt.link l) = some node) ∧
      (∀ a bt,
        pa.btAt a = some bt →
        bt.prop ≠ 0 →
        ∃ info,
          pa.infoAt bt.prop = some info ∧
          pa.findRoot info.name false = some (some a, pa)) := by
  rcases mapPropAreaRw_runOps ops with
    ⟨oks, pa, hRun, _, ⟨home, hSound⟩, hSize, _, _⟩
  have hWithin := hSound.within
  rw [hSize] at hWithin
  refine
    ⟨oks, pa, hRun, hWithin, hSound.used, hSound.apart, ?_,
      ?_⟩
  · intro a bt l hBt hLink
    have hCell := PropArea.cell_of_btAt hBt
    rcases hSound.linked.target a _ l hCell hLink with
      ⟨c, hTarget⟩
    rcases PropArea.cells_eq_some_iff.mp hTarget with
      ⟨node, hThere, _⟩
    exact
      ⟨hSound.linked.younger a _ l hCell hLink, node, hThere⟩
  · intro a bt hBt hProp
    have hLive : pa.live a = some bt.prop :=
      PropArea.live_eq_some_iff.mpr ⟨bt, hBt, rfl, hProp⟩
    rcases hSound.live_path hLive with
      ⟨info, hInfo, hSplits, hWalk, _⟩
    rcases PropArea.findRoot_spec hSound info.name with
      ⟨r, hFind, hThere⟩
    refine ⟨info, hInfo, ?_⟩
    rw [hFind, (hThere a).mpr ⟨hSplits, hWalk⟩]

end Resetprop

end Universal7420
