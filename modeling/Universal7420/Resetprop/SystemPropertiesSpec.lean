import Mathlib.Data.List.TakeWhile
import Universal7420.Resetprop.PropAreaMap
import Universal7420.Resetprop.SystemProperties

/-
  The calls of `resetprop.c` as operations on a map.

  A name that `check_legal_property_name` accepts has no empty
  part, so an area refuses it for lack of room only.  `Update`
  keeps the trie and stores the value in place; in its serial
  it counts the updates in steps of two, next to the flag of
  long values.  As long as the count stays below the flag and
  no value is long, every call is one on a map.

  Main declarations:
    * `Universal7420.Resetprop.legal_splits`
    * `Universal7420.Resetprop.propLine_eq_some_iff`
    * `Universal7420.Resetprop.PropInfo.Plain`
    * `Universal7420.Resetprop.runApi`
    * `Universal7420.Resetprop.runApi_getprop`
    * `Universal7420.Resetprop.runApi_setprop`
    * `Universal7420.Resetprop.readPropFile_getprop`
    * `Universal7420.Resetprop.updateMany_isLong_iff`
-/

------------------------------------------------------------
-- Legal Names
------------------------------------------------------------

namespace Universal7420

namespace Resetprop

/- The loop goes on behind a separator. -/
theorem legalFrom_after
    {last : Char}
    {before after : List Char}
    (hLegal : legalFrom last (before ++ '.' :: after) = true) :
    legalFrom '.' after = true := by
  induction before generalizing last with
  | nil =>
      simp only [List.nil_append, legalFrom, if_true] at hLegal
      split at hLegal
      · cases hLegal
      · exact hLegal
  | cons c before ih =>
      simp only [List.cons_append, legalFrom] at hLegal
      split at hLegal
      · split at hLegal
        · cases hLegal
        · exact ih hLegal
      · split at hLegal
        · exact ih hLegal
        · cases hLegal

theorem legalFrom_head
    {rest : List Char}
    (hLegal : legalFrom '.' rest = true) :
    rest.head? ≠ some '.' := by
  rcases rest with _ | ⟨c, rest⟩
  · simp
  · intro hDot
    simp only [List.head?_cons, Option.some.injEq] at hDot
    simp [legalFrom, hDot] at hLegal

/- Between separators that are apart, no part is empty. -/
theorem splits_of_legalFrom
    {last : Char}
    (name : List Char)
    (hLegal : legalFrom last name = true)
    (hSome : name ≠ [])
    (hHead : name.head? ≠ some '.')
    (hLast : name.getLast? ≠ some '.') :
    Splits name := by
  induction hLength : name.length using Nat.strongRecOn
    generalizing name last with
  | ind length ih =>
    cases hSep : CText.strchr '.' name with
    | none =>
        rw [CText.strchr_eq_none_iff] at hSep
        simp [Splits, nameParts,
          List.splitOn_eq_singleton hSep, Ne.symm hSome]
    | some parts =>
        rcases parts with ⟨before, after⟩
        rw [CText.strchr_eq_some_iff] at hSep
        rcases hSep with ⟨rfl, hNone⟩
        have hBefore : before ≠ [] := by
          rintro rfl
          simp at hHead
        have hRest := legalFrom_after hLegal
        have hAfter : after ≠ [] := by
          rintro rfl
          simp at hLast
        have hEnd : after.getLast? ≠ some '.' := by
          intro hDot
          apply hLast
          rw [List.getLast?_append_of_ne_nil _ (by simp),
            List.getLast?_cons_of_ne_nil hAfter]
          exact hDot
        have hTail : Splits after :=
          ih after.length (by simp at hLength; omega) after
            hRest hAfter (legalFrom_head hRest) hEnd rfl
        have hParts :
            nameParts (before ++ '.' :: after) =
              before :: nameParts after :=
          List.splitOn_append_cons_self_of_not_mem hNone
            after
        unfold Splits at hTail ⊢
        rw [hParts]
        simp [hTail, Ne.symm hBefore]

/- The trie takes every name that is legal. -/
theorem legal_splits
    {name : List Char}
    (hLegal : checkLegalPropertyName name = true) :
    Splits name ∧ 1 ≤ name.length := by
  unfold checkLegalPropertyName at hLegal
  split at hLegal
  · cases hLegal
  · rename_i hLength
    split at hLegal
    · cases hLegal
    · rename_i hHead
      split at hLegal
      · cases hLegal
      · rename_i hLast
        have hSome : name ≠ [] := by
          rintro rfl
          simp at hLength
        exact
          ⟨splits_of_legalFrom name hLegal hSome hHead
            hLast, by omega⟩

end Resetprop

end Universal7420

------------------------------------------------------------
-- Lines
------------------------------------------------------------

namespace Universal7420

namespace Resetprop

/- The spaces in front of a text, and what follows them. -/
theorem spaces_append_dropWhile
    (text : List Char) :
    ∃ n,
      text =
        List.replicate n ' ' ++ text.dropWhile (· = ' ') ∧
      text.length - (text.dropWhile (· = ' ')).length = n := by
  have hSplit :=
    (List.takeWhile_append_dropWhile
      (p := fun c => decide (c = ' ')) (l := text))
  have hSpaces :
      text.takeWhile (· = ' ') =
        List.replicate
          (text.takeWhile (· = ' ')).length ' ' := by
    rw [List.eq_replicate_iff]
    refine ⟨rfl, ?_⟩
    intro c hIn
    simpa using List.mem_takeWhile_imp hIn
  refine ⟨(text.takeWhile (· = ' ')).length, ?_, ?_⟩
  · rw [← hSpaces]
    exact hSplit.symm
  · have hLength := congrArg List.length hSplit
    rw [List.length_append] at hLength
    omega

theorem head_dropWhile_space
    (text : List Char) :
    (text.dropWhile (· = ' ')).head? ≠ some ' ' := by
  intro hHead
  have hNot :=
    List.head?_dropWhile_not (fun c => decide (c = ' ')) text
  rw [hHead] at hNot
  simp at hNot

/- A text that begins with a name begins with its head. -/
theorem dropWhile_spaces
    {n : Nat}
    {name : List Char}
    (rest : List Char)
    (hName : name ≠ [])
    (hSpace : name.head? ≠ some ' ') :
    (List.replicate n ' ' ++ name ++ rest).dropWhile
        (· = ' ') =
      name ++ rest := by
  rw [List.append_assoc, List.dropWhile_append_of_pos]
  · rcases name with _ | ⟨c, name⟩
    · exact absurd rfl hName
    · have hOther : c ≠ ' ' := by
        intro hSame
        exact hSpace (by simp [hSame])
      simp [hOther]
  · intro c hIn
    simpa using (List.mem_replicate.mp hIn).2

/-
  A line sets a property exactly if, behind spaces, it has a
  name that is neither empty nor a comment, the first equal
  sign, and a value that is not empty.
-/
theorem propLine_eq_some_iff
    (line name value : List Char) :
    propLine line = some (name, value) ↔
      (∃ n,
        chomp line =
          List.replicate n ' ' ++ name ++ '=' :: value) ∧
      name ≠ [] ∧
      name.head? ≠ some ' ' ∧
      name.head? ≠ some '#' ∧
      '=' ∉ name ∧
      value ≠ [] := by
  unfold propLine
  generalize chomp line = text
  constructor
  · intro hLine
    rcases spaces_append_dropWhile text with
      ⟨n, hText, hCount⟩
    have hHead := head_dropWhile_space text
    dsimp only at hLine
    rw [hCount] at hLine
    generalize text.dropWhile (· = ' ') = body at *
    split at hLine
    · cases hLine
    · rename_i hComment
      split at hLine
      · cases hLine
      · rename_i before after hSep
        split at hLine
        · cases hLine
        · rename_i hShape
          cases hLine
          rw [CText.strchr_eq_some_iff] at hSep
          rcases hSep with ⟨hEqual, hNone⟩
          rw [not_or] at hShape
          have hFront :
              before.take n = List.replicate n ' ' := by
            have hTake := congrArg (List.take n) hEqual
            rw [List.take_append_of_le_length (by omega)]
              at hTake
            rw [← hTake, hText, List.take_left'
              List.length_replicate]
          have hBefore :
              before =
                List.replicate n ' ' ++ before.drop n := by
            rw [← hFront]
            exact (List.take_append_drop n before).symm
          have hBody :
              body = before.drop n ++ '=' :: value := by
            rw [hEqual, hBefore, List.append_assoc] at hText
            exact (List.append_cancel_left hText).symm
          have hName : before.drop n ≠ [] := by
            rw [Ne, List.drop_eq_nil_iff]
            omega
          have hSame :
              body.head? = (before.drop n).head? := by
            rw [hBody, List.head?_append_of_ne_nil _ hName]
          rw [hSame] at hHead hComment
          refine
            ⟨⟨n, ?_⟩, hName, hHead, hComment, ?_, ?_⟩
          · rw [hEqual, ← hBefore]
          · intro hIn
            exact hNone (List.mem_of_mem_drop hIn)
          · rintro rfl
            rw [hEqual] at hShape
            simp at hShape
  · rintro ⟨⟨n, rfl⟩, hName, hSpace, hComment, hNone, hValue⟩
    have hDrop :
        (List.replicate n ' ' ++ name ++
            '=' :: value).dropWhile (· = ' ') =
          name ++ '=' :: value :=
      dropWhile_spaces ('=' :: value) hName hSpace
    have hSep :
        CText.strchr '='
            (List.replicate n ' ' ++ name ++ '=' :: value) =
          some (List.replicate n ' ' ++ name, value) := by
      rw [CText.strchr_eq_some_iff]
      refine ⟨rfl, ?_⟩
      simp [hNone, List.mem_replicate]
    have hHead :
        (name ++ '=' :: value).head? = name.head? :=
      List.head?_append_of_ne_nil _ hName
    have hPositive : 0 < name.length :=
      List.length_pos_iff.mpr hName
    have hPositive' : 0 < value.length :=
      List.length_pos_iff.mpr hValue
    dsimp only
    rw [hDrop, hHead, if_neg hComment, hSep]
    dsimp only
    rw [if_neg]
    · simp
    · simp only [List.length_append, List.length_replicate,
        List.length_cons]
      omega

end Resetprop

end Universal7420

------------------------------------------------------------
-- Updating A Property
------------------------------------------------------------

namespace Universal7420

namespace Resetprop

open LinkedTrie

/-
  A property with a short value that was updated a number of
  times, each of which added two to its serial.
-/
def PropInfo.Plain (info : PropInfo) (n : Nat) : Prop :=
  info.value.length < propValueMax ∧
  ∃ k ≤ n, info.serial = info.value.length * 2 ^ 24 + 2 * k

theorem ofValue_plain
    (name : List Char)
    {value : List Char}
    (hShort : value.length < propValueMax) :
    (PropInfo.ofValue name value).Plain 0 :=
  ⟨hShort, 0, Nat.le_refl 0, by simp [PropInfo.ofValue]⟩

theorem PropInfo.Plain.mono
    {info : PropInfo}
    {n m : Nat}
    (hPlain : info.Plain n)
    (hMore : n ≤ m) :
    info.Plain m := by
  rcases hPlain with ⟨hShort, k, hCount, hSerial⟩
  exact ⟨hShort, k, Nat.le_trans hCount hMore, hSerial⟩

/- The count stays below the flag. -/
theorem PropInfo.Plain.isLong
    {info : PropInfo}
    {n : Nat}
    (hPlain : info.Plain n)
    (hFew : n < 2 ^ 15) :
    info.isLong = false := by
  rcases hPlain with ⟨_, k, hCount, hSerial⟩
  have hBit : ¬ info.serial / 2 ^ 16 % 2 = 1 := by
    rw [hSerial]
    omega
  exact decide_eq_false hBit

theorem PropInfo.Plain.update
    {info : PropInfo}
    {n : Nat}
    {value : List Char}
    (hPlain : info.Plain n)
    (hFew : n < 2 ^ 15)
    (hShort : value.length < propValueMax) :
    (info.update value).Plain (n + 1) := by
  rcases hPlain with ⟨_, k, hCount, hSerial⟩
  refine ⟨hShort, k + 1, by omega, ?_⟩
  simp only [PropInfo.update, hSerial]
  omega

namespace PropArea

variable {pa : PropArea}
variable {home : Nat → List (List Char)}

theorem updateInfo_data
    {off : Nat}
    {info : PropInfo}
    (hInfo : pa.data off = some (.info info))
    (value : List Char)
    (a : Nat) :
    (pa.updateInfo off value).data a =
      if a = off then
        some (.info (info.update value))
      else
        pa.data a := by
  unfold updateInfo
  rw [infoAt_eq_some_iff.mpr hInfo]
  rfl

theorem updateInfo_btAt
    {off : Nat}
    {info : PropInfo}
    (hInfo : pa.data off = some (.info info))
    (value : List Char)
    (a : Nat) :
    (pa.updateInfo off value).btAt a = pa.btAt a := by
  unfold btAt
  rw [updateInfo_data hInfo]
  by_cases hAt : a = off
  · rw [if_pos hAt, hAt, hInfo]
  · rw [if_neg hAt]

theorem updateInfo_cells
    {off : Nat}
    {info : PropInfo}
    (hInfo : pa.data off = some (.info info))
    (value : List Char) :
    (pa.updateInfo off value).cells = pa.cells := by
  funext a
  unfold cells
  rw [updateInfo_btAt hInfo]

theorem updateInfo_bytesUsed
    (pa : PropArea)
    (off : Nat)
    (value : List Char) :
    (pa.updateInfo off value).bytesUsed = pa.bytesUsed := by
  unfold updateInfo
  split
  · rfl
  · rfl

theorem updateInfo_dataSize
    (pa : PropArea)
    (off : Nat)
    (value : List Char) :
    (pa.updateInfo off value).dataSize = pa.dataSize := by
  unfold updateInfo
  split
  · rfl
  · rfl

theorem updateInfo_propAt
    {off : Nat}
    {info : PropInfo}
    (hInfo : pa.data off = some (.info info))
    (value : List Char)
    (path : List (List Char))
    (off' : Nat) :
    (pa.updateInfo off value).PropAt path off' ↔
      pa.PropAt path off' := by
  unfold PropAt
  rw [updateInfo_cells hInfo]
  simp only [updateInfo_btAt hInfo]

/- An update in place keeps the layout. -/
theorem Sound.updateInfo
    (hSound : pa.Sound home)
    {off : Nat}
    {info : PropInfo}
    (hInfo : pa.data off = some (.info info))
    (value : List Char)
    (hShort : (info.update value).isLong = false) :
    (pa.updateInfo off value).Sound home := by
  have hData :
      ∀ a obj,
        (pa.updateInfo off value).data a = some obj →
        ∃ old, pa.data a = some old ∧ old.size = obj.size := by
    intro a obj hThere
    rw [updateInfo_data hInfo] at hThere
    split at hThere
    · rename_i hAt
      cases hThere
      rw [hAt]
      exact ⟨.info info, hInfo, rfl⟩
    · exact ⟨obj, hThere, rfl⟩
  refine
    { linked := ?_
      within := ?_
      used := ?_
      apart := ?_
      props := ?_ }
  · rw [updateInfo_cells hInfo, updateInfo_bytesUsed]
    exact hSound.linked
  · rw [updateInfo_bytesUsed, updateInfo_dataSize]
    exact hSound.within
  · intro a obj hThere
    rcases hData a obj hThere with ⟨old, hOld, hSize⟩
    rw [updateInfo_bytesUsed, ← hSize]
    exact hSound.used a old hOld
  · intro a obj a' obj' hThere hThere' hLess
    rcases hData a obj hThere with ⟨old, hOld, hSize⟩
    rcases hData a' obj' hThere' with ⟨old', hOld', _⟩
    rw [← hSize]
    exact hSound.apart a old a' old' hOld hOld' hLess
  · intro a bt hBt hProp
    rw [updateInfo_btAt hInfo] at hBt
    rcases hSound.props a bt hBt hProp with
      ⟨own, hOwn, hName, hSplits, hLong⟩
    by_cases hAt : bt.prop = off
    · rw [hAt, hInfo] at hOwn
      cases hOwn
      refine
        ⟨info.update value, ?_, hName, hSplits, ?_⟩
      · rw [updateInfo_data hInfo, if_pos hAt]
      · intro hFlag
        rw [hShort] at hFlag
        cases hFlag
    · refine ⟨own, ?_, hName, hSplits, ?_⟩
      · rw [updateInfo_data hInfo, if_neg hAt]
        exact hOwn
      · intro hFlag
        rcases hLong hFlag with ⟨text, hText⟩
        refine ⟨text, ?_⟩
        rw [updateInfo_data hInfo, if_neg]
        · exact hText
        · intro hSame
          rw [hSame, hInfo] at hText
          cases hText

/- The values of other properties stay. -/
theorem updateInfo_stored
    {off o : Nat}
    {info : PropInfo}
    (hInfo : pa.data off = some (.info info))
    (value : List Char)
    (hOther : o ≠ off) :
    (pa.updateInfo off value).stored o = pa.stored o := by
  have hOwn :
      (pa.updateInfo off value).infoAt o = pa.infoAt o := by
    unfold infoAt
    rw [updateInfo_data hInfo, if_neg hOther]
  unfold stored
  rw [hOwn]
  cases pa.infoAt o with
  | none => rfl
  | some own =>
      dsimp only
      rw [updateInfo_data hInfo]
      by_cases hText : o + own.offset = off
      · rw [if_pos hText, hText, hInfo]
      · rw [if_neg hText]

/- The value of one name changes. -/
theorem updateInfo_lookup
    (hSound : pa.Sound home)
    {off : Nat}
    {info : PropInfo}
    {name value : List Char}
    (hInfo : pa.data off = some (.info info))
    (hProp : pa.PropAt (nameParts name) off)
    (hSplits : Splits name)
    (hShort : (info.update value).isLong = false)
    (n : List Char) :
    (pa.updateInfo off value).lookup n =
      if n = name then some value else pa.lookup n := by
  have hSound' := hSound.updateInfo hInfo value hShort
  by_cases hSame : n = name
  · subst hSame
    rw [if_pos rfl, lookup_eq_some_iff hSound']
    refine
      ⟨hSplits, off, (updateInfo_propAt hInfo _ _ _).mpr hProp,
        ?_⟩
    have hNew :
        (pa.updateInfo off value).data off =
          some (.info (info.update value)) := by
      rw [updateInfo_data hInfo, if_pos rfl]
    exact stored_of_short hNew hShort
  · rw [if_neg hSame]
    -- Another name has another property.
    have hOther :
        ∀ o, pa.PropAt (nameParts n) o → o ≠ off := by
      intro o hThere hAt
      subst hAt
      rcases hSound.leadsTo hThere with
        ⟨own, hOwn, hParts, _⟩
      rcases hSound.leadsTo hProp with
        ⟨own', hOwn', hParts', _⟩
      rw [hOwn] at hOwn'
      cases hOwn'
      exact
        hSame
          (nameParts_injective (hParts.symm.trans hParts'))
    apply Option.ext
    intro v
    rw [lookup_eq_some_iff hSound', lookup_eq_some_iff hSound]
    constructor
    · rintro ⟨hGood, o, hThere, hStored⟩
      rw [updateInfo_propAt hInfo] at hThere
      rw [updateInfo_stored hInfo value (hOther o hThere)]
        at hStored
      exact ⟨hGood, o, hThere, hStored⟩
    · rintro ⟨hGood, o, hThere, hStored⟩
      refine ⟨hGood, o, ?_, ?_⟩
      · rw [updateInfo_propAt hInfo]
        exact hThere
      · rw [updateInfo_stored hInfo value (hOther o hThere)]
        exact hStored

/- A plain property is read from where it is stored. -/
theorem readCallback_of_plain
    {off n : Nat}
    {info : PropInfo}
    (hInfo : pa.data off = some (.info info))
    (hPlain : info.Plain n)
    (hFew : n < 2 ^ 15) :
    pa.readCallback off = pa.stored off := by
  have hLong := hPlain.isLong hFew
  rw [stored_of_short hInfo hLong]
  unfold readCallback
  rw [infoAt_eq_some_iff.mpr hInfo]
  simp only [hLong]
  split
  · rfl
  · rcases hPlain with ⟨_, k, hCount, hSerial⟩
    have hLength :
        info.serial / 2 ^ 24 = info.value.length := by
      rw [hSerial]
      omega
    rw [hLength, List.take_length]

end PropArea

end Resetprop

end Universal7420

------------------------------------------------------------
-- The Store As A Map
------------------------------------------------------------

namespace Universal7420

namespace Resetprop

namespace Store

/- The value of a name in the area it belongs to. -/
def lookup
    (contexts : Contexts)
    (st : Store)
    (name : List Char) :
    Option (List Char) :=
  (contexts name).bind fun i => (st.areas i).lookup name

/-
  All areas are sound, and their properties are short and were
  updated so many times at most.
-/
structure Good (st : Store) (n : Nat) : Prop where
  initialized : st.initialized = true
  sound : ∀ i, ∃ home, (st.areas i).Sound home
  dataSize :
    ∀ i, (st.areas i).dataSize = paSize - sizeofPropArea
  plain :
    ∀ i off info,
      (st.areas i).data off = some (.info info) →
      info.Plain n

variable {contexts : Contexts}
variable {st : Store}
variable {n : Nat}

theorem Good.mono
    {m : Nat}
    (hGood : st.Good n)
    (hMore : n ≤ m) :
    st.Good m where
  initialized := hGood.initialized
  sound := hGood.sound
  dataSize := hGood.dataSize
  plain := fun i off info hThere =>
    (hGood.plain i off info hThere).mono hMore

/- One area is replaced by a good one. -/
theorem Good.announce
    (hGood : st.Good n)
    {i : Nat}
    {pa : PropArea}
    (hSound : ∃ home, pa.Sound home)
    (hSize : pa.dataSize = (st.areas i).dataSize)
    (hPlain :
      ∀ off info,
        pa.data off = some (.info info) → info.Plain n) :
    (st.announce i pa).Good n := by
  refine
    { initialized := hGood.initialized
      sound := ?_
      dataSize := ?_
      plain := ?_ }
  · intro j
    unfold Store.announce
    dsimp only
    split
    · exact hSound
    · exact hGood.sound j
  · intro j
    unfold Store.announce
    dsimp only
    split
    · rw [hSize]
      exact hGood.dataSize i
    · exact hGood.dataSize j
  · intro j off info hThere
    unfold Store.announce at hThere
    dsimp only at hThere
    split at hThere
    · exact hPlain off info hThere
    · exact hGood.plain j off info hThere

theorem Good.setArea
    (hGood : st.Good n)
    {i : Nat}
    {pa : PropArea}
    (hSound : ∃ home, pa.Sound home)
    (hSize : pa.dataSize = (st.areas i).dataSize)
    (hPlain :
      ∀ off info,
        pa.data off = some (.info info) → info.Plain n) :
    (st.setArea i pa).Good n :=
  -- The two differ in the serial only.
  { initialized := hGood.initialized
    sound := (hGood.announce hSound hSize hPlain).sound
    dataSize := (hGood.announce hSound hSize hPlain).dataSize
    plain := (hGood.announce hSound hSize hPlain).plain }

/- The area of a name decides about its value. -/
theorem lookup_announce
    {i : Nat}
    {pa : PropArea}
    {name : List Char}
    {value : Option (List Char)}
    (hContext : contexts name = some i)
    (hValue :
      ∀ m,
        pa.lookup m =
          if m = name then
            value
          else
            (st.areas i).lookup m)
    (m : List Char) :
    (st.announce i pa).lookup contexts m =
      if m = name then value else st.lookup contexts m := by
  unfold Store.lookup Store.announce
  by_cases hSame : m = name
  · subst hSame
    simp [hContext, hValue]
  · rw [if_neg hSame]
    cases hOwn : contexts m with
    | none => rfl
    | some j =>
        simp only [Option.bind_some]
        by_cases hArea : j = i
        · subst hArea
          rw [if_pos rfl, hValue, if_neg hSame]
        · rw [if_neg hArea]

theorem lookup_setArea
    {i : Nat}
    {pa : PropArea}
    (hValue : ∀ m, pa.lookup m = (st.areas i).lookup m)
    (m : List Char) :
    (st.setArea i pa).lookup contexts m =
      st.lookup contexts m := by
  unfold Store.lookup Store.setArea
  cases contexts m with
  | none => rfl
  | some j =>
      simp only [Option.bind_some]
      by_cases hArea : j = i
      · subst hArea
        rw [if_pos rfl, hValue]
      · rw [if_neg hArea]

end Store

end Resetprop

end Universal7420

------------------------------------------------------------
-- The Calls On The Map
------------------------------------------------------------

namespace Universal7420

namespace Resetprop

/- The calls that write without a trigger. -/
inductive ApiOp where
| set (name value : List Char)
| delete (name : List Char)
deriving DecidableEq, Repr

def ApiOp.Short : ApiOp → Prop
| .set _ value => value.length < propValueMax
| .delete _ => True

def ApiOp.apply
    (contexts : Contexts)
    (outside : Outside)
    (st : Store) :
    ApiOp → Option (Int × Store)
| .set name value =>
    setprop2 contexts outside st name value false
| .delete name =>
    deleteprop2 contexts outside st name false

/- The returns of a list of calls, and the store. -/
def runApi
    (contexts : Contexts)
    (outside : Outside)
    (st : Store) :
    List ApiOp → Option (List Int × Store)
| [] => some ([], st)
| op :: ops => do
    let (ret, next) ← op.apply contexts outside st
    let (rets, last) ← runApi contexts outside next ops
    return (ret :: rets, last)

/- What a call that returned does to a map. -/
def recordApi
    (m : List Char → Option (List Char)) :
    ApiOp × Int → List Char → Option (List Char)
| (.set name value, ret), n =>
    if ret = 0 ∧ n = name then some value else m n
| (.delete name, ret), n =>
    if ret = 0 ∧ n = name then none else m n

def contentsApi
    (ops : List (ApiOp × Int)) :
    List Char → Option (List Char) :=
  ops.foldl recordApi fun _ => none

variable {contexts : Contexts}
variable {outside : Outside}
variable {st : Store}
variable {n : Nat}

/- What a call leaves behind. -/
structure Called
    (contexts : Contexts)
    (st : Store)
    (n : Nat)
    (op : ApiOp)
    (ret : Int)
    (next : Store) :
    Prop where
  good : next.Good (n + 1)
  serial :
    next.serial =
      if ret = 0 then (st.serial + 1) % 2 ^ 32 else st.serial
  lookup :
    ∀ m,
      next.lookup contexts m =
        recordApi (st.lookup contexts) (op, ret) m

/- A call that is refused changes nothing. -/
theorem Called.refused
    (hGood : st.Good n)
    (op : ApiOp)
    {ret : Int}
    (hRet : ret ≠ 0) :
    Called contexts st n op ret st where
  good := hGood.mono (Nat.le_succ n)
  serial := by rw [if_neg hRet]
  lookup := by
    intro m
    cases op with
    | set name value => simp [recordApi, hRet]
    | delete name => simp [recordApi, hRet]

/- A property that is there is updated in place. -/
theorem Called.updated
    (hGood : st.Good n)
    (hFew : n + 1 < 2 ^ 15)
    {name value : List Char}
    {i off : Nat}
    (hContext : contexts name = some i)
    (hSplits : Splits name)
    (hProp : (st.areas i).PropAt (nameParts name) off)
    (hShort : value.length < propValueMax) :
    Called contexts st n (.set name value) 0
      (st.announce i
        ((st.areas i).updateInfo off value)) := by
  rcases hGood.sound i with ⟨home, hSound⟩
  rcases hSound.leadsTo hProp with ⟨info, hInfo, _⟩
  have hPlain : (info.update value).Plain (n + 1) :=
    (hGood.plain i off info hInfo).update (by omega) hShort
  have hFlag := hPlain.isLong hFew
  refine
    { good := ?_
      serial := rfl
      lookup := ?_ }
  · refine
      (hGood.mono (Nat.le_succ n)).announce
        ⟨home, hSound.updateInfo hInfo value hFlag⟩
        (PropArea.updateInfo_dataSize _ _ _) ?_
    intro a own hThere
    rw [PropArea.updateInfo_data hInfo] at hThere
    split at hThere
    · cases hThere
      exact hPlain
    · exact
        (hGood.plain i a own hThere).mono (Nat.le_succ n)
  · intro m
    rw [
      Store.lookup_announce hContext
        (PropArea.updateInfo_lookup hSound hInfo hProp
          hSplits hFlag)
    ]
    simp [recordApi]

/- A property that is not there is added, if there is room. -/
theorem add_called
    (hGood : st.Good n)
    {name value : List Char}
    {i : Nat}
    (hContext : contexts name = some i)
    (hLegal : checkLegalPropertyName name = true)
    (hNone : (st.areas i).lookup name = none)
    (hShort : value.length < propValueMax) :
    ∃ ret next,
      st.add contexts name value = some (ret, next) ∧
      Called contexts st n (.set name value) ret next ∧
      (ret ≠ 0 →
        paSize - sizeofPropArea <
          (st.areas i).bytesUsed +
            PropArea.partsRoom (nameParts name) +
            PropArea.propRoom name value) := by
  rcases legal_splits hLegal with ⟨hSplits, hLength⟩
  rcases hGood.sound i with ⟨home, hSound⟩
  rcases PropArea.add_spec hSound name value with
    ⟨ok, pa, hAdd, hAdded⟩
  have hPlain :
      ∀ off info,
        pa.data off = some (.info info) →
        info.Plain (n + 1) := by
    intro off info hThere
    rcases hAdded.infos hShort off info hThere with
      hOld | rfl
    · exact
        (hGood.plain i off info hOld).mono (Nat.le_succ n)
    · exact (ofValue_plain name hShort).mono (Nat.zero_le _)
  unfold Store.add
  rw [if_neg (by omega), if_neg (by omega),
    if_pos hGood.initialized, hContext]
  dsimp only
  rw [hAdd]
  cases ok with
  | true =>
      refine
        ⟨0, st.announce i pa, rfl, ?_, fun hNot =>
          absurd rfl hNot⟩
      refine
        { good :=
            (hGood.mono (Nat.le_succ n)).announce
              hAdded.sound hAdded.dataSize hPlain
          serial := rfl
          lookup := ?_ }
      intro m
      have hValue := (hAdded.done rfl).2
      simp only [hNone, and_true] at hValue
      rw [Store.lookup_announce hContext hValue]
      simp [recordApi]
  | false =>
      rcases hAdded.failed rfl with ⟨hSame, _, hFull⟩
      refine ⟨-1, st.setArea i pa, rfl, ?_, ?_⟩
      · refine
          { good :=
              (hGood.mono (Nat.le_succ n)).setArea
                hAdded.sound hAdded.dataSize hPlain
            serial := rfl
            lookup := ?_ }
        intro m
        rw [Store.lookup_setArea hSame]
        simp [recordApi]
      · intro _
        have hRoom := hFull hSplits
        rw [hGood.dataSize] at hRoom
        exact hRoom

/- The search of the store leads to the area of the name. -/
theorem store_find_spec
    (hGood : st.Good n)
    {name : List Char}
    {i : Nat}
    (hContext : contexts name = some i) :
    ∃ r,
      st.find contexts name =
        some (r.map fun off => (i, off)) ∧
      (∀ off,
        r = some off →
        Splits name ∧
        (st.areas i).PropAt (nameParts name) off) ∧
      (r = none → (st.areas i).lookup name = none) := by
  rcases hGood.sound i with ⟨home, hSound⟩
  rcases PropArea.find_spec hSound name with
    ⟨r, hFind, hThere⟩
  refine ⟨r, ?_, fun off => (hThere off).mp, ?_⟩
  · unfold Store.find
    rw [if_pos hGood.initialized, hContext]
    dsimp only
    rw [hFind]
    rfl
  · rintro rfl
    unfold PropArea.lookup
    rw [hFind]

theorem setprop2_called
    (contexts : Contexts)
    (outside : Outside)
    (hGood : st.Good n)
    (hFew : n + 1 < 2 ^ 15)
    (name : List Char)
    {value : List Char}
    (hShort : value.length < propValueMax) :
    ∃ ret next,
      setprop2 contexts outside st name value false =
        some (ret, next) ∧
      Called contexts st n (.set name value) ret next ∧
      (ret ≠ 0 →
        checkLegalPropertyName name = false ∨
        contexts name = none ∨
        ∃ i,
          contexts name = some i ∧
          (st.areas i).lookup name = none ∧
          paSize - sizeofPropArea <
            (st.areas i).bytesUsed +
              PropArea.partsRoom (nameParts name) +
              PropArea.propRoom name value) := by
  unfold setprop2
  by_cases hLegal : checkLegalPropertyName name = false
  · rw [if_pos hLegal]
    exact
      ⟨1, st, rfl, .refused hGood _ (by omega), fun _ =>
        Or.inl hLegal⟩
  · rw [if_neg hLegal, if_neg (by simp [hGood.initialized])]
    have hTrue : checkLegalPropertyName name = true := by
      simpa using hLegal
    cases hContext : contexts name with
    | none =>
        have hFind : st.find contexts name = some none := by
          unfold Store.find
          rw [if_pos hGood.initialized, hContext]
        have hAdd :
            st.add contexts name value = some (-1, st) := by
          rcases legal_splits hTrue with ⟨_, hLength⟩
          unfold Store.add
          rw [if_neg (by omega), if_neg (by omega),
            if_pos hGood.initialized, hContext]
        rw [hFind]
        exact
          ⟨-1, st, hAdd, .refused hGood _ (by omega), fun _ =>
            Or.inr (Or.inl rfl)⟩
    | some i =>
        rcases store_find_spec hGood hContext with
          ⟨r, hFind, hSome, hNone⟩
        rw [hFind]
        cases r with
        | some off =>
            rcases hSome off rfl with ⟨hSplits, hProp⟩
            refine
              ⟨0, _, ?_,
                .updated hGood hFew hContext hSplits hProp
                  hShort,
                fun hNot => absurd rfl hNot⟩
            unfold Store.update
            simp [hGood.initialized, Nat.not_le.mpr hShort]
        | none =>
            rcases
              add_called hGood hContext hTrue (hNone rfl)
                hShort with
              ⟨ret, next, hAdd, hCalled, hFull⟩
            refine ⟨ret, next, hAdd, hCalled, ?_⟩
            intro hNot
            exact
              Or.inr
                (Or.inr ⟨i, rfl, hNone rfl, hFull hNot⟩)

theorem deleteprop2_called
    (hGood : st.Good n)
    (name : List Char) :
    ∃ ret next,
      deleteprop2 contexts outside st name false =
        some (ret, next) ∧
      Called contexts st n (.delete name) ret next := by
  unfold deleteprop2
  by_cases hLegal : checkLegalPropertyName name = false
  · rw [if_pos hLegal]
    exact ⟨1, st, rfl, .refused hGood _ (by omega)⟩
  · rw [if_neg hLegal, if_neg (by simp [hGood.initialized])]
    unfold Store.delete
    rw [if_pos hGood.initialized]
    cases hContext : contexts name with
    | none =>
        exact ⟨1, st, rfl, .refused hGood _ (by omega)⟩
    | some i =>
        rcases hGood.sound i with ⟨home, hSound⟩
        rcases PropArea.del_spec hSound name with
          ⟨ok, pa, hDel, hSound', _, hSize, _, hInfos, hOk,
            hLookup⟩
        have hPlain :
            ∀ off info,
              pa.data off = some (.info info) →
              info.Plain (n + 1) := by
          intro off info hThere
          exact
            (hGood.plain i off info
              ((hInfos off info).mp hThere)).mono
                (Nat.le_succ n)
        dsimp only
        rw [hDel]
        cases ok with
        | true =>
            refine ⟨0, st.announce i pa, rfl, ?_⟩
            refine
              { good :=
                  (hGood.mono (Nat.le_succ n)).announce
                    ⟨home, hSound'⟩ hSize hPlain
                serial := rfl
                lookup := ?_ }
            intro m
            rw [Store.lookup_announce hContext hLookup]
            simp [recordApi]
        | false =>
            refine ⟨1, st.setArea i pa, rfl, ?_⟩
            have hSame :
                ∀ m,
                  pa.lookup m = (st.areas i).lookup m := by
              intro m
              rw [hLookup]
              split
              · rename_i hName
                rw [hName]
                apply Classical.byContradiction
                intro hThere
                have hTrue := hOk (Ne.symm hThere)
                cases hTrue
              · rfl
            refine
              { good :=
                  (hGood.mono (Nat.le_succ n)).setArea
                    ⟨home, hSound'⟩ hSize hPlain
                serial := rfl
                lookup := ?_ }
            intro m
            rw [Store.lookup_setArea hSame]
            simp [recordApi]

end Resetprop

end Universal7420

------------------------------------------------------------
-- Runs Of Calls
------------------------------------------------------------

namespace Universal7420

namespace Resetprop

/- A store whose areas were just made. -/
def Store.fresh : Store where
  initialized := true
  areas := fun _ => PropArea.mapPropAreaRw
  serial := 0

/- What a caller gets for a value of the map. -/
def Got.ofOption : Option (List Char) → Got
| none => .null
| some text => .value text

variable {contexts : Contexts}
variable {outside : Outside}
variable {st : Store}
variable {n : Nat}

theorem mapPropAreaRw_room :
    sizeofPropBt ≤ paSize - sizeofPropArea := by
  simp [sizeofPropBt, paSize, sizeofPropArea]

theorem fresh_good : Store.fresh.Good 0 where
  initialized := rfl
  sound := fun _ => ⟨_, ofDataSize_sound mapPropAreaRw_room⟩
  dataSize := fun _ => rfl
  plain := by
    intro i off info hThere
    simp only [Store.fresh, PropArea.mapPropAreaRw,
      PropArea.ofDataSize] at hThere
    split at hThere
    · cases hThere
    · cases hThere

theorem fresh_lookup
    (contexts : Contexts) :
    Store.fresh.lookup contexts = fun _ => none := by
  funext name
  unfold Store.lookup
  cases contexts name with
  | none => rfl
  | some i => exact ofDataSize_lookup mapPropAreaRw_room name

theorem apply_called
    (contexts : Contexts)
    (outside : Outside)
    (hGood : st.Good n)
    (hFew : n + 1 < 2 ^ 15)
    {op : ApiOp}
    (hShort : op.Short) :
    ∃ ret next,
      op.apply contexts outside st = some (ret, next) ∧
      Called contexts st n op ret next := by
  cases op with
  | set name value =>
      rcases
        setprop2_called contexts outside hGood hFew name
          hShort with
        ⟨ret, next, hCall, hCalled, _⟩
      exact ⟨ret, next, hCall, hCalled⟩
  | delete name => exact deleteprop2_called hGood name

/- A run of calls, one more update possible with each. -/
theorem runApi_called
    (contexts : Contexts)
    (outside : Outside)
    (ops : List ApiOp)
    (hGood : st.Good n)
    (hFew : n + ops.length < 2 ^ 15)
    (hShort : ∀ op ∈ ops, op.Short)
    (hSerial : st.serial + ops.length < 2 ^ 32) :
    ∃ rets last,
      runApi contexts outside st ops = some (rets, last) ∧
      last.Good (n + ops.length) ∧
      last.serial = st.serial + rets.count 0 ∧
      last.lookup contexts =
        (ops.zip rets).foldl recordApi
          (st.lookup contexts) := by
  induction ops generalizing st n with
  | nil => exact ⟨[], st, rfl, hGood, rfl, rfl⟩
  | cons op ops ih =>
      rw [List.length_cons] at hFew hSerial
      rcases
        apply_called contexts outside hGood (by omega)
          (hShort op List.mem_cons_self) with
        ⟨ret, next, hCall, hCalled⟩
      have hCount :
          next.serial =
            st.serial + if ret = 0 then 1 else 0 := by
        rw [hCalled.serial]
        by_cases hZero : ret = 0
        · rw [if_pos hZero, if_pos hZero,
            Nat.mod_eq_of_lt (by omega)]
        · rw [if_neg hZero, if_neg hZero, Nat.add_zero]
      have hStep : next.serial ≤ st.serial + 1 := by
        rw [hCount]
        split
        · exact Nat.le_refl _
        · omega
      rcases
        ih hCalled.good (by omega)
          (fun o hIn => hShort o (List.mem_cons_of_mem op hIn))
          (by omega) with
        ⟨rets, last, hRun, hLast, hSerial', hMap⟩
      refine ⟨ret :: rets, last, ?_, ?_, ?_, ?_⟩
      · rw [runApi, hCall]
        simp [hRun]
      · have hSum :
            n + 1 + ops.length =
              n + (op :: ops).length := by
          rw [List.length_cons]
          omega
        rw [← hSum]
        exact hLast
      · rw [hSerial', hCount, List.count_cons]
        by_cases hZero : ret = 0
        · simp [hZero]
          omega
        · simp [hZero]
      · have hFirst :
            next.lookup contexts =
              recordApi (st.lookup contexts) (op, ret) :=
          funext hCalled.lookup
        rw [hMap, hFirst]
        rfl

/- What `getprop2` returns is the value of the map. -/
theorem getprop2_of_good
    (hGood : st.Good n)
    (hFew : n < 2 ^ 15)
    {name : List Char}
    (hLegal : checkLegalPropertyName name = true) :
    getprop2 contexts outside st name false =
      some (Got.ofOption (st.lookup contexts name)) := by
  unfold getprop2
  rw [if_neg (by simp [hLegal]),
    if_neg (by simp [hGood.initialized])]
  cases hContext : contexts name with
  | none =>
      have hFind : st.find contexts name = some none := by
        unfold Store.find
        rw [if_pos hGood.initialized, hContext]
      rw [hFind]
      simp [Store.lookup, hContext, Got.ofOption]
  | some i =>
      rcases store_find_spec hGood hContext with
        ⟨r, hFind, hSome, hNone⟩
      have hLookup :
          st.lookup contexts name =
            (st.areas i).lookup name := by
        simp [Store.lookup, hContext]
      rw [hFind, hLookup]
      cases r with
      | none => simp [hNone rfl, Got.ofOption]
      | some off =>
          rcases hGood.sound i with ⟨home, hSound⟩
          rcases hSome off rfl with ⟨hSplits, hProp⟩
          rcases hSound.leadsTo hProp with ⟨info, hInfo, _⟩
          have hPlain := hGood.plain i off info hInfo
          have hStored :
              (st.areas i).stored off = some info.value :=
            PropArea.stored_of_short hInfo
              (hPlain.isLong hFew)
          have hValue :
              (st.areas i).lookup name = some info.value :=
            (PropArea.lookup_eq_some_iff hSound _ _).mpr
              ⟨hSplits, off, hProp, hStored⟩
          have hRead :
              st.readCallback (i, off) = some info.value := by
            unfold Store.readCallback
            rw [
              PropArea.readCallback_of_plain hInfo hPlain hFew
            ]
            exact hStored
          simp only [Option.map_some, hRead, hValue,
            Got.ofOption]
          rw [if_neg (Nat.not_le.mpr hPlain.1)]

/-
  In every run of fewer than 2 ^ 15 calls with short values,
  every call returns, a legal name has the value of the last
  call that returned zero for it, and each such call is
  announced once.
-/
theorem runApi_getprop
    (contexts : Contexts)
    (outside : Outside)
    (ops : List ApiOp)
    (hShort : ∀ op ∈ ops, op.Short)
    (hFew : ops.length < 2 ^ 15) :
    ∃ rets st,
      runApi contexts outside Store.fresh ops =
        some (rets, st) ∧
      st.serial = rets.count 0 ∧
      ∀ name,
        checkLegalPropertyName name = true →
        getprop2 contexts outside st name false =
          some
            (Got.ofOption (contentsApi (ops.zip rets) name)) := by
  rcases
    runApi_called contexts outside ops fresh_good
      (by omega) hShort
      (by simp only [Store.fresh]; omega) with
    ⟨rets, st, hRun, hGood, hSerial, hMap⟩
  rw [Nat.zero_add] at hGood
  refine ⟨rets, st, hRun, ?_, ?_⟩
  · rw [hSerial]
    exact Nat.zero_add _
  · intro name hLegal
    rw [getprop2_of_good hGood hFew hLegal, hMap,
      fresh_lookup]
    rfl

/- A system without property service and without files. -/
def Outside.nothing : Outside where
  propertySet := fun st _ _ => (-1, st)
  persistGetprop := fun _ => none
  persistDeleteprop := fun _ => false

theorem runApi_getprop_of_two :
    ∃ rets st,
      runApi (fun _ => some 0) Outside.nothing Store.fresh
          [ .set "ro.a".toList "1".toList
          , .delete "ro.a".toList ] =
        some (rets, st) ∧
      st.serial = rets.count 0 ∧
      ∀ name,
        checkLegalPropertyName name = true →
        getprop2 (fun _ => some 0) Outside.nothing st name
            false =
          some
            (Got.ofOption
              (contentsApi
                ([ .set "ro.a".toList "1".toList
                 , .delete "ro.a".toList ].zip rets)
                name)) :=
  runApi_getprop (fun _ => some 0) Outside.nothing
    [ .set "ro.a".toList "1".toList
    , .delete "ro.a".toList ]
    (by simp [ApiOp.Short, propValueMax]) (by decide)

/-
  A value is refused only for a name that is not legal or has
  no area, or for a name that is not there yet and has no room.
-/
theorem runApi_setprop
    (contexts : Contexts)
    (outside : Outside)
    (ops : List ApiOp)
    (name value : List Char)
    (hShort : ∀ op ∈ ops, op.Short)
    (hFew : ops.length + 1 < 2 ^ 15)
    (hValue : value.length < propValueMax) :
    ∃ rets st ret next,
      runApi contexts outside Store.fresh ops =
        some (rets, st) ∧
      setprop2 contexts outside st name value false =
        some (ret, next) ∧
      (ret ≠ 0 →
        (∀ m,
          next.lookup contexts m = st.lookup contexts m) ∧
        (checkLegalPropertyName name = false ∨
          contexts name = none ∨
          ∃ i,
            contexts name = some i ∧
            (st.areas i).lookup name = none ∧
            paSize - sizeofPropArea <
              (st.areas i).bytesUsed +
                PropArea.partsRoom (nameParts name) +
                PropArea.propRoom name value)) := by
  rcases
    runApi_called contexts outside ops fresh_good
      (by omega) hShort
      (by simp only [Store.fresh]; omega) with
    ⟨rets, st, hRun, hGood, _, _⟩
  rw [Nat.zero_add] at hGood
  rcases
    setprop2_called contexts outside hGood hFew name
      hValue with
    ⟨ret, next, hCall, hCalled, hWhy⟩
  refine ⟨rets, st, ret, next, hRun, hCall, ?_⟩
  intro hNot
  refine ⟨?_, hWhy hNot⟩
  intro m
  rw [hCalled.lookup]
  simp [recordApi, hNot]

/- Only names that begin with an `r` have an area. -/
def onlyReadOnly : Contexts :=
  fun name => if name.head? = some 'r' then some 0 else none

/- Behind a property, one without an area is refused. -/
theorem runApi_setprop_refused :
    ∃ rets st ret next,
      runApi onlyReadOnly Outside.nothing Store.fresh
          [.set "ro.a".toList "1".toList] =
        some (rets, st) ∧
      setprop2 onlyReadOnly Outside.nothing st
          "sys.x".toList "2".toList false =
        some (ret, next) ∧
      ret ≠ 0 ∧
      ∀ m,
        next.lookup onlyReadOnly m =
          st.lookup onlyReadOnly m := by
  rcases
    runApi_setprop onlyReadOnly Outside.nothing
      [.set "ro.a".toList "1".toList] "sys.x".toList
      "2".toList (by simp [ApiOp.Short, propValueMax])
      (by decide) (by decide) with
    ⟨rets, st, ret, next, hRun, hCall, hRefused⟩
  have hReturn :
      ((runApi onlyReadOnly Outside.nothing Store.fresh
          [.set "ro.a".toList "1".toList]).bind fun ran =>
        (setprop2 onlyReadOnly Outside.nothing ran.2
          "sys.x".toList "2".toList false).map Prod.fst) =
        some (-1) := by
    decide
  rw [hRun, Option.bind_some, hCall, Option.map_some,
    Option.some.injEq] at hReturn
  have hNot : ret ≠ 0 := by
    have hMinus : ret = -1 := hReturn
    omega
  exact ⟨rets, st, ret, next, hRun, hCall, hNot,
    (hRefused hNot).1⟩

end Resetprop

end Universal7420

------------------------------------------------------------
-- Files
------------------------------------------------------------

namespace Universal7420

namespace Resetprop

/- A file is the calls of its lines. -/
theorem readPropFile_eq_runApi
    (contexts : Contexts)
    (outside : Outside)
    (lines : List (List Char))
    (st : Store) :
    readPropFile contexts outside false lines st =
      (runApi contexts outside st
        ((lines.filterMap propLine).map fun entry =>
          .set entry.1 entry.2)).map Prod.snd := by
  induction lines generalizing st with
  | nil => rfl
  | cons line lines ih =>
      rw [readPropFile]
      cases hLine : propLine line with
      | none =>
          rw [List.filterMap_cons_none hLine]
          exact ih st
      | some entry =>
          rcases entry with ⟨name, value⟩
          rw [List.filterMap_cons_some hLine, List.map_cons,
            runApi]
          simp only [ApiOp.apply]
          cases
            setprop2 contexts outside st name value
              false with
          | none => rfl
          | some called =>
              rcases called with ⟨ret, next⟩
              dsimp only
              rw [ih]
              simp only [Option.bind_eq_bind,
                Option.bind_some, Option.map_bind]
              cases
                runApi contexts outside next
                  ((lines.filterMap propLine).map fun entry =>
                    .set entry.1 entry.2) with
              | none => rfl
              | some rest => rfl

/- The line of a property. -/
def propEntry (entry : List Char × List Char) : List Char :=
  entry.1 ++ '=' :: entry.2 ++ ['\n']

theorem legalFrom_mem
    {last c : Char}
    {name : List Char}
    (hLegal : legalFrom last name = true)
    (hIn : c ∈ name) :
    c = '.' ∨ legalChar c = true := by
  induction name generalizing last with
  | nil => cases hIn
  | cons d name ih =>
      simp only [legalFrom] at hLegal
      split at hLegal
      · rename_i hDot
        split at hLegal
        · cases hLegal
        · rcases List.mem_cons.mp hIn with rfl | hRest
          · exact Or.inl hDot
          · exact ih hLegal hRest
      · split at hLegal
        · rename_i hGood
          rcases List.mem_cons.mp hIn with rfl | hRest
          · exact Or.inr hGood
          · exact ih hLegal hRest
        · cases hLegal

theorem legal_mem
    {name : List Char}
    {c : Char}
    (hLegal : checkLegalPropertyName name = true)
    (hIn : c ∈ name) :
    c = '.' ∨ legalChar c = true := by
  unfold checkLegalPropertyName at hLegal
  split at hLegal
  · cases hLegal
  · split at hLegal
    · cases hLegal
    · split at hLegal
      · cases hLegal
      · exact legalFrom_mem hLegal hIn

theorem chomp_newline
    (text : List Char) :
    chomp (text ++ ['\n']) = text := by
  unfold chomp
  rw [if_pos List.getLast?_concat, List.dropLast_concat]

/- The line of a legal name is read back. -/
theorem propLine_propEntry
    {name value : List Char}
    (hLegal : checkLegalPropertyName name = true)
    (hValue : value ≠ []) :
    propLine (propEntry (name, value)) =
      some (name, value) := by
  have hNot :
      ∀ c, c ≠ '.' → legalChar c = false → c ∉ name := by
    intro c hDot hBad hIn
    rcases legal_mem hLegal hIn with hSame | hGood
    · exact hDot hSame
    · rw [hBad] at hGood
      cases hGood
  have hHead :
      ∀ c, c ∉ name → name.head? ≠ some c := by
    intro c hOut hFirst
    exact hOut (List.mem_of_head? hFirst)
  rcases legal_splits hLegal with ⟨_, hLength⟩
  rw [propLine_eq_some_iff]
  refine
    ⟨⟨0, ?_⟩, List.length_pos_iff.mp hLength,
      hHead ' ' (hNot ' ' (by decide) (by decide)),
      hHead '#' (hNot '#' (by decide) (by decide)),
      hNot '=' (by decide) (by decide), hValue⟩
  rw [List.replicate_zero, List.nil_append]
  exact chomp_newline _

/-
  The properties that are written to a file as lines are set
  by reading it.
-/
theorem readPropFile_entries
    (contexts : Contexts)
    (outside : Outside)
    (entries : List (List Char × List Char))
    (hEntries :
      ∀ entry ∈ entries,
        checkLegalPropertyName entry.1 = true ∧
        entry.2 ≠ [])
    (st : Store) :
    readPropFile contexts outside false
        (entries.map propEntry) st =
      (runApi contexts outside st
        (entries.map fun entry =>
          .set entry.1 entry.2)).map Prod.snd := by
  have hBack :
      (entries.map propEntry).filterMap propLine =
        entries := by
    induction entries with
    | nil => rfl
    | cons entry entries ih =>
        rcases entry with ⟨name, value⟩
        rcases hEntries (name, value) List.mem_cons_self with
          ⟨hLegal, hValue⟩
        rw [List.map_cons,
          List.filterMap_cons_some
            (propLine_propEntry hLegal hValue)]
        rw [
          ih fun e hIn =>
            hEntries e (List.mem_cons_of_mem _ hIn)
        ]
  rw [readPropFile_eq_runApi, hBack]

/- Two lines for a name, with another one between them. -/
def twiceEntries : List (List Char × List Char) :=
  [ ("ro.a".toList, "1".toList)
  , ("sys.b".toList, "5".toList)
  , ("ro.a".toList, "2".toList) ]

end Resetprop

end Universal7420

------------------------------------------------------------
-- The Flag Of Long Values
------------------------------------------------------------

namespace Universal7420

namespace Resetprop

namespace PropArea

/- The area after a number of updates of one property. -/
def updateMany
    (pa : PropArea)
    (off : Nat)
    (values : List (List Char)) :
    PropArea :=
  values.foldl (fun area value => area.updateInfo off value)
    pa

variable {pa : PropArea}

theorem updateMany_data
    {off : Nat}
    {info : PropInfo}
    (hInfo : pa.data off = some (.info info))
    (values : List (List Char)) :
    (pa.updateMany off values).data off =
      some (.info (values.foldl PropInfo.update info)) := by
  induction values generalizing pa info with
  | nil => exact hInfo
  | cons value values ih =>
      apply ih
      rw [updateInfo_data hInfo, if_pos rfl]

theorem updateMany_data_other
    {off a : Nat}
    {info : PropInfo}
    (hInfo : pa.data off = some (.info info))
    (hOther : a ≠ off)
    (values : List (List Char)) :
    (pa.updateMany off values).data a = pa.data a := by
  induction values generalizing pa info with
  | nil => rfl
  | cons value values ih =>
      have hNext :
          (pa.updateInfo off value).data off =
            some (.info (info.update value)) := by
        rw [updateInfo_data hInfo, if_pos rfl]
      change
        ((pa.updateInfo off value).updateMany off
          values).data a = _
      rw [ih hNext, updateInfo_data hInfo, if_neg hOther]

end PropArea

/- Every update adds two to the count of an even serial. -/
theorem foldl_update_serial
    {info : PropInfo}
    (hEven : info.serial % 2 = 0)
    (values : List (List Char)) :
    (values.foldl PropInfo.update info).serial % 2 ^ 24 =
      (info.serial + 2 * values.length) % 2 ^ 24 := by
  induction values generalizing info with
  | nil => rfl
  | cons value values ih =>
      have hNext :
          (info.update value).serial % 2 = 0 ∧
          (info.update value).serial % 2 ^ 24 =
            (info.serial + 2) % 2 ^ 24 := by
        simp only [PropInfo.update]
        omega
      rw [List.foldl_cons, ih hNext.1, List.length_cons]
      have hMod := hNext.2
      omega

theorem foldl_update_name
    (info : PropInfo)
    (values : List (List Char)) :
    (values.foldl PropInfo.update info).name = info.name := by
  induction values generalizing info with
  | nil => rfl
  | cons value values ih =>
      rw [List.foldl_cons, ih]
      rfl

theorem foldl_update_value
    (info : PropInfo)
    (values : List (List Char)) :
    (values.foldl PropInfo.update info).value =
      values.getLast?.getD info.value := by
  induction values generalizing info with
  | nil => rfl
  | cons value values ih =>
      rw [List.foldl_cons, ih, List.getLast?_cons]
      rfl

/- The flag is a bit of the count. -/
theorem isLong_iff_count
    (info : PropInfo) :
    info.isLong = true ↔
      info.serial % 2 ^ 24 / 2 ^ 16 % 2 = 1 := by
  unfold PropInfo.isLong PropInfo.kLongFlag
  rw [decide_eq_true_iff]
  omega

/-
  A property with a short value counts as one with a long value
  after every odd multiple of 2 ^ 15 updates.  Until then a read
  only property is read as it was last updated.
-/
theorem updateMany_isLong_iff
    (pa : PropArea)
    (off : Nat)
    (name first : List Char)
    (values : List (List Char))
    (hInfo :
      pa.data off =
        some (.info (PropInfo.ofValue name first))) :
    ∃ info,
      (pa.updateMany off values).data off =
        some (.info info) ∧
      info.name = name ∧
      info.value = values.getLast?.getD first ∧
      (info.isLong = true ↔
        values.length / 2 ^ 15 % 2 = 1) ∧
      (isReadOnly name = true →
        values.length / 2 ^ 15 % 2 = 0 →
        (pa.updateMany off values).readCallback off =
          some (values.getLast?.getD first)) := by
  have hEven :
      (PropInfo.ofValue name first).serial % 2 = 0 := by
    simp only [PropInfo.ofValue]
    omega
  have hThere := PropArea.updateMany_data hInfo values
  have hName :=
    foldl_update_name (PropInfo.ofValue name first) values
  have hValue :=
    foldl_update_value (PropInfo.ofValue name first) values
  have hFlag :
      (values.foldl PropInfo.update
        (PropInfo.ofValue name first)).isLong = true ↔
          values.length / 2 ^ 15 % 2 = 1 := by
    rw [isLong_iff_count, foldl_update_serial hEven]
    simp only [PropInfo.ofValue]
    omega
  refine ⟨_, hThere, hName, hValue, hFlag, ?_⟩
  intro hRead hCount
  have hShort :
      (values.foldl PropInfo.update
        (PropInfo.ofValue name first)).isLong = false := by
    rw [Bool.eq_false_iff, Ne, hFlag]
    omega
  unfold PropArea.readCallback
  rw [PropArea.infoAt_eq_some_iff.mpr hThere]
  have hSame :
      isReadOnly
        (values.foldl PropInfo.update
          (PropInfo.ofValue name first)).name = true := by
    rw [hName]
    exact hRead
  simp only [hSame, hShort, if_true]
  rw [hValue]
  rfl

/- An area with one property that has a short value. -/
def PropArea.withShort : PropArea :=
  PropArea.mapPropAreaRw.put 20
    (.info (PropInfo.ofValue "ro.a".toList "1".toList))

/- After 2 ^ 15 updates the value counts as a long one. -/
theorem updateMany_isLong_iff_of_many :
    ∃ info,
      (PropArea.withShort.updateMany 20
        (List.replicate (2 ^ 15) "2".toList)).data 20 =
          some (.info info) ∧
      info.name = "ro.a".toList ∧
      info.value = "2".toList ∧
      info.isLong = true := by
  rcases
    updateMany_isLong_iff PropArea.withShort 20 "ro.a".toList
      "1".toList (List.replicate (2 ^ 15) "2".toList) rfl with
    ⟨info, hThere, hName, hValue, hLong, _⟩
  refine ⟨info, hThere, hName, ?_, hLong.mpr ?_⟩
  · rw [hValue, List.getLast?_replicate]
    rfl
  · rw [List.length_replicate]
    decide

namespace Store

/- The returns of updates of one property, and the store. -/
def updateMany
    (st : Store)
    (pi : Nat × Nat) :
    List (List Char) → List Int × Store
| [] => ([], st)
| value :: values =>
    let called := st.update pi value
    let rest := updateMany called.2 pi values
    (called.1 :: rest.1, rest.2)

theorem updateMany_eq
    {st : Store}
    (pi : Nat × Nat)
    {values : List (List Char)}
    (hInit : st.initialized = true)
    (hShort : ∀ value ∈ values, value.length < propValueMax) :
    (st.updateMany pi values).1 =
      List.replicate values.length 0 ∧
    (st.updateMany pi values).2.areas pi.1 =
      (st.areas pi.1).updateMany pi.2 values := by
  induction values generalizing st with
  | nil => exact ⟨rfl, rfl⟩
  | cons value values ih =>
      have hFirst :
          st.update pi value =
            (0,
              st.announce pi.1
                ((st.areas pi.1).updateInfo pi.2 value)) := by
        have hLess := hShort value List.mem_cons_self
        unfold Store.update
        rw [if_neg (Nat.not_le.mpr hLess), if_pos hInit]
      have hArea :
          (st.announce pi.1
            ((st.areas pi.1).updateInfo pi.2 value)).areas
              pi.1 =
            (st.areas pi.1).updateInfo pi.2 value := by
        simp [Store.announce]
      have hNext :
          (st.announce pi.1
            ((st.areas pi.1).updateInfo pi.2
              value)).initialized = true :=
        hInit
      rcases
        ih hNext
          (fun v hIn => hShort v (List.mem_cons_of_mem _ hIn))
        with ⟨hRets, hLast⟩
      simp only [Store.updateMany, hFirst]
      rw [hRets, hLast, hArea]
      exact ⟨rfl, rfl⟩

end Store

/- A text before the offset leaves the offset as it is. -/
theorem overwritten_of_short
    {value : List Char}
    {offset : Nat}
    (hShort :
      value.length < PropInfo.kLongLegacyErrorBufferSize)
    (hOffset : offset < 2 ^ 32) :
    PropInfo.overwritten value offset = offset := by
  unfold PropInfo.kLongLegacyErrorBufferSize at hShort
  unfold PropInfo.overwritten PropInfo.offsetByte
    PropInfo.kLongLegacyErrorBufferSize
  simp only [show value.length < 56 + 0 by omega,
    show value.length < 56 + 1 by omega,
    show value.length < 56 + 2 by omega,
    show value.length < 56 + 3 by omega, if_true]
  omega

theorem foldl_update_offset
    {info : PropInfo}
    {values : List (List Char)}
    (hShort :
      ∀ value ∈ values,
        value.length < PropInfo.kLongLegacyErrorBufferSize)
    (hOffset : info.offset < 2 ^ 32) :
    (values.foldl PropInfo.update info).offset =
      info.offset := by
  induction values generalizing info with
  | nil => rfl
  | cons value values ih =>
      have hFirst :
          (info.update value).offset = info.offset :=
        overwritten_of_short
          (hShort value List.mem_cons_self) hOffset
      rw [List.foldl_cons, ih, hFirst]
      · exact fun v hIn =>
          hShort v (List.mem_cons_of_mem value hIn)
      · rw [hFirst]
        exact hOffset

/-
  Updates of a read only property with a long value return
  zero, and the property is still read as before, if the new
  values end before the offset.
-/
theorem updateMany_long_kept
    (st : Store)
    (i off offset : Nat)
    (name text : List Char)
    (values : List (List Char))
    (hInit : st.initialized = true)
    (hInfo :
      (st.areas i).data off =
        some (.info (PropInfo.ofOffset name offset)))
    (hText :
      (st.areas i).data (off + offset) = some (.text text))
    (hRead : isReadOnly name = true)
    (hOffset : offset < 2 ^ 32)
    (hShort :
      ∀ value ∈ values,
        value.length < PropInfo.kLongLegacyErrorBufferSize)
    (hFew : values.length < 2 ^ 15) :
    (st.updateMany (i, off) values).1 =
      List.replicate values.length 0 ∧
    (st.updateMany (i, off) values).2.readCallback (i, off) =
      some text := by
  have hLess :
      ∀ value ∈ values, value.length < propValueMax := by
    intro value hIn
    have hThis := hShort value hIn
    unfold PropInfo.kLongLegacyErrorBufferSize at hThis
    unfold propValueMax
    omega
  have hLength : PropInfo.kLongLegacyError.length = 50 := by
    decide
  have hEven :
      (PropInfo.ofOffset name offset).serial % 2 = 0 := by
    simp only [PropInfo.ofOffset, hLength, PropInfo.kLongFlag]
    omega
  rcases Store.updateMany_eq (i, off) hInit hLess with
    ⟨hRets, hArea⟩
  refine ⟨hRets, ?_⟩
  have hThere := PropArea.updateMany_data hInfo values
  have hOther : off + offset ≠ off := by
    intro hSame
    rw [hSame, hInfo] at hText
    cases hText
  have hText' :=
    PropArea.updateMany_data_other hInfo hOther values
  have hFlag :
      (values.foldl PropInfo.update
        (PropInfo.ofOffset name offset)).isLong = true := by
    rw [isLong_iff_count, foldl_update_serial hEven]
    simp only [PropInfo.ofOffset, hLength, PropInfo.kLongFlag]
    omega
  have hName :
      isReadOnly
        (values.foldl PropInfo.update
          (PropInfo.ofOffset name offset)).name = true := by
    rw [foldl_update_name]
    exact hRead
  have hPlace :
      (values.foldl PropInfo.update
        (PropInfo.ofOffset name offset)).offset = offset :=
    foldl_update_offset hShort hOffset
  unfold Store.readCallback PropArea.readCallback
  rw [hArea, PropArea.infoAt_eq_some_iff.mpr hThere]
  simp only [hName, hFlag, if_true]
  rw [hPlace, hText', hText]

/- A store with one property that has a long value. -/
def Store.withLong : Store :=
  Store.fresh.setArea 0
    ((PropArea.mapPropAreaRw.put 20
      (.info (PropInfo.ofOffset "ro.a".toList 104))).put 124
        (.text (List.replicate 92 'x')))

theorem updateMany_long_kept_of_one :
    (Store.withLong.updateMany (0, 20) ["2".toList]).1 =
      List.replicate ["2".toList].length 0 ∧
    (Store.withLong.updateMany (0, 20)
      ["2".toList]).2.readCallback (0, 20) =
        some (List.replicate 92 'x') :=
  updateMany_long_kept Store.withLong 0 20 104 "ro.a".toList
    (List.replicate 92 'x') ["2".toList] rfl rfl rfl
    (by decide) (by decide) (by decide) (by decide)

end Resetprop

end Universal7420
