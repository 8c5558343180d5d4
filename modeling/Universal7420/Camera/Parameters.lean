import Universal7420.Camera.Camera2Wrapper
import Universal7420.Lib.CString
import Universal7420.Lib.KeyedVector
import Mathlib.Data.Char
import Mathlib.Data.List.Lex

/-
  Camera parameters as text, and the fix-ups of the wrapper.

  A text is parsed by searching for the next separator, so a
  key may contain a `;` and a value may contain a `=`.  What
  is parsed can still be printed and parsed again.

  Main declarations:
    * `Universal7420.Camera.Parameters.flatten`
    * `Universal7420.Camera.Parameters.unflatten`
    * `Universal7420.Camera.Parameters.Separable`
    * `Universal7420.Camera.Parameters.unflatten_flatten`
    * `Universal7420.Camera.Parameters.fixups_meaning`
-/

------------------------------------------------------------
-- CameraParameters
------------------------------------------------------------

namespace Universal7420

namespace Camera

namespace Parameters

open CText

/-
  The member `mMap` of `CameraParameters`.  The keys are in
  the order of `strcmp`, which is that of the characters.
-/
abbrev Map :=
  KeyedVector (List Char) (List Char)

/- `CameraParameters::flatten` -/
def flatten (mMap : Map) : List Char :=
  mMap.entries.zipIdx.foldl
    (fun flattened entry =>
      flattened ++ entry.1.1 ++ ['='] ++ entry.1.2 ++
        if entry.2 ≠ mMap.entries.length - 1 then
          [';']
        else
          [])
    []

/- The loop of `CameraParameters::unflatten` -/
def unflattenFrom
    (mMap : Map)
    (a : List Char) : Map :=
  match _hKey : strchr '=' a with
  | none => mMap
  | some (k, value) =>
      match _hValue : strchr ';' value with
      | none => mMap.add k value
      | some (v, next) => unflattenFrom (mMap.add k v) next
termination_by a.length
decreasing_by
  rw [(strchr_eq_some_iff.mp _hKey).1,
    (strchr_eq_some_iff.mp _hValue).1]
  simp only [List.length_append, List.length_cons]
  omega

/- `CameraParameters::unflatten` -/
def unflatten (params : List Char) : Map :=
  unflattenFrom KeyedVector.empty params

/- `CameraParameters::set`; no text stands for `NULL`. -/
def set
    (mMap : Map)
    (key value : Option (List Char)) : Map :=
  match key, value with
  | some key, some value =>
      if (strchr '=' key).isSome ∨
          (strchr ';' key).isSome then
        mMap
      else if (strchr '=' value).isSome ∨
          (strchr ';' value).isSome then
        mMap
      else
        mMap.replaceValueFor key value
  | _, _ => mMap

/- The key that the wrapper sets. -/
def videoSizeKey : List Char :=
  "video-size-values".toList

/- The list that the wrapper sets. -/
def videoSizeValues : List Char :=
  ("3840x2160,2560x1440,1920x1080,1440x1080,1088x1088," ++
    "1280x720,960x720,800x450,720x480,640x480,480x320," ++
    "352x288,320x240,256x144,176x144").toList

/- `camera2_fixup_getparams` -/
def camera2FixupGetparams (settings : List Char) : List Char :=
  flatten
    (set (unflatten settings) (some videoSizeKey)
      (some videoSizeValues))

/- `camera2_fixup_setparams` -/
def camera2FixupSetparams (settings : List Char) : List Char :=
  flatten (unflatten settings)

end Parameters

end Camera

end Universal7420

------------------------------------------------------------
-- Printing
------------------------------------------------------------

namespace Universal7420

namespace Camera

namespace Parameters

open CText

/- The pairs with a separator between two of them. -/
def flattenEntries :
    List (List Char × List Char) → List Char
| [] => []
| [e] => e.1 ++ '=' :: e.2
| e :: e' :: rest =>
    e.1 ++ '=' :: (e.2 ++ ';' :: flattenEntries (e' :: rest))

/- The loop of `flatten` prints the pairs one by one. -/
theorem flatten_eq
    (mMap : Map) :
    flatten mMap = flattenEntries mMap.entries := by
  have hGeneral :
      ∀ (l : List (List Char × List Char)) (start size : Nat)
        (flattened : List Char),
        start + l.length = size →
        (l.zipIdx start).foldl
            (fun flattened entry =>
              flattened ++ entry.1.1 ++ ['='] ++ entry.1.2 ++
                if entry.2 ≠ size - 1 then [';'] else [])
            flattened =
          flattened ++ flattenEntries l := by
    intro l
    induction l with
    | nil =>
        intro start size flattened _
        simp [flattenEntries]
    | cons e rest ih =>
        intro start size flattened hSize
        have hRest := ih (start + 1) size
        rw [List.zipIdx_cons, List.foldl_cons, hRest _ (by
          rw [List.length_cons] at hSize
          omega)]
        cases rest with
        | nil =>
            have hLast : start = size - 1 := by
              simp at hSize
              omega
            simp [flattenEntries, hLast]
        | cons e' rest =>
            have hMore : start ≠ size - 1 := by
              simp at hSize
              omega
            simp [flattenEntries, hMore]
  have hAll :=
    hGeneral mMap.entries 0 mMap.entries.length [] (by simp)
  rw [List.nil_append] at hAll
  exact hAll

/- The separators do not occur where they end a text. -/
def Separable (e : List Char × List Char) : Prop :=
  '=' ∉ e.1 ∧ ';' ∉ e.2

/- All pairs of a map can be printed and parsed again. -/
def AllSeparable (mMap : Map) : Prop :=
  ∀ e ∈ mMap.entries, Separable e

theorem AllSeparable.add
    {mMap : Map}
    (hAll : AllSeparable mMap)
    {k v : List Char}
    (hNew : Separable (k, v)) :
    AllSeparable (mMap.add k v) := by
  intro e he
  rcases KeyedVector.mem_add he with hSame | hOld
  · rw [hSame]
    exact hNew
  · exact hAll e hOld

/- A key ends at its `=` and a value at its `;`. -/
theorem AllSeparable.unflattenFrom
    {mMap : Map}
    (hAll : AllSeparable mMap)
    (a : List Char) :
    AllSeparable (unflattenFrom mMap a) := by
  fun_induction Parameters.unflattenFrom mMap a with
  | case1 mMap a hKey =>
      exact hAll
  | case2 mMap a k value hKey hValue =>
      exact hAll.add
        ⟨(strchr_eq_some_iff.mp hKey).2,
          strchr_eq_none_iff.mp hValue⟩
  | case3 mMap a k value hKey v next hValue ih =>
      apply ih
      exact hAll.add
        ⟨(strchr_eq_some_iff.mp hKey).2,
          (strchr_eq_some_iff.mp hValue).2⟩

theorem allSeparable_unflatten
    (params : List Char) :
    AllSeparable (unflatten params) := by
  apply AllSeparable.unflattenFrom
  intro e he
  cases he

/- A value without a `;` is the last item. -/
theorem unflattenFrom_last
    {a k value : List Char}
    (hKey : strchr '=' a = some (k, value))
    (hValue : strchr ';' value = none)
    (mMap : Map) :
    unflattenFrom mMap a = mMap.add k value := by
  rw [unflattenFrom]
  split
  · rename_i hNone
    rw [hKey] at hNone
    cases hNone
  · rename_i hSome
    rw [hKey] at hSome
    cases hSome
    split
    · rfl
    · rename_i hMore
      rw [hValue] at hMore
      cases hMore

/- Parsing goes on behind the `;` of a value. -/
theorem unflattenFrom_next
    {a k value v next : List Char}
    (hKey : strchr '=' a = some (k, value))
    (hValue : strchr ';' value = some (v, next))
    (mMap : Map) :
    unflattenFrom mMap a =
      unflattenFrom (mMap.add k v) next := by
  rw [unflattenFrom]
  split
  · rename_i hNone
    rw [hKey] at hNone
    cases hNone
  · rename_i hSome
    rw [hKey] at hSome
    cases hSome
    split
    · rename_i hLast
      rw [hValue] at hLast
      cases hLast
    · rename_i hMore
      rw [hValue] at hMore
      cases hMore
      rfl

/- Parsing printed pairs adds them one by one. -/
theorem unflattenFrom_flattenEntries
    {l : List (List Char × List Char)}
    (hAll : ∀ e ∈ l, Separable e)
    (mMap : Map) :
    unflattenFrom mMap (flattenEntries l) =
      l.foldl (fun acc e => acc.add e.1 e.2) mMap := by
  induction l generalizing mMap with
  | nil =>
      rw [unflattenFrom]
      rfl
  | cons e rest ih =>
      rcases hAll e List.mem_cons_self with ⟨hKey, hValue⟩
      cases rest with
      | nil =>
          have hFirst :
              strchr '=' (flattenEntries [e]) =
                some (e.1, e.2) :=
            strchr_eq_some_iff.mpr ⟨rfl, hKey⟩
          exact unflattenFrom_last hFirst
            (strchr_eq_none_iff.mpr hValue) mMap
      | cons e' rest =>
          have hFirst :
              strchr '=' (flattenEntries (e :: e' :: rest)) =
                some (e.1,
                  e.2 ++ ';' :: flattenEntries (e' :: rest)) :=
            strchr_eq_some_iff.mpr ⟨rfl, hKey⟩
          rw [unflattenFrom_next hFirst
            (strchr_eq_some_iff.mpr ⟨rfl, hValue⟩)]
          apply ih
          intro d hd
          exact hAll d (List.mem_cons_of_mem e hd)

/- Printing and parsing again gives the map back. -/
theorem unflatten_flatten
    {mMap : Map}
    (hAll : AllSeparable mMap) :
    unflatten (flatten mMap) = mMap := by
  unfold unflatten
  rw [flatten_eq, unflattenFrom_flattenEntries hAll,
    KeyedVector.foldl_add_entries]

end Parameters

end Camera

end Universal7420

------------------------------------------------------------
-- Fix-Ups
------------------------------------------------------------

namespace Universal7420

namespace Camera

namespace Parameters

open CText

/- The wrapper's key and list have no separators. -/
theorem videoSizes_clear :
    ('=' ∉ videoSizeKey ∧ ';' ∉ videoSizeKey) ∧
      '=' ∉ videoSizeValues ∧ ';' ∉ videoSizeValues := by
  decide +kernel

theorem set_videoSizes
    (mMap : Map) :
    set mMap (some videoSizeKey) (some videoSizeValues) =
      mMap.replaceValueFor videoSizeKey videoSizeValues := by
  rcases videoSizes_clear with ⟨hKey, hValues⟩
  simp [set, strchr_eq_none_iff.mpr hKey.1,
    strchr_eq_none_iff.mpr hKey.2,
    strchr_eq_none_iff.mpr hValues.1,
    strchr_eq_none_iff.mpr hValues.2]

theorem AllSeparable.replaceValueFor
    {mMap : Map}
    (hAll : AllSeparable mMap)
    {k v : List Char}
    (hNew : Separable (k, v)) :
    AllSeparable (mMap.replaceValueFor k v) := by
  apply AllSeparable.add _ hNew
  intro e he
  exact hAll e (List.mem_of_mem_filter he)

theorem allSeparable_set
    (settings : List Char) :
    AllSeparable
      (set (unflatten settings) (some videoSizeKey)
        (some videoSizeValues)) := by
  have hNew : Separable (videoSizeKey, videoSizeValues) := by
    simp only [Separable, videoSizes_clear, not_false_eq_true,
      and_self]
  rw [set_videoSizes]
  exact (allSeparable_unflatten settings).replaceValueFor hNew

/-
  For every text, the fix-up of set parameters keeps the map,
  and that of get parameters changes the value of one key.
-/
theorem fixups_meaning
    (settings : List Char) :
    unflatten (camera2FixupSetparams settings) =
        unflatten settings ∧
      (unflatten (camera2FixupGetparams settings)).lookup =
        Function.update (unflatten settings).lookup
          videoSizeKey (some videoSizeValues) := by
  constructor
  · exact unflatten_flatten (allSeparable_unflatten settings)
  · funext key
    unfold camera2FixupGetparams
    rw [unflatten_flatten (allSeparable_set settings),
      set_videoSizes, KeyedVector.lookup_replaceValueFor]
    by_cases hKey : key = videoSizeKey
    · rw [if_pos hKey, hKey, Function.update_self]
    · rw [if_neg hKey, Function.update_of_ne hKey]

end Parameters

end Camera

end Universal7420

------------------------------------------------------------
-- Through The Wrapper
------------------------------------------------------------

namespace Universal7420

namespace Camera

namespace Parameters

variable {σ : Type}

/- The functions of the vendor device that take parameters. -/
structure Vendor (σ : Type) where
  setParameters : List Char → σ → Int32 × σ
  getParameters : σ → List Char × σ
  putParameters : List Char → σ → σ

/- `camera2_set_parameters`; no vendor is a null device. -/
def camera2SetParameters
    (device : Option (Vendor σ))
    (params : List Char)
    (s : σ) : Int32 × σ :=
  match device with
  | none => (einval, s)
  | some vendor =>
      let tmp := camera2FixupSetparams params
      vendor.setParameters tmp s

/- `camera2_get_parameters` -/
def camera2GetParameters
    (device : Option (Vendor σ))
    (s : σ) : Option (List Char) × σ :=
  match device with
  | none => (none, s)
  | some vendor =>
      let (params, s) := vendor.getParameters s
      let tmp := camera2FixupGetparams params
      (some tmp, vendor.putParameters params s)

/- The vendor reads a text by its map only. -/
def Vendor.ReadsMap (vendor : Vendor σ) : Prop :=
  ∀ params params' s,
    unflatten params = unflatten params' →
      vendor.setParameters params s =
        vendor.setParameters params' s

/- Such a vendor does not notice the wrapper. -/
theorem camera2SetParameters_eq
    {vendor : Vendor σ}
    (hReads : vendor.ReadsMap)
    (params : List Char)
    (s : σ) :
    camera2SetParameters (some vendor) params s =
      vendor.setParameters params s := by
  apply hReads
  exact unflatten_flatten (allSeparable_unflatten params)

/- What a client got is passed on unchanged. -/
theorem camera2SetParameters_got
    {vendor : Vendor σ}
    {s s' : σ}
    {params : List Char}
    (hGot :
      camera2GetParameters (some vendor) s =
        (some params, s'))
    (t : σ) :
    camera2SetParameters (some vendor) params t =
      vendor.setParameters params t := by
  have hParams :
      camera2FixupGetparams (vendor.getParameters s).1 =
        params :=
    Option.some.inj (congrArg Prod.fst hGot)
  have hSame : camera2FixupSetparams params = params := by
    rw [← hParams]
    unfold camera2FixupSetparams camera2FixupGetparams
    rw [unflatten_flatten (allSeparable_set _)]
  unfold camera2SetParameters
  rw [hSame]

end Parameters

end Camera

end Universal7420
