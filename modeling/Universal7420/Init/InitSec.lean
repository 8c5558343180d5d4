import Universal7420.Lib.CString

/-
  The device identity that `init_sec.cpp` writes at boot.

  `vendor_load_properties` looks for model codes anywhere in
  the bootloader version, and overrides the identity with
  whatever it has found, also with nothing.

  Main declarations:
    * `Universal7420.Init.families`
    * `Universal7420.Init.identify`
    * `Universal7420.Init.vendorLoadProperties`
    * `Universal7420.Init.Identified`
    * `Universal7420.Init.identity_kept_iff`
-/

------------------------------------------------------------
-- The Table Of Models
------------------------------------------------------------

namespace Universal7420

namespace Init

open CText

/-
  One test of a variant.  `keptFor` is the original device for
  which nothing is assigned.
-/
structure Variant where
  code : List Char
  model : String
  device : String
  keptFor : Option String
  dualsim : Bool
deriving DecidableEq, Repr

/- The tests for one family of devices. -/
structure Family where
  name : List Char
  product : String
  variants : List Variant
deriving DecidableEq, Repr

def variant
    (code : List Char)
    (model device : String) : Variant where
  code := code
  model := model
  device := device
  keptFor := none
  dualsim := false

def flat : Family where
  name := ['G', '9', '2', '0']
  product := "zeroflte"
  variants :=
    [ { variant ['F'] "SM-G920F" "zerofltexx" with
        keptFor := some "zeroflteduo" }
    , variant ['I'] "SM-G920I" "zerofltexx"
    , variant ['K'] "SM-G920K" "zerofltektt"
    , variant ['L'] "SM-G920L" "zerofltelgt"
    , variant ['P'] "SM-G920P" "zerofltespr"
    , variant ['S'] "SM-G920S" "zeroflteskt"
    , variant ['T'] "SM-G920T" "zerofltetmo"
    , variant ['W', '8'] "SM-G920W8" "zerofltecan" ]

def edge : Family where
  name := ['G', '9', '2', '5']
  product := "zerolte"
  variants :=
    [ { variant ['F'] "SM-G925F" "zeroltexx" with
        keptFor := some "zeroflteduo" }
    , variant ['I'] "SM-G925I" "zeroltexx"
    , variant ['K'] "SM-G925K" "zeroltektt"
    , variant ['L'] "SM-G925L" "zeroltelgt"
    , variant ['P'] "SM-G925P" "zeroltespr"
    , variant ['S'] "SM-G925S" "zerolteskt"
    , variant ['T'] "SM-G925T" "zeroltetmo"
    , variant ['W', '8'] "SM-G925W8" "zeroltecan" ]

def edgePlus : Family where
  name := ['G', '9', '2', '8']
  product := "zenlte"
  variants :=
    [ { variant ['F'] "SM-G928F" "zenltexx" with
        keptFor := some "zenltexx" }
    , variant ['C'] "SM-G928C" "zenltejv"
    , variant ['I'] "SM-G928I" "zenltedv"
    , variant ['G'] "SM-G928G" "zenltedd"
    , variant ['K'] "SM-G928K" "zenltektt"
    , variant ['L'] "SM-G928L" "zenltelgt"
    , variant ['S'] "SM-G928S" "zenlteskt"
    , variant ['T'] "SM-G928T" "zenltetmo"
    , variant ['W', '8'] "SM-G928W8" "zenltecan" ]

def note5 : Family where
  name := ['N', '9', '2', '0']
  product := "noblelte"
  variants :=
    [ { variant ['C'] "SM-N920C" "nobleltejv" with
        keptFor := some "nobleltejv"
        dualsim := true }
    , { variant ['8'] "SM-N9208" "nobleltezt" with
        dualsim := true }
    , variant ['G'] "SM-N920G" "nobleltedd"
    , variant ['I'] "SM-N920I" "nobleltedv"
    , variant ['P'] "SM-N920P" "nobleltespr"
    , variant ['S'] "SM-N920S" "noblelteskt"
    , variant ['K'] "SM-N920K" "nobleltektt"
    , variant ['L'] "SM-N920L" "nobleltelgt"
    , variant ['T'] "SM-N920T" "nobleltetmo"
    , variant ['W', '8'] "SM-N920W8" "nobleltecan" ]

/- The families in the order of their tests. -/
def families : List Family :=
  [flat, edge, edgePlus, note5]

/- `bootloader.find(code) != string::npos` -/
def mentions
    (bootloader code : List Char) : Bool :=
  (find code bootloader).isSome

/- The local variables that the table fills in. -/
structure Identity where
  model : String
  device : String
  product : String
  dualsim : Bool
deriving DecidableEq, Repr

def identify
    (deviceOrig : String)
    (bootloader : List Char) : Identity :=
  match families.find?
      (fun f => mentions bootloader f.name) with
  | none => ⟨"", "", "", false⟩
  | some f =>
      match f.variants.find? (fun v =>
          mentions bootloader (f.name ++ v.code)) with
      | none => ⟨"", "", f.product, false⟩
      | some v =>
          if v.keptFor = some deviceOrig then
            ⟨"", "", f.product, false⟩
          else
            ⟨v.model, v.device, f.product, v.dualsim⟩

end Init

end Universal7420

------------------------------------------------------------
-- Properties
------------------------------------------------------------

namespace Universal7420

namespace Init

open CText

/- The system properties. -/
abbrev Properties : Type :=
  String → Option String

/- `base::GetProperty(name, "")` -/
def getProperty
    (props : Properties)
    (name : String) : String :=
  (props name).getD ""

/- `PROP_VALUE_MAX` -/
def propValueMax : Nat := 92

/-
  `property_override`.  A value that does not fit is refused,
  and the refusal is ignored.
-/
def propertyOverride
    (props : Properties)
    (entry : String × String) : Properties :=
  if entry.2.length < propValueMax then
    Function.update props entry.1 (some entry.2)
  else
    props

/- `replace` -/
def replace
    (str pattern new : String) : String :=
  String.ofList
    (replaceFirst str.toList pattern.toList new.toList)

/- The description or fingerprint with the new device name. -/
def renamed
    (props : Properties)
    (deviceOrig device name : String) : String :=
  let orig := getProperty props name
  if deviceOrig ≠ "" ∧ orig ≠ "" then
    replace orig deviceOrig device
  else
    orig

/- The overrides in their order. -/
def overrides
    (props : Properties)
    (deviceOrig : String)
    (identity : Identity) : List (String × String) :=
  [ ("ro.product.model", identity.model)
  , ("ro.product.device", identity.device)
  , ("ro.build.product", identity.product)
  , ("ro.lineage.device", identity.device)
  , ("ro.vendor.product.device", identity.device)
  , ("ro.build.description",
      renamed props deviceOrig identity.device
        "ro.build.description")
  , ("ro.build.fingerprint",
      renamed props deviceOrig identity.device
        "ro.build.fingerprint")
  , ("ro.boot.warranty_bit", "0")
  , ("ro.warranty_bit", "0")
  , ("ro.boot.veritymode", "enforcing")
  , ("ro.boot.verifiedbootstate", "green")
  , ("ro.boot.flash.locked", "1")
  , ("ro.boot.ddrinfo", "00000001")
  , ("ro.build.selinux", "1")
  , ("ro.fmp_config", "1")
  , ("ro.boot.fmp_config", "1")
  , ("sys.oem_unlock_allowed", "0") ] ++
    if identity.dualsim then
      [ ("persist.multisim.config", "dsds")
      , ("persist.radio.multisim.config", "dsds")
      , ("ro.multisim.simslotcount", "2")
      , ("ro.telephony.default_network", "9,9") ]
    else
      []

/- `vendor_load_properties` -/
def vendorLoadProperties
    (props : Properties) : Properties :=
  let deviceOrig := getProperty props "ro.product.device"
  let bootloader := getProperty props "ro.bootloader"
  let identity := identify deviceOrig bootloader.toList
  (overrides props deviceOrig identity).foldl
    propertyOverride props

end Init

end Universal7420

------------------------------------------------------------
-- What The Table Finds
------------------------------------------------------------

namespace Universal7420

namespace Init

open CText

/- The first element of a list with a property. -/
def IsFirst
    {α : Type}
    (P : α → Prop)
    (xs : List α)
    (x : α) : Prop :=
  P x ∧ ∃ before after, xs = before ++ x :: after ∧
    ∀ y ∈ before, ¬ P y

theorem IsFirst.mem
    {α : Type}
    {P : α → Prop}
    {xs : List α}
    {x : α}
    (hFirst : IsFirst P xs x) :
    x ∈ xs := by
  rcases hFirst.2 with ⟨before, after, hSplit, _⟩
  simp [hSplit]

theorem mentions_iff
    {bootloader code : List Char} :
    mentions bootloader code = true ↔
      code <:+: bootloader :=
  find_isSome_iff

/- The family and the variant that are found first. -/
def FindsVariant
    (bootloader : List Char)
    (f : Family)
    (v : Variant) : Prop :=
  IsFirst (fun f => f.name <:+: bootloader) families f ∧
    IsFirst (fun v => f.name ++ v.code <:+: bootloader)
      f.variants v

theorem find?_eq_some_iff_isFirst
    {α : Type}
    {code : α → List Char}
    {bootloader : List Char}
    {xs : List α}
    {x : α} :
    xs.find? (fun y => mentions bootloader (code y)) =
        some x ↔
      IsFirst (fun y => code y <:+: bootloader) xs x := by
  simp only [List.find?_eq_some_iff_append, IsFirst,
    mentions_iff, Bool.not_eq_true', ← Bool.not_eq_true]

/-
  The bootloader names a known variant of its family, and the
  original device is not the one that is left alone.
-/
def Identified
    (deviceOrig : String)
    (bootloader : List Char) : Prop :=
  ∃ f v, FindsVariant bootloader f v ∧
    v.keptFor ≠ some deviceOrig

/- The table assigns the names of the variant it finds. -/
theorem identify_of_found
    {deviceOrig : String}
    {bootloader : List Char}
    {f : Family}
    {v : Variant}
    (hFound : FindsVariant bootloader f v)
    (hOther : v.keptFor ≠ some deviceOrig) :
    identify deviceOrig bootloader =
      ⟨v.model, v.device, f.product, v.dualsim⟩ := by
  have hFamily := find?_eq_some_iff_isFirst.mpr hFound.1
  have hVariant := find?_eq_some_iff_isFirst.mpr hFound.2
  simp only [identify, hFamily, hVariant, if_neg hOther]

/- Otherwise it assigns neither a model nor a device. -/
theorem identify_of_not_identified
    {deviceOrig : String}
    {bootloader : List Char}
    (hNone : ¬ Identified deviceOrig bootloader) :
    (identify deviceOrig bootloader).model = "" ∧
      (identify deviceOrig bootloader).device = "" := by
  unfold identify
  split
  · exact ⟨rfl, rfl⟩
  · rename_i f hFamily
    split
    · exact ⟨rfl, rfl⟩
    · rename_i v hVariant
      split
      · exact ⟨rfl, rfl⟩
      · rename_i hOther
        have hFound : FindsVariant bootloader f v :=
          ⟨find?_eq_some_iff_isFirst.mp hFamily,
            find?_eq_some_iff_isFirst.mp hVariant⟩
        exact absurd ⟨f, v, hFound, hOther⟩ hNone

/- The names of the table are proper property values. -/
def ProperName (name : String) : Prop :=
  name ≠ "" ∧ name.length < propValueMax

instance (name : String) : Decidable (ProperName name) := by
  unfold ProperName
  infer_instance

theorem families_proper :
    ∀ f ∈ families, ProperName f.product ∧
      ∀ v ∈ f.variants,
        ProperName v.model ∧ ProperName v.device := by
  decide +kernel

end Init

end Universal7420

------------------------------------------------------------
-- Overriding
------------------------------------------------------------

namespace Universal7420

namespace Init

open CText

/- Later overrides of other properties change nothing. -/
theorem foldl_propertyOverride_of_not_mem
    {name : String}
    {entries : List (String × String)}
    (hOther : ∀ entry ∈ entries, entry.1 ≠ name)
    (props : Properties) :
    entries.foldl propertyOverride props name =
      props name := by
  induction entries generalizing props with
  | nil =>
      rfl
  | cons entry entries ih =>
      rw [List.foldl_cons, ih]
      · unfold propertyOverride
        split
        · apply Function.update_of_ne
          exact (hOther entry (by simp)).symm
        · rfl
      · intro other hMem
        exact hOther other (List.mem_cons_of_mem _ hMem)

/- A property has the value of its override, if it fits. -/
theorem getProperty_foldl_propertyOverride
    {name value : String}
    {entries : List (String × String)}
    (hNames : (entries.map Prod.fst).Nodup)
    (hMem : (name, value) ∈ entries)
    (props : Properties) :
    getProperty (entries.foldl propertyOverride props) name =
      if value.length < propValueMax then value
      else getProperty props name := by
  induction entries generalizing props with
  | nil =>
      cases hMem
  | cons entry entries ih =>
      rw [List.map_cons, List.nodup_cons] at hNames
      rw [List.foldl_cons]
      rcases List.mem_cons.mp hMem with hHead | hTail
      · have hLater :
            ∀ other ∈ entries, other.1 ≠ name := by
          intro other hOther hSame
          apply hNames.1
          rw [← hHead]
          exact List.mem_map.mpr ⟨other, hOther, hSame⟩
        unfold getProperty
        rw [foldl_propertyOverride_of_not_mem hLater,
          ← hHead, propertyOverride]
        split
        · simp
        · rfl
      · have hOther : entry.1 ≠ name := by
          intro hSame
          apply hNames.1
          exact List.mem_map.mpr ⟨_, hTail, hSame.symm⟩
        have hKept :
            getProperty (propertyOverride props entry) name =
              getProperty props name := by
          unfold getProperty propertyOverride
          split
          · rw [Function.update_of_ne hOther.symm]
          · rfl
        rw [ih hNames.2 hTail, hKept]

/- No property is overridden twice. -/
theorem overrides_nodup
    (props : Properties)
    (deviceOrig : String)
    (identity : Identity) :
    ((overrides props deviceOrig identity).map
      Prod.fst).Nodup := by
  unfold overrides
  cases identity.dualsim with
  | true =>
      simp
  | false =>
      simp

end Init

end Universal7420

------------------------------------------------------------
-- The Identity Of The Device
------------------------------------------------------------

namespace Universal7420

namespace Init

open CText

/- The properties that are assigned together. -/
def mainNames : List String :=
  ["ro.product.model", "ro.product.device",
    "ro.build.product"]

/- The properties that tell which device it is. -/
def identityNames : List String :=
  mainNames ++
    ["ro.lineage.device", "ro.vendor.product.device"]

/- The properties whose text contains the device name. -/
def textNames : List String :=
  ["ro.build.description", "ro.build.fingerprint"]

/- The device has still an identity. -/
structure KeepsIdentity
    (props after : Properties) : Prop where
  each :
    ∀ name ∈ identityNames,
      getProperty after name = getProperty props name ∨
        getProperty after name ≠ ""
  together :
    (∀ name ∈ mainNames,
      getProperty after name = getProperty props name) ∨
    ∀ name ∈ mainNames, getProperty after name ≠ ""
  texts :
    ∀ name ∈ textNames,
      getProperty props "ro.product.device" ≠ "" →
      (getProperty props "ro.product.device").toList <:+:
        (getProperty props name).toList →
      getProperty after name ≠
        replace (getProperty props name)
          (getProperty props "ro.product.device") ""

/- Each property afterwards. -/
theorem getProperty_vendorLoadProperties
    {props : Properties}
    {name value : String}
    (hMem :
      (name, value) ∈ overrides props
        (getProperty props "ro.product.device")
        (identify (getProperty props "ro.product.device")
          (getProperty props "ro.bootloader").toList)) :
    getProperty (vendorLoadProperties props) name =
      if value.length < propValueMax then value
      else getProperty props name :=
  getProperty_foldl_propertyOverride
    (overrides_nodup _ _ _) hMem props

/- The texts get the new name, unless they are too long. -/
theorem getProperty_text
    (props : Properties)
    {name : String}
    (hName : name ∈ textNames) :
    getProperty (vendorLoadProperties props) name =
        getProperty props name ∨
      getProperty (vendorLoadProperties props) name =
        renamed props (getProperty props "ro.product.device")
          (identify (getProperty props "ro.product.device")
            (getProperty props "ro.bootloader").toList).device
          name := by
  have hMem :
      (name,
          renamed props
            (getProperty props "ro.product.device")
            (identify (getProperty props "ro.product.device")
              (getProperty props
                "ro.bootloader").toList).device name) ∈
        overrides props
          (getProperty props "ro.product.device")
          (identify (getProperty props "ro.product.device")
            (getProperty props "ro.bootloader").toList) := by
    rcases List.mem_pair.mp hName with rfl | rfl
    · simp [overrides]
    · simp [overrides]
  rw [getProperty_vendorLoadProperties hMem]
  split
  · exact Or.inr rfl
  · exact Or.inl rfl

/- A new name leaves another text than no name. -/
theorem replace_ne_replace
    {text old new : String}
    (hFound : old.toList <:+: text.toList)
    (hNew : new ≠ "") :
    replace text old new ≠ replace text old "" := by
  intro hSame
  have hLists := String.ofList_injective hSame
  have hLength := congrArg List.length hLists
  have hFirst := length_replaceFirst hFound new.toList
  have hSecond := length_replaceFirst hFound "".toList
  have hPositive : new.toList ≠ [] := by
    intro hEmpty
    apply hNew
    exact String.toList_eq_nil_iff.mp hEmpty
  have hCount := List.length_pos_iff.mpr hPositive
  have hZero : "".toList.length = 0 := by
    simp
  omega

theorem ne_replace_empty
    {text old : String}
    (hFound : old.toList <:+: text.toList)
    (hOld : old ≠ "") :
    text ≠ replace text old "" := by
  intro hSame
  have hLists := congrArg String.toList hSame
  rw [replace, String.toList_ofList] at hLists
  have hLength := congrArg List.length hLists
  have hReplaced := length_replaceFirst hFound "".toList
  have hPositive : old.toList ≠ [] := by
    intro hEmpty
    apply hOld
    exact String.toList_eq_nil_iff.mp hEmpty
  have hCount := List.length_pos_iff.mpr hPositive
  have hZero : "".toList.length = 0 := by
    simp
  omega

/- A device that is found has its identity afterwards. -/
theorem Identified.keeps
    {props : Properties}
    (hFound :
      Identified (getProperty props "ro.product.device")
        (getProperty props "ro.bootloader").toList) :
    KeepsIdentity props (vendorLoadProperties props) := by
  rcases hFound with ⟨f, v, hFinds, hOther⟩
  have hIdentity := identify_of_found hFinds hOther
  rcases families_proper f hFinds.1.mem with
    ⟨hProduct, hVariants⟩
  rcases hVariants v hFinds.2.mem with ⟨hModel, hDevice⟩
  have hEach :
      ∀ name ∈ identityNames,
        getProperty (vendorLoadProperties props) name ≠
          "" := by
    have hProper :
        ∀ name value,
          (name, value) ∈ overrides props
            (getProperty props "ro.product.device")
            (identify (getProperty props "ro.product.device")
              (getProperty props "ro.bootloader").toList) →
          ProperName value →
          getProperty (vendorLoadProperties props) name ≠
            "" := by
      intro name value hMem hValue
      rw [getProperty_vendorLoadProperties hMem,
        if_pos hValue.2]
      exact hValue.1
    rw [hIdentity] at hProper
    simp only [identityNames, mainNames, List.cons_append,
      List.nil_append, List.forall_mem_cons]
    refine ⟨?_, ?_, ?_, ?_, ?_, by simp⟩
    · exact hProper _ v.model (by simp [overrides]) hModel
    · exact hProper _ v.device (by simp [overrides]) hDevice
    · exact hProper _ f.product (by simp [overrides])
        hProduct
    · exact hProper _ v.device (by simp [overrides]) hDevice
    · exact hProper _ v.device (by simp [overrides]) hDevice
  refine ⟨?_, ?_, ?_⟩
  · intro name hName
    exact Or.inr (hEach name hName)
  · right
    intro name hName
    exact hEach name (List.mem_append_left _ hName)
  · intro name hName hOld hOccurs
    rcases getProperty_text props hName with
      hKept | hNew
    · rw [hKept]
      exact ne_replace_empty hOccurs hOld
    · have hText : getProperty props name ≠ "" := by
        intro hEmpty
        rw [hEmpty] at hOccurs
        apply hOld
        apply String.toList_eq_nil_iff.mp
        exact List.infix_nil.mp (by simpa using hOccurs)
      rw [hNew, hIdentity, renamed,
        if_pos ⟨hOld, hText⟩]
      exact replace_ne_replace hOccurs hDevice.1

/- Properties of a device with a given identity. -/
def bootProperties
    (deviceOrig bootloader : String) : Properties :=
  fun name =>
    if name = "ro.bootloader" then some bootloader
    else if name = "ro.product.device" then some deviceOrig
    else some "SM-G920"

/-
  The identity is kept for every content of the properties,
  if and only if the table knows the bootloader and device.
-/
theorem identity_kept_iff
    (deviceOrig bootloader : String) :
    (∀ props : Properties,
        getProperty props "ro.product.device" = deviceOrig →
        getProperty props "ro.bootloader" = bootloader →
        KeepsIdentity props (vendorLoadProperties props)) ↔
      Identified deviceOrig bootloader.toList := by
  constructor
  · intro hKeeps
    by_contra hNone
    let props := bootProperties deviceOrig bootloader
    have hDevice :
        getProperty props "ro.product.device" =
          deviceOrig := by
      simp [props, bootProperties, getProperty]
    have hBootloader :
        getProperty props "ro.bootloader" = bootloader := by
      simp [props, bootProperties, getProperty]
    have hModel :
        getProperty (vendorLoadProperties props)
          "ro.product.model" = "" := by
      have hEmpty := (identify_of_not_identified hNone).1
      have hMem :
          ("ro.product.model", "") ∈ overrides props
            (getProperty props "ro.product.device")
            (identify (getProperty props "ro.product.device")
              (getProperty props
                "ro.bootloader").toList) := by
        rw [hDevice, hBootloader]
        simp [overrides, hEmpty]
      rw [getProperty_vendorLoadProperties hMem]
      rfl
    have hBefore :
        getProperty props "ro.product.model" =
          "SM-G920" := by
      simp [props, bootProperties, getProperty]
    rcases (hKeeps props hDevice hBootloader).each
        "ro.product.model" (by simp [identityNames,
          mainNames]) with hSame | hFilled
    · rw [hModel, hBefore] at hSame
      exact absurd hSame (by decide)
    · exact hFilled hModel
  · rintro hFound props rfl rfl
    exact hFound.keeps

/- An unknown variant of a known family loses its model. -/
theorem identity_erased :
    ∃ props : Properties,
      getProperty props "ro.bootloader" = "G920AUCU1AOCE" ∧
      getProperty props "ro.product.device" = "zeroflte" ∧
      getProperty props "ro.product.model" = "SM-G920" ∧
      getProperty (vendorLoadProperties props)
        "ro.product.model" = "" ∧
      ¬ KeepsIdentity props (vendorLoadProperties props) := by
  have hModel :
      getProperty
        (vendorLoadProperties
          (bootProperties "zeroflte" "G920AUCU1AOCE"))
        "ro.product.model" = "" := by
    decide +kernel
  refine ⟨bootProperties "zeroflte" "G920AUCU1AOCE", rfl,
    rfl, rfl, hModel, ?_⟩
  intro hKeeps
  rcases hKeeps.each "ro.product.model" (by simp [
      identityNames, mainNames]) with hSame | hFilled
  · rw [hModel] at hSame
    exact absurd hSame (by decide)
  · exact hFilled hModel

end Init

end Universal7420
