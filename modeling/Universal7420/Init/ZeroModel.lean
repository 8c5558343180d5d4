import Universal7420.Init.InitSec

/-
  The region of the device in `zero-helpers.h`.

  `zero_model_read` compares the beginning of the bootloader
  version with the codes of the regions.  Four codes of the
  last region are compared over one character too many, so
  that they only match a version that ends there.

  Main declarations:
    * `Universal7420.Init.ZeroModel`
    * `Universal7420.Init.zeroModelRead`
    * `Universal7420.Init.rilLibPath`
    * `Universal7420.Init.documentedModel`
    * `Universal7420.Init.RegionClear`
    * `Universal7420.Init.zero_model_iff`
-/

------------------------------------------------------------
-- Reading The Region
------------------------------------------------------------

namespace Universal7420

namespace Init

open CText

/- `enum zero_model` -/
inductive ZeroModel where
| undefined
| default
| india
| tmobile
| canada
| sprint
deriving DecidableEq, Repr

/-
  The value of a property: at most `PROPERTY_VALUE_MAX - 1`
  characters, none of them null.
-/
structure PropertyValue where
  text : List Char
  terminated : '\x00' ∉ text
  fits : text.length < propValueMax

/- `!strncmp(bootloader, code, n)` -/
def startsLike
    (bootloader code : List Char)
    (n : Nat) : Bool :=
  strncmp n bootloader code = 0

/- The chain of comparisons. -/
def classify (bootloader : List Char) : ZeroModel :=
  if startsLike bootloader ['G', '9', '2', '0', 'I'] 5 ||
      startsLike bootloader ['G', '9', '2', '5', 'I'] 5 ||
      startsLike bootloader ['G', '9', '2', '8', 'I'] 5 ||
      startsLike bootloader ['N', '9', '2', '0', 'I'] 5 then
    .india
  else if startsLike bootloader ['G', '9', '2', '0', 'T'] 5 ||
      startsLike bootloader ['G', '9', '2', '5', 'T'] 5 ||
      startsLike bootloader ['G', '9', '2', '8', 'T'] 5 ||
      startsLike bootloader ['N', '9', '2', '0', 'T'] 5 then
    .tmobile
  else if
      startsLike bootloader ['G', '9', '2', '0', 'W', '8'] 6 ||
      startsLike bootloader ['G', '9', '2', '5', 'W', '8'] 6 ||
      startsLike bootloader ['G', '9', '2', '8', 'W', '8'] 6 ||
      startsLike bootloader ['N', '9', '2', '0', 'W', '8'] 6
      then
    .canada
  else if startsLike bootloader ['G', '9', '2', '0', 'P'] 6 ||
      startsLike bootloader ['G', '9', '2', '5', 'P'] 6 ||
      startsLike bootloader ['G', '9', '2', '0', 'R', '4'] 6 ||
      startsLike bootloader ['G', '9', '2', '5', 'R', '4'] 6 ||
      startsLike bootloader ['G', '9', '2', '0', '0'] 6 ||
      startsLike bootloader ['G', '9', '2', '5', '0'] 6 ||
      startsLike bootloader ['G', '9', '2', '0', '8'] 6 ||
      startsLike bootloader ['G', '9', '2', '5', '8'] 6 ||
      startsLike bootloader ['G', '9', '2', '0', '9'] 6 ||
      startsLike bootloader ['G', '9', '2', '5', '9'] 6 then
    .sprint
  else
    .default

/-
  `zero_model_read`: the result, which is also the new value of
  the cache `__zero_model`.
-/
def zeroModelRead
    (cache : ZeroModel)
    (bootloader : List Char) : ZeroModel :=
  if cache ≠ .undefined then
    cache
  else if bootloader.length = 0 ∨
      propValueMax ≤ bootloader.length then
    .undefined
  else
    classify bootloader

/- The results of the calls that a process makes. -/
def zeroModelReads
    (bootloader : List Char) :
    Nat → ZeroModel → List ZeroModel
| 0, _ => []
| n + 1, cache =>
    let result := zeroModelRead cache bootloader
    result :: zeroModelReads bootloader n result

/- The library that `rild` loads for a region. -/
def rilLibPath : ZeroModel → String
| .india => "/vendor/lib64/libsec-ril-india"
| .tmobile => "/vendor/lib64/libsec-ril-tmobile"
| .canada => "/vendor/lib64/libsec-ril-canada"
| .sprint => "/vendor/lib64/libsec-ril-spr"
| .undefined | .default => "/vendor/lib64/libsec-ril"

end Init

end Universal7420

------------------------------------------------------------
-- The Documented Region
------------------------------------------------------------

namespace Universal7420

namespace Init

open CText

/- The codes of the last region that have one character. -/
def shortCodes : List Char :=
  ['P', '0', '8', '9']

/- The comments of `enum zero_model`. -/
def documentedModel (code : List Char) : ZeroModel :=
  if ['I'] <+: code then .india
  else if ['T'] <+: code then .tmobile
  else if ['W', '8'] <+: code then .canada
  else if ['R', '4'] <+: code ∨
      shortCodes.any (fun c => [c] <+: code) then .sprint
  else .default

/- The comparisons after the name of the family. -/
def codeModel (code : List Char) : ZeroModel :=
  if startsLike code ['I'] 1 then .india
  else if startsLike code ['T'] 1 then .tmobile
  else if startsLike code ['W', '8'] 2 then .canada
  else if startsLike code ['R', '4'] 2 ∨
      shortCodes.any (fun c => startsLike code [c] 2) then
    .sprint
  else .default

/- Both families of the claim are compared alike. -/
theorem classify_append
    {family : List Char}
    (hFamily : family ∈ [flat.name, edge.name])
    (code : List Char) :
    classify (family ++ code) = codeModel code := by
  rcases List.mem_pair.mp hFamily with rfl | rfl
  · simp [classify, flat, startsLike, strncmp, codeModel,
      shortCodes, or_assoc, or_left_comm]
  · simp [classify, edge, startsLike, strncmp, codeModel,
      shortCodes, or_assoc, or_left_comm]

/- A comparison of the right length looks for a prefix. -/
theorem startsLike_prefix_iff
    {text code : List Char}
    (hText : '\x00' ∉ text)
    (hCode : '\x00' ∉ code) :
    startsLike text code code.length = true ↔
      code <+: text := by
  rw [startsLike, decide_eq_true_eq,
    strncmp_eq_zero_iff hText hCode, List.take_length,
    List.prefix_iff_eq_take]
  exact eq_comm

/- A longer one looks for the whole text. -/
theorem startsLike_iff_eq
    {text code : List Char}
    (hText : '\x00' ∉ text)
    (hCode : '\x00' ∉ code) :
    startsLike text code (code.length + 1) = true ↔
      text = code := by
  rw [startsLike, decide_eq_true_eq,
    strncmp_eq_zero_iff hText hCode,
    List.take_of_length_le (Nat.le_succ code.length)]
  constructor
  · intro hTake
    have hLength := congrArg List.length hTake
    rw [List.length_take] at hLength
    rw [List.take_of_length_le (by omega)] at hTake
    exact hTake
  · intro hSame
    rw [hSame]
    exact List.take_of_length_le (Nat.le_succ code.length)

theorem singleton_prefix_iff
    {c : Char}
    {text : List Char} :
    [c] <+: text ↔ text.head? = some c := by
  cases text with
  | nil =>
      simp
  | cons d text =>
      simp [List.cons_prefix_cons, eq_comm]

/- The code is followed by nothing if it is a short one. -/
def ShortCodeEnds (code : List Char) : Prop :=
  ∀ c ∈ shortCodes, [c] <+: code → code.length = 1

/- The longer comparisons look for prefixes. -/
theorem startsLike_codes
    {code : List Char}
    (hCode : '\x00' ∉ code) :
    (startsLike code ['I'] 1 = true ↔ ['I'] <+: code) ∧
      (startsLike code ['T'] 1 = true ↔ ['T'] <+: code) ∧
      (startsLike code ['W', '8'] 2 = true ↔
        ['W', '8'] <+: code) ∧
      (startsLike code ['R', '4'] 2 = true ↔
        ['R', '4'] <+: code) :=
  ⟨startsLike_prefix_iff hCode (by decide),
    startsLike_prefix_iff hCode (by decide),
    startsLike_prefix_iff hCode (by decide),
    startsLike_prefix_iff hCode (by decide)⟩

/- A short code is compared with its end. -/
theorem startsLike_shortCode
    {code : List Char}
    (hCode : '\x00' ∉ code)
    {c : Char}
    (hMem : c ∈ shortCodes) :
    startsLike code [c] 2 = true ↔ code = [c] := by
  apply startsLike_iff_eq hCode
  rw [List.mem_singleton]
  rintro rfl
  revert hMem
  decide

/- No other code begins like a short one. -/
theorem not_prefix_of_short
    {code : List Char}
    {c : Char}
    (hMem : c ∈ shortCodes)
    (hPrefix : [c] <+: code)
    {x : Char}
    (hLong : x ∉ shortCodes)
    (rest : List Char) :
    ¬ (x :: rest) <+: code := by
  intro hFirst
  have hHead := singleton_prefix_iff.mp hPrefix
  have hSame := singleton_prefix_iff.mp
    ((List.prefix_append [x] rest).trans hFirst)
  rw [hHead] at hSame
  cases hSame
  exact hLong hMem

theorem documentedModel_of_short
    {code : List Char}
    {c : Char}
    (hMem : c ∈ shortCodes)
    (hPrefix : [c] <+: code) :
    documentedModel code = .sprint := by
  have hOther :
      ∀ {x}, x ∉ shortCodes →
        ∀ rest, ¬ (x :: rest) <+: code :=
    not_prefix_of_short hMem hPrefix
  have hShort :
      shortCodes.any (fun c => [c] <+: code) = true := by
    rw [List.any_eq_true]
    exact ⟨c, hMem, decide_eq_true hPrefix⟩
  unfold documentedModel
  rw [if_neg (hOther (by decide) _),
    if_neg (hOther (by decide) _),
    if_neg (hOther (by decide) _), if_pos (Or.inr hShort)]

/- A short code is found only if the text ends there. -/
theorem codeModel_of_short
    {code : List Char}
    (hCode : '\x00' ∉ code)
    {c : Char}
    (hMem : c ∈ shortCodes)
    (hPrefix : [c] <+: code) :
    codeModel code = .sprint ↔ code.length = 1 := by
  rcases startsLike_codes hCode with
    ⟨hIndia, hTmobile, hCanada, hSprint⟩
  have hOther :
      ∀ {x}, x ∉ shortCodes →
        ∀ rest, ¬ (x :: rest) <+: code :=
    not_prefix_of_short hMem hPrefix
  unfold codeModel
  simp only [hIndia, hTmobile, hCanada, hSprint,
    List.any_eq_true]
  rw [if_neg (hOther (by decide) _),
    if_neg (hOther (by decide) _),
    if_neg (hOther (by decide) _)]
  constructor
  · intro hSame
    by_contra hLonger
    rw [if_neg] at hSame
    · cases hSame
    · rintro (hFour | ⟨e, he, hWhole⟩)
      · exact hOther (by decide) _ hFour
      · rw [(startsLike_shortCode hCode he).mp hWhole]
          at hLonger
        exact hLonger rfl
  · intro hLength
    have hWhole : code = [c] :=
      (hPrefix.eq_of_length hLength.symm).symm
    rw [if_pos]
    exact Or.inr
      ⟨c, hMem, (startsLike_shortCode hCode hMem).mpr hWhole⟩

theorem codeModel_eq_documentedModel_iff
    {code : List Char}
    (hCode : '\x00' ∉ code) :
    codeModel code = documentedModel code ↔
      ShortCodeEnds code := by
  by_cases hAny : ∃ c ∈ shortCodes, [c] <+: code
  · rcases hAny with ⟨c, hMem, hPrefix⟩
    rw [documentedModel_of_short hMem hPrefix,
      codeModel_of_short hCode hMem hPrefix]
    constructor
    · intro hLength d _ _
      exact hLength
    · intro hEnds
      exact hEnds c hMem hPrefix
  · rcases startsLike_codes hCode with
      ⟨hIndia, hTmobile, hCanada, hSprint⟩
    have hNoWhole :
        ¬ ∃ c ∈ shortCodes,
          startsLike code [c] 2 = true := by
      rintro ⟨c, hMem, hWhole⟩
      apply hAny
      rw [startsLike_shortCode hCode hMem] at hWhole
      exact ⟨c, hMem, by rw [hWhole]⟩
    have hEnds : ShortCodeEnds code := by
      intro c hMem hPrefix
      exact absurd ⟨c, hMem, hPrefix⟩ hAny
    unfold codeModel documentedModel
    simp only [hIndia, hTmobile, hCanada, hSprint,
      List.any_eq_true, decide_eq_true_eq, hAny, hNoWhole,
      hEnds]

end Init

end Universal7420

------------------------------------------------------------
-- Both Tables
------------------------------------------------------------

namespace Universal7420

namespace Init

open CText

/- The models of the other table that have a region. -/
def regionModels : List (String × ZeroModel) :=
  [ ("SM-G920I", .india), ("SM-G925I", .india)
  , ("SM-G920T", .tmobile), ("SM-G925T", .tmobile)
  , ("SM-G920W8", .canada), ("SM-G925W8", .canada)
  , ("SM-G920P", .sprint), ("SM-G925P", .sprint) ]

/-
  Every call gives the documented region of the code, and the
  region of the model that `vendor_load_properties` picks.
-/
structure RegionRight (b : PropertyValue) : Prop where
  documented :
    ∀ family ∈ [flat.name, edge.name], ∀ code,
      b.text = family ++ code →
      ∀ n, ∀ region ∈ zeroModelReads b.text n .undefined,
        region = documentedModel code
  agrees :
    ∀ deviceOrig, ∀ entry ∈ regionModels,
      (identify deviceOrig b.text).model = entry.1 →
      ∀ n, ∀ region ∈ zeroModelReads b.text n .undefined,
        region = entry.2

/-
  A short code ends the text, and a model with a region that
  is found first has the region of the code at the beginning.
-/
structure RegionClear (text : List Char) : Prop where
  ends : ShortCodeEnds (text.drop 4)
  single :
    ∀ f v, FindsVariant text f v →
      ∀ entry ∈ regionModels, v.model = entry.1 →
        documentedModel (text.drop 4) = entry.2

theorem classify_ne_undefined
    (bootloader : List Char) :
    classify bootloader ≠ .undefined := by
  unfold classify
  split_ifs <;> simp

/- A call with a cached region returns it. -/
theorem zeroModelReads_cached
    {cache : ZeroModel}
    (hCache : cache ≠ .undefined)
    (bootloader : List Char)
    (n : Nat) :
    ∀ region ∈ zeroModelReads bootloader n cache,
      region = cache := by
  induction n with
  | zero =>
      simp [zeroModelReads]
  | succ n ih =>
      have hRead :
          zeroModelRead cache bootloader = cache := by
        rw [zeroModelRead, if_pos hCache]
      rw [zeroModelReads, hRead]
      simpa using ih

/- All calls of a process return what the first one finds. -/
theorem zeroModelReads_eq
    {b : PropertyValue}
    (hSome : b.text ≠ [])
    (n : Nat) :
    ∀ region ∈ zeroModelReads b.text n .undefined,
      region = classify b.text := by
  have hFirst :
      zeroModelRead .undefined b.text = classify b.text := by
    have hLength : ¬ (b.text.length = 0 ∨
        propValueMax ≤ b.text.length) := by
      have hPositive := List.length_pos_iff.mpr hSome
      have hFits := b.fits
      omega
    rw [zeroModelRead, if_neg (by simp), if_neg hLength]
  cases n with
  | zero =>
      simp [zeroModelReads]
  | succ n =>
      rw [zeroModelReads, hFirst]
      intro region hMem
      rcases List.mem_cons.mp hMem with hHead | hTail
      · exact hHead
      · exact zeroModelReads_cached
          (classify_ne_undefined b.text) b.text n region
          hTail

theorem mem_zeroModelReads_one
    (text : List Char) :
    zeroModelRead .undefined text ∈
      zeroModelReads text 1 .undefined := by
  simp [zeroModelReads]

/- A model with a region comes from a variant that is found. -/
theorem exists_found_of_model
    {deviceOrig : String}
    {bootloader : List Char}
    {entry : String × ZeroModel}
    (hEntry : entry ∈ regionModels)
    (hModel :
      (identify deviceOrig bootloader).model = entry.1) :
    ∃ f v, FindsVariant bootloader f v ∧
      v.model = entry.1 := by
  by_cases hFound : Identified deviceOrig bootloader
  · rcases hFound with ⟨f, v, hFinds, hOther⟩
    rw [identify_of_found hFinds hOther] at hModel
    exact ⟨f, v, hFinds, hModel⟩
  · rw [(identify_of_not_identified hFound).1] at hModel
    have hNamed : ∀ e ∈ regionModels, "" ≠ e.1 := by
      decide
    exact absurd hModel (hNamed entry hEntry)

/- It is picked for some original device. -/
theorem exists_picked
    {bootloader : List Char}
    {f : Family}
    {v : Variant}
    (hFinds : FindsVariant bootloader f v) :
    ∃ deviceOrig,
      (identify deviceOrig bootloader).model = v.model := by
  by_cases hEmpty : v.keptFor = some ""
  · have hOther : v.keptFor ≠ some "zeroflte" := by
      rw [hEmpty]
      decide
    exact ⟨_, by rw [identify_of_found hFinds hOther]⟩
  · exact ⟨_, by rw [identify_of_found hFinds hEmpty]⟩

/-
  For every version of a flat or an edge device, both tables
  give the documented region, if and only if its code is clear.
-/
theorem zero_model_iff
    {b : PropertyValue}
    (hStart :
      ∃ family ∈ [flat.name, edge.name],
        family <+: b.text) :
    RegionRight b ↔ RegionClear b.text := by
  rcases hStart with ⟨family, hFamily, code, hText⟩
  have hCode : b.text.drop 4 = code := by
    rw [← hText]
    rcases List.mem_pair.mp hFamily with rfl | rfl
    · rfl
    · rfl
  have hSome : b.text ≠ [] := by
    rw [← hText]
    rcases List.mem_pair.mp hFamily with rfl | rfl
    · simp [flat]
    · simp [edge]
  have hNull : '\x00' ∉ code := by
    intro hMem
    apply b.terminated
    rw [← hText]
    exact List.mem_append_right _ hMem
  have hClassify : classify b.text = codeModel code := by
    rw [← hText]
    exact classify_append hFamily code
  have hReads := zeroModelReads_eq hSome
  have hIff := codeModel_eq_documentedModel_iff hNull
  have hFirst :
      zeroModelRead .undefined b.text = codeModel code := by
    rw [← hClassify]
    exact hReads 1 _ (mem_zeroModelReads_one b.text)
  constructor
  · intro hRight
    have hSame : codeModel code = documentedModel code := by
      rw [← hFirst]
      exact hRight.documented family hFamily code hText.symm
        1 _ (mem_zeroModelReads_one b.text)
    refine ⟨?_, ?_⟩
    · rw [hCode]
      exact hIff.mp hSame
    · intro f v hFinds entry hEntry hModel
      rcases exists_picked hFinds with
        ⟨deviceOrig, hPicked⟩
      rw [hCode, ← hSame, ← hFirst]
      exact hRight.agrees deviceOrig entry hEntry
        (hPicked.trans hModel) 1 _
        (mem_zeroModelReads_one b.text)
  · intro hClear
    have hEnds := hClear.ends
    rw [hCode] at hEnds
    have hSame := hIff.mpr hEnds
    refine ⟨?_, ?_⟩
    · intro family' hFamily' code' hText' n region hMem
      have hCode' : b.text.drop 4 = code' := by
        rw [hText']
        rcases List.mem_pair.mp hFamily' with rfl | rfl
        · rfl
        · rfl
      rw [← hCode', hCode, ← hSame, ← hClassify]
      exact hReads n region hMem
    · intro deviceOrig entry hEntry hModel n region hMem
      rcases exists_found_of_model hEntry hModel with
        ⟨f, v, hFinds, hVariant⟩
      rw [← hClear.single f v hFinds entry hEntry hVariant,
        hCode, ← hSame, ← hClassify]
      exact hReads n region hMem

/- The version of a device for India. -/
def indiaValue : PropertyValue where
  text := ['G', '9', '2', '0', 'I', 'D', 'V', 'U']
  terminated := by decide
  fits := by decide

theorem zero_model_india :
    flat.name <+: indiaValue.text ∧
      RegionRight indiaValue := by
  have hStart : flat.name <+: indiaValue.text := by
    decide
  refine ⟨hStart, (zero_model_iff
    ⟨flat.name, by simp, hStart⟩).mpr ⟨?_, ?_⟩⟩
  · intro c hMem hPrefix
    have hFirst : c = 'I' := by
      simpa [indiaValue] using hPrefix
    rw [hFirst] at hMem
    exact absurd hMem (by decide)
  · intro f v hFinds entry hEntry hModel
    have hFamily := find?_eq_some_iff_isFirst.mpr hFinds.1
    have hFlat :
        families.find? (fun f =>
          mentions indiaValue.text f.name) = some flat := by
      decide
    rw [hFlat] at hFamily
    cases hFamily
    have hVariant := find?_eq_some_iff_isFirst.mpr hFinds.2
    have hIndia :
        flat.variants.find? (fun v =>
            mentions indiaValue.text (flat.name ++ v.code)) =
          some (variant ['I'] "SM-G920I" "zerofltexx") := by
      decide
    rw [hIndia] at hVariant
    cases hVariant
    revert entry
    decide

/- The version of a device of the last region. -/
def sprintValue : PropertyValue where
  text := ['G', '9', '2', '0', 'P', 'V', 'P', 'U']
  terminated := by decide
  fits := by decide

/-
  A device for Sprint gets the default region and library,
  although the other table picks its model.
-/
theorem sprint_not_classified :
    flat.name <+: sprintValue.text ∧
      documentedModel (sprintValue.text.drop 4) = .sprint ∧
      (identify "zeroflte" sprintValue.text).model =
        "SM-G920P" ∧
      zeroModelRead .undefined sprintValue.text = .default ∧
      rilLibPath (zeroModelRead .undefined
        sprintValue.text) = "/vendor/lib64/libsec-ril" ∧
      ¬ RegionRight sprintValue := by
  refine ⟨by decide, by decide, by decide +kernel,
    by decide +kernel, by decide +kernel, ?_⟩
  intro hRight
  have hSprint := hRight.documented flat.name (by simp)
    ['P', 'V', 'P', 'U'] rfl 1 _
    (mem_zeroModelReads_one sprintValue.text)
  exact absurd hSprint (by decide +kernel)

end Init

end Universal7420
