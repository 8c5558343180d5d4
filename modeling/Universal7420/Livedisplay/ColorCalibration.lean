import Universal7420.Lib.Decimal
import Mathlib.Data.List.DropRight

/-
  The colour calibration of `DisplayColorCalibration.cpp`.

  `setCalibration` joins the numbers with blanks and trims the
  text.  `getCalibration` trims the content of the node, splits
  it at blanks and reads every field as a number.  An empty
  text still has one field, which is not a number.

  Main declarations:
    * `Universal7420.Livedisplay.getCalibration`
    * `Universal7420.Livedisplay.setCalibration`
    * `Universal7420.Livedisplay.trim_append`
    * `Universal7420.Livedisplay.trim_contents`
    * `Universal7420.Livedisplay.calibration_kept_iff`
-/

------------------------------------------------------------
-- The Service
------------------------------------------------------------

namespace Universal7420

namespace Livedisplay

open CText

/- `Trim` of `android::base` -/
def trim (s : List Char) : List Char :=
  (s.dropWhile isSpace).rdropWhile isSpace

/- `Split` of `android::base` with one delimiter. -/
def split
    (s : List Char)
    (delimiter : Char) : List (List Char) :=
  s.splitOn delimiter

/- `std::to_string(color)` -/
def colorText (color : Int32) : List Char :=
  (toString color.toInt).toList

/-
  `getCalibration`, absent when it throws.  The content of the
  node is absent when it cannot be read.
-/
def getCalibration
    (rgbNode : Option (List Char)) : Option (List Int32) :=
  match rgbNode with
  | none => some []
  | some tmp =>
      (split (trim tmp) ' ').mapM
        (fun color =>
          (stoi (String.ofList color)).map Int32.ofInt)

/- What `setCalibration` writes, before it is trimmed. -/
def contents (rgb : List Int32) : List Char :=
  rgb.foldl
    (fun contents color =>
      contents ++ (colorText color ++ [' ']))
    []

/-
  What becomes of a write to the node.  A failing one may
  leave anything behind.
-/
inductive NodeWrite where
| fails (left : Option (List Char))
| keeps
| addsNewline
deriving DecidableEq, Repr

/- `WriteStringToFile`: the content after it, and its result. -/
def NodeWrite.store
    (write : NodeWrite)
    (text : List Char) : Option (List Char) × Bool :=
  match write with
  | .fails left => (left, false)
  | .keeps => (some text, true)
  | .addsNewline => (some (text ++ ['\n']), true)

def setCalibration
    (write : NodeWrite)
    (rgb : List Int32) : Option (List Char) × Bool :=
  write.store (trim (contents rgb))

end Livedisplay

end Universal7420

------------------------------------------------------------
-- Trimmed Texts
------------------------------------------------------------

namespace Universal7420

namespace Livedisplay

open CText

/- The text starts and ends with other than white space. -/
structure Trimmed (s : List Char) : Prop where
  head : ∃ c rest, s = c :: rest ∧ isSpace c = false
  last : ∃ rest c, s = rest ++ [c] ∧ isSpace c = false

/- White space behind such a text is trimmed. -/
theorem trim_append
    {s blanks : List Char}
    (hTrimmed : Trimmed s)
    (hBlanks : ∀ c ∈ blanks, isSpace c = true) :
    trim (s ++ blanks) = s := by
  have hHead :
      (s ++ blanks).dropWhile isSpace = s ++ blanks := by
    rcases hTrimmed.head with ⟨c, rest, hText, hInk⟩
    rw [hText]
    simp [hInk]
  have hLast :
      ∀ blanks : List Char,
        (∀ c ∈ blanks, isSpace c = true) →
        (s ++ blanks).rdropWhile isSpace = s := by
    intro blanks hBlanks
    induction blanks using List.reverseRecOn with
    | nil =>
        rcases hTrimmed.last with ⟨rest, c, hText, hInk⟩
        rw [hText, List.append_nil,
          List.rdropWhile_concat_neg _ _ _ (by simp [hInk])]
    | append_singleton blanks c ih =>
        rw [← List.append_assoc,
          List.rdropWhile_concat_pos _ _ _
            (hBlanks c (by simp))]
        apply ih
        intro d hd
        exact hBlanks d (by simp [hd])
  rw [trim, hHead]
  exact hLast blanks hBlanks

theorem Trimmed.append
    {s t : List Char}
    (middle : List Char)
    (hFirst : Trimmed s)
    (hSecond : Trimmed t) :
    Trimmed (s ++ middle ++ t) := by
  rcases hFirst.head with ⟨c, rest, hHead, hInk⟩
  rcases hSecond.last with ⟨rest', d, hLast, hInk'⟩
  constructor
  · exact ⟨c, rest ++ middle ++ t, by simp [hHead], hInk⟩
  · exact ⟨s ++ middle ++ rest', d, by simp [hLast], hInk'⟩

end Livedisplay

end Universal7420

------------------------------------------------------------
-- Printed Numbers
------------------------------------------------------------

namespace Universal7420

namespace Livedisplay

open CText

/- No character of a numeral is white space. -/
theorem isSpace_of_mem_numeral
    {n : Numeral}
    {c : Char}
    (hMem : c ∈ n.text) :
    isSpace c = false := by
  rcases List.mem_append.mp hMem with hSign | hDigit
  · rcases hText : n.sign with _ | _ | _
    · rw [hText] at hSign
      cases hSign
    · rw [hText] at hSign
      rw [List.mem_singleton.mp hSign]
      decide
    · rw [hText] at hSign
      rw [List.mem_singleton.mp hSign]
      decide
  · exact not_isSpace_of_isDigit (n.allDigits c hDigit)

theorem colorText_eq
    (color : Int32) :
    colorText color = (Numeral.ofInt color.toInt).text :=
  (Numeral.text_ofInt color.toInt).symm

theorem colorText_ne_nil
    (color : Int32) :
    colorText color ≠ [] := by
  rw [colorText_eq, Numeral.text]
  intro hNil
  exact Numeral.nonempty _ (List.append_eq_nil_iff.mp hNil).2

theorem colorText_trimmed
    (color : Int32) :
    Trimmed (colorText color) := by
  have hInk : ∀ c ∈ colorText color, isSpace c = false := by
    intro c hMem
    rw [colorText_eq] at hMem
    exact isSpace_of_mem_numeral hMem
  have hNonempty := colorText_ne_nil color
  constructor
  · rcases List.exists_cons_of_ne_nil hNonempty with
      ⟨c, rest, hText⟩
    exact ⟨c, rest, hText, hInk c (by simp [hText])⟩
  · refine ⟨_, _, (List.dropLast_append_getLast
      hNonempty).symm, ?_⟩
    exact hInk _ (List.getLast_mem hNonempty)

theorem blank_notMem_colorText
    (color : Int32) :
    ' ' ∉ colorText color := by
  intro hMem
  rw [colorText_eq] at hMem
  exact absurd (isSpace_of_mem_numeral hMem) (by decide)

/- Reading a printed number gives it back. -/
theorem stoi_colorText
    (color : Int32) :
    stoi (String.ofList (colorText color)) =
      some color.toInt := by
  have hScan :=
    @scanDecimal_numeral (Numeral.ofInt color.toInt) []
      (by simp [NoDigitFirst])
  have hSpace :=
    (Numeral.ofInt color.toInt).dropWhile_isSpace []
  rw [List.append_nil] at hScan hSpace
  have hRange : IsInt32 color.toInt := by
    have hLower := color.le_toInt
    have hUpper := color.toInt_lt
    constructor <;> omega
  rw [stoi, String.toList_ofList, colorText_eq, hSpace,
    hScan]
  simp [hRange]

end Livedisplay

end Universal7420

------------------------------------------------------------
-- The Round Trip
------------------------------------------------------------

namespace Universal7420

namespace Livedisplay

open CText

/- The texts of the numbers with one blank between them. -/
def joined (rgb : List Int32) : List Char :=
  [' '].intercalate (rgb.map colorText)

theorem joined_singleton
    (color : Int32) :
    joined [color] = colorText color := by
  simp [joined]

theorem joined_cons_cons
    (color next : Int32)
    (rgb : List Int32) :
    joined (color :: next :: rgb) =
      colorText color ++ [' '] ++ joined (next :: rgb) := by
  simp [joined, List.intercalate_cons_cons]

theorem contents_eq_flatMap
    (rgb : List Int32) :
    contents rgb =
      rgb.flatMap (fun color => colorText color ++ [' ']) := by
  rw [contents, List.flatMap_eq_foldl]

theorem contents_eq
    {rgb : List Int32}
    (hRgb : rgb ≠ []) :
    contents rgb = joined rgb ++ [' '] := by
  rw [contents_eq_flatMap]
  induction rgb with
  | nil =>
      exact absurd rfl hRgb
  | cons color rgb ih =>
      rcases rgb with _ | ⟨next, rgb⟩
      · simp [joined_singleton]
      · have hRest := ih (List.cons_ne_nil next rgb)
        rw [List.flatMap_cons, hRest, joined_cons_cons]
        simp

theorem joined_trimmed
    {rgb : List Int32}
    (hRgb : rgb ≠ []) :
    Trimmed (joined rgb) := by
  induction rgb with
  | nil =>
      exact absurd rfl hRgb
  | cons color rgb ih =>
      rcases rgb with _ | ⟨next, rgb⟩
      · rw [joined_singleton]
        exact colorText_trimmed color
      · rw [joined_cons_cons]
        exact (colorText_trimmed color).append [' ']
          (ih (List.cons_ne_nil next rgb))

/- `setCalibration` writes the joined texts. -/
theorem trim_contents
    {rgb : List Int32}
    (hRgb : rgb ≠ []) :
    trim (contents rgb) = joined rgb := by
  rw [contents_eq hRgb]
  apply trim_append (joined_trimmed hRgb)
  intro c hc
  rw [List.mem_singleton.mp hc]
  decide

/- `getCalibration` reads them, also with a blank end. -/
theorem getCalibration_joined
    {rgb : List Int32}
    {blanks : List Char}
    (hRgb : rgb ≠ [])
    (hBlanks : ∀ c ∈ blanks, isSpace c = true) :
    getCalibration (some (joined rgb ++ blanks)) =
      some rgb := by
  have hSplit :
      split (joined rgb) ' ' = rgb.map colorText := by
    apply List.splitOn_intercalate
    · intro text hText
      rcases List.mem_map.mp hText with ⟨color, _, rfl⟩
      exact blank_notMem_colorText color
    · simpa using hRgb
  have hRead :
      ∀ colors : List Int32,
        (colors.map colorText).mapM
            (fun color =>
              (stoi (String.ofList color)).map Int32.ofInt) =
          some colors := by
    intro colors
    induction colors with
    | nil =>
        rfl
    | cons color colors ih =>
        rw [List.map_cons, List.mapM_cons, ih,
          stoi_colorText]
        simp
  simp only [getCalibration,
    trim_append (joined_trimmed hRgb) hBlanks, hSplit]
  exact hRead rgb

/- An empty text has one field, and it is no number. -/
theorem getCalibration_blank
    {tmp : List Char}
    (hBlank : trim tmp = []) :
    getCalibration (some tmp) = none := by
  simp only [getCalibration, hBlank]
  rfl

/-
  After a successful `setCalibration` the numbers are read
  back if and only if there is at least one.  Without any,
  `getCalibration` throws.
-/
theorem calibration_kept_iff
    {write : NodeWrite}
    {rgb : List Int32}
    (hWritten : (setCalibration write rgb).2 = true) :
    getCalibration (setCalibration write rgb).1 = some rgb ↔
      rgb ≠ [] := by
  by_cases hRgb : rgb = []
  · have hNone :
        getCalibration (setCalibration write rgb).1 =
          none := by
      rw [hRgb] at hWritten ⊢
      cases write with
      | fails left => cases hWritten
      | keeps => exact getCalibration_blank rfl
      | addsNewline => exact getCalibration_blank rfl
    rw [hNone, hRgb]
    simp
  · have hText := trim_contents hRgb
    refine iff_of_true ?_ hRgb
    unfold setCalibration at hWritten ⊢
    rw [hText] at hWritten ⊢
    cases write with
    | fails left =>
        cases hWritten
    | keeps =>
        have hRead :=
          @getCalibration_joined rgb [] hRgb (by simp)
        rw [List.append_nil] at hRead
        exact hRead
    | addsNewline =>
        apply getCalibration_joined hRgb
        intro c hc
        rw [List.mem_singleton.mp hc]
        decide

/- Three numbers, one of them negative. -/
theorem calibration_kept_three :
    (setCalibration .addsNewline [255, -1, 0]).2 = true ∧
      getCalibration
          (setCalibration .addsNewline [255, -1, 0]).1 =
        some [255, -1, 0] :=
  ⟨rfl, (calibration_kept_iff rfl).mpr (by simp)⟩

/- No numbers at all: the next `getCalibration` throws. -/
theorem calibration_empty_throws :
    (setCalibration .keeps []).2 = true ∧
      getCalibration (setCalibration .keeps []).1 ≠
        some [] := by
  refine ⟨rfl, ?_⟩
  have hNone :
      getCalibration (setCalibration .keeps []).1 = none :=
    getCalibration_blank rfl
  rw [hNone]
  simp

end Livedisplay

end Universal7420
