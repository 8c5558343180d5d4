import Universal7420.Feature.SecNativeFeature
import Universal7420.Lib.Xml

/-
  What the features of a document are.

  The value of a feature is the text of the elements of its
  name, up to their first child, however expat cuts the text
  into pieces.  A document of which only a beginning could be
  read gives beginnings of the values.  The answers are those
  of the files at the first call.

  Main declarations:
    * `Universal7420.Feature.spoken`
    * `Universal7420.Feature.Delivers`
    * `Universal7420.Feature.told`
    * `Universal7420.Feature.features_of_document`
    * `Universal7420.Feature.features_of_beginning`
    * `Universal7420.Feature.answers_of_first_call`
-/

------------------------------------------------------------
-- The Text Of The Elements
------------------------------------------------------------

namespace Universal7420

namespace Feature

open Xml

/- The text in front of the first element. -/
def leading : List Node → String
| [] => ""
| .text content :: rest => content ++ leading rest
| .comment _ :: rest => leading rest
| .element _ _ _ :: _ => ""

mutual

/- What the elements of a name say, in document order. -/
def spokenBy (tag : String) : Node → String
| .element name _ children =>
    (if name = tag then leading children else "") ++
      spoken tag children
| .text _ => ""
| .comment _ => ""

def spoken (tag : String) : List Node → String
| [] => ""
| node :: rest => spokenBy tag node ++ spoken tag rest

end

/-
  What expat calls for a list of nodes: each text comes in
  pieces, a comment is not told.
-/
inductive Delivers : List Node → List HandlerCall → Prop
| nil : Delivers [] []
| text
    {content : String}
    {rest : List Node}
    {calls : List HandlerCall}
    (pieces : List String)
    (hPieces : String.join pieces = content)
    (hRest : Delivers rest calls) :
    Delivers (.text content :: rest)
      (pieces.map .charData ++ calls)
| comment
    {content : String}
    {rest : List Node}
    {calls : List HandlerCall}
    (hRest : Delivers rest calls) :
    Delivers (.comment content :: rest) calls
| element
    {name : String}
    {attributes : List (String × String)}
    {children rest : List Node}
    {inner calls : List HandlerCall}
    (hInner : Delivers children inner)
    (hRest : Delivers rest calls) :
    Delivers (.element name attributes children :: rest)
      (.startElement name :: inner ++ .endElement :: calls)

/-
  The text that expat gave for a tag: all of it that came
  while the tag was the last element to begin and no element
  had ended since.
-/
def told (tag current : String) : List HandlerCall → String
| [] => ""
| .startElement name :: rest => told tag name rest
| .endElement :: rest => told tag "" rest
| .charData s :: rest =>
    (if current = tag then s else "") ++
      told tag current rest

/- The value of a feature, empty if there is none. -/
def ParserUserData.value
    (pData : ParserUserData)
    (tag : String) :
    String :=
  getString pData.features tag

def handleAll
    (pData : ParserUserData)
    (calls : List HandlerCall) :
    ParserUserData :=
  calls.foldl handle pData

variable {pData : ParserUserData}
variable {tag : String}

@[simp] theorem value_startElement
    {name : String} :
    (startElement pData name).value tag = pData.value tag :=
  rfl

@[simp] theorem value_endElement :
    (endElement pData).value tag = pData.value tag :=
  rfl

@[simp] theorem currName_charDataHandler
    {s : String} :
    (charDataHandler pData s).currName = pData.currName := by
  rw [charDataHandler]
  split
  · rfl
  · split
    · rfl
    · rfl

/- A piece of text is joined to the current element's. -/
theorem value_charDataHandler
    (hTag : tag ≠ "")
    (s : String) :
    (charDataHandler pData s).value tag =
      pData.value tag ++
        if pData.currName = tag then s else "" := by
  rw [charDataHandler]
  by_cases hSame : pData.currName = tag
  · have hName : pData.currName ≠ "" := by
      rwa [hSame]
    rw [if_neg hName, if_pos hSame]
    cases hFound : pData.features pData.currName with
    | none =>
        rw [hSame] at hFound
        simp [ParserUserData.value, getString,
          Features.insert, hSame, hFound]
    | some old =>
        rw [hSame] at hFound
        simp [ParserUserData.value, getString,
          Features.insert, Features.erase, hSame, hFound]
  · rw [if_neg hSame, String.append_empty]
    have hOther : ¬ tag = pData.currName :=
      fun hEq => hSame hEq.symm
    split
    · rfl
    · cases hFound : pData.features pData.currName with
      | none =>
          simp [ParserUserData.value, getString,
            Features.insert, hOther]
      | some old =>
          simp [ParserUserData.value, getString,
            Features.insert, Features.erase, hOther]

/- The pieces of a text are joined to the whole. -/
theorem value_pieces
    (hTag : tag ≠ "")
    (pieces : List String) :
    (handleAll pData (pieces.map .charData)).value tag =
        pData.value tag ++
          (if pData.currName = tag then String.join pieces
          else "") ∧
    (handleAll pData (pieces.map .charData)).currName =
      pData.currName := by
  induction pieces generalizing pData with
  | nil => simp [handleAll]
  | cons piece pieces ih =>
      have hRest := @ih (charDataHandler pData piece)
      rw [value_charDataHandler hTag,
        currName_charDataHandler] at hRest
      refine ⟨?_, hRest.2⟩
      refine hRest.1.trans ?_
      by_cases hSame : pData.currName = tag
      · simp [hSame, String.append_assoc]
      · simp [hSame]

end Feature

end Universal7420

------------------------------------------------------------
-- The Features Of A Document
------------------------------------------------------------

namespace Universal7420

namespace Feature

open Xml

variable {pData : ParserUserData}
variable {tag : String}
variable {files : Files}
variable {file : FeatureFile}

theorem handleAll_append
    {first second : List HandlerCall} :
    handleAll pData (first ++ second) =
      handleAll (handleAll pData first) second :=
  List.foldl_append

theorem handleAll_cons
    {c : HandlerCall}
    {calls : List HandlerCall} :
    handleAll pData (c :: calls) =
      handleAll (handle pData c) calls :=
  rfl

/- The text of the open element, then that of the nodes. -/
theorem Delivers.value
    {nodes : List Node}
    {calls : List HandlerCall}
    (hDelivers : Delivers nodes calls)
    (hTag : tag ≠ "")
    (pData : ParserUserData) :
    (handleAll pData calls).value tag =
      pData.value tag ++
        ((if pData.currName = tag then leading nodes
          else "") ++
          spoken tag nodes) := by
  induction hDelivers generalizing pData with
  | nil => simp [handleAll, leading, spoken]
  | text pieces hPieces hRest ih =>
      rcases @value_pieces pData tag hTag pieces with
        ⟨hValue, hName⟩
      rw [handleAll_append, ih, hValue, hName, hPieces]
      by_cases hSame : pData.currName = tag
      · simp [hSame, leading, spoken, spokenBy,
          String.append_assoc]
      · simp [hSame, spoken, spokenBy]
  | comment hRest ih =>
      rw [ih]
      simp [leading, spoken, spokenBy]
  | @element name attributes children rest inner calls hInner
      hRest ihInner ihRest =>
      have hOpen := ihInner (startElement pData name)
      have hAfter :=
        ihRest
          (endElement (handleAll (startElement pData name) inner))
      -- Behind the end no element is open.
      have hClosed :
          ¬ (endElement
              (handleAll (startElement pData name)
                inner)).currName = tag :=
        fun hEq => hTag hEq.symm
      rw [if_neg hClosed, value_endElement, hOpen,
        value_startElement] at hAfter
      rw [List.cons_append, handleAll_cons, handleAll_append,
        handleAll_cons]
      refine hAfter.trans ?_
      by_cases hName : name = tag
      · simp [startElement, leading, spoken, spokenBy, hName,
          String.append_assoc]
      · simp [startElement, leading, spoken, spokenBy, hName,
          String.append_assoc]

/- A value is what it was and the text told for the tag. -/
theorem value_handleAll
    (hTag : tag ≠ "")
    (calls : List HandlerCall) :
    (handleAll pData calls).value tag =
      pData.value tag ++ told tag pData.currName calls := by
  induction calls generalizing pData with
  | nil => exact String.append_empty.symm
  | cons c calls ih =>
      rw [handleAll_cons, ih]
      cases c with
      | startElement name => rfl
      | endElement => rfl
      | charData s =>
          rw [handle, value_charDataHandler hTag,
            currName_charDataHandler, String.append_assoc]
          rfl

theorem getString_construct
    (hOpened : files.opened = some file) :
    getString (construct files) tag =
      (handleAll ⟨"", Features.empty⟩ file.calls).value
        tag := by
  rw [construct, loadFeature, hOpened]
  rfl

/- An empty text is as good as none. -/
theorem getEnableStatus_eq
    (features : Features) :
    getEnableStatus features tag =
      isTrue (getString features tag) := by
  rw [getEnableStatus, getString]
  cases features tag with
  | none => rfl
  | some value => simp

theorem getEnableStatusDefault_eq
    (features : Features)
    (defaultValue : Bool) :
    getEnableStatusDefault features tag defaultValue =
      (isTrue (getString features tag) || defaultValue) := by
  rw [getEnableStatusDefault, getString]
  cases features tag with
  | none => rfl
  | some value =>
      cases hTrue : isTrue value with
      | true => simp [hTrue]
      | false => simp [hTrue]

theorem eq_some_of_getString
    {features : Features}
    (hText : getString features tag ≠ "") :
    features tag = some (getString features tag) := by
  rw [getString] at hText ⊢
  cases hFound : features tag with
  | none =>
      rw [hFound] at hText
      exact absurd rfl hText
  | some value => rfl

/-
  For a document that is read to its end, each question has
  the answer of the text of the tag's elements, in whatever
  pieces the text came.
-/
theorem features_of_document
    {nodes : List Node}
    (hOpened : files.opened = some file)
    (hDelivers : Delivers nodes file.calls)
    (hTag : tag ≠ "") :
    getString (construct files) tag = spoken tag nodes ∧
    getEnableStatus (construct files) tag =
      isTrue (spoken tag nodes) ∧
    (∀ defaultValue,
      getEnableStatusDefault (construct files) tag
          defaultValue =
        (isTrue (spoken tag nodes) || defaultValue)) ∧
    (spoken tag nodes ≠ "" →
      (∀ defaultValue,
        getStringDefault (construct files) tag
            defaultValue =
          spoken tag nodes) ∧
      getInteger (construct files) tag =
        CText.atoi (spoken tag nodes) ∧
      ∀ defaultValue,
        getIntegerDefault (construct files) tag
            defaultValue =
          CText.atoi (spoken tag nodes)) := by
  have hString :
      getString (construct files) tag = spoken tag nodes := by
    have hNone : ¬ "" = tag := fun hEq => hTag hEq.symm
    rw [getString_construct hOpened, hDelivers.value hTag]
    simp [ParserUserData.value, getString, Features.empty,
      hNone]
  refine ⟨hString, ?_, ?_, ?_⟩
  · rw [getEnableStatus_eq, hString]
  · intro defaultValue
    rw [getEnableStatusDefault_eq, hString]
  · intro hText
    rw [← hString] at hText
    have hFound := eq_some_of_getString hText
    rw [hString] at hFound
    refine ⟨?_, ?_, ?_⟩
    · intro defaultValue
      rw [getStringDefault, hFound, Option.getD_some]
    · rw [getInteger, hFound]
    · intro defaultValue
      rw [getIntegerDefault, hFound]

/- A text in two pieces, and a comment in the other one. -/
theorem features_of_document_pieces :
    getString
      (construct
        ⟨none,
          some
            ⟨[ .startElement "Set", .charData "\n"
              , .startElement "Ims", .charData "tr"
              , .charData "ue", .endElement
              , .charData "\n", .endElement ], false⟩⟩)
      "Ims" = "true" := by
  refine
    (@features_of_document "Ims" _ _
      [.element "Set" []
        [ .text "\n"
        , .element "Ims" [] [.text "true"]
        , .text "\n"]]
      rfl ?_ (by decide)).1
  exact
    .element
      (.text ["\n"] rfl
        (.element (.text ["tr", "ue"] rfl .nil)
          (.text ["\n"] rfl .nil)))
      .nil

/-
  If only the beginning of a document could be read, all text
  that expat gave is kept, and each value is a beginning of
  the whole one.
-/
theorem features_of_beginning
    {nodes : List Node}
    {missing : List HandlerCall}
    (hOpened : files.opened = some file)
    (hDelivers : Delivers nodes (file.calls ++ missing))
    (hTag : tag ≠ "") :
    getString (construct files) tag =
        told tag "" file.calls ∧
      ∃ more,
        spoken tag nodes =
          getString (construct files) tag ++ more := by
  have hNone : ¬ "" = tag := fun hEq => hTag hEq.symm
  have hEmpty :
      ParserUserData.value ⟨"", Features.empty⟩ tag = "" :=
    rfl
  refine ⟨?_, ?_⟩
  · rw [getString_construct hOpened, value_handleAll hTag,
      hEmpty, String.empty_append]
  · have hWhole := hDelivers.value hTag ⟨"", Features.empty⟩
    rw [handleAll_append, value_handleAll hTag] at hWhole
    refine
      ⟨told tag
        (handleAll ⟨"", Features.empty⟩ file.calls).currName
        missing, ?_⟩
    rw [getString_construct hOpened, hWhole, hEmpty]
    simp [hNone]

/- The file of the example ends within a text. -/
def endsInText : FeatureFile where
  calls :=
    [ .startElement "Set", .startElement "Ims"
    , .charData "tr" ]
  failed := true

/- The second piece of a text is lost, the first is kept. -/
theorem features_of_beginning_piece :
    getString (construct ⟨some endsInText, none⟩) "Ims" =
        told "Ims" "" endsInText.calls ∧
      told "Ims" "" endsInText.calls = "tr" ∧
      ∃ more,
        spoken "Ims"
            [.element "Set" []
              [.element "Ims" [] [.text "true"]]] =
          getString (construct ⟨some endsInText, none⟩)
            "Ims" ++ more := by
  have hBoth :=
    @features_of_beginning "Ims" ⟨some endsInText, none⟩
      endsInText
      [.element "Set" [] [.element "Ims" [] [.text "true"]]]
      [.charData "ue", .endElement, .endElement] rfl
      (.element
        (.element (.text ["tr", "ue"] rfl .nil) .nil) .nil)
      (by decide)
  exact ⟨hBoth.1, by decide, hBoth.2⟩

end Feature

end Universal7420

------------------------------------------------------------
-- The Answers
------------------------------------------------------------

namespace Universal7420

namespace Feature

theorem answers_of_loaded
    (features : Features)
    (calls : List (Files × Query)) :
    answers (some features) calls =
      calls.map fun call => answer features call.2 := by
  induction calls with
  | nil => rfl
  | cons call calls ih =>
      rw [answers, getInstance, ih, List.map_cons]

/-
  Whatever becomes of the files, every call is answered by the
  features of the files at the first call.
-/
theorem answers_of_first_call
    (files : Files)
    (query : Query)
    (rest : List (Files × Query)) :
    answers none ((files, query) :: rest) =
      ((files, query) :: rest).map fun call =>
        answer (construct files) call.2 := by
  rw [answers, getInstance, answers_of_loaded,
    List.map_cons]

/- A file that comes later is not read. -/
example :
    answers none
      [ (⟨none, none⟩, .enableStatus "Ims")
      , (⟨some
            ⟨[ .startElement "Ims", .charData "true"
              , .endElement ], false⟩, none⟩,
          .enableStatus "Ims") ] =
      [.status false, .status false] := by
  decide

end Feature

end Universal7420
