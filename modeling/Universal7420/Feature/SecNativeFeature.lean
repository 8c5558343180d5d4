import Universal7420.Lib.Decimal

/-
  The features of `SecNativeFeatureCppIf.cpp`.

  The features are read once from an XML file.  Expat calls a
  handler at the start and at the end of an element, and one
  for the text, as often as it likes: the handler joins what it
  is given.

  Main declarations:
    * `Universal7420.Feature.handle`
    * `Universal7420.Feature.loadFeature`
    * `Universal7420.Feature.answer`
    * `Universal7420.Feature.answers`
-/

------------------------------------------------------------
-- The Handlers
------------------------------------------------------------

namespace Universal7420

namespace Feature

/- A `std::map`, by its `find`. -/
abbrev Features : Type := String → Option String

def Features.empty : Features :=
  fun _ => none

def Features.erase
    (features : Features)
    (key : String) :
    Features :=
  fun tag => if tag = key then none else features tag

/- A value that is there stays. -/
def Features.insert
    (features : Features)
    (key value : String) :
    Features :=
  fun tag =>
    if tag = key then some ((features key).getD value)
    else features tag

/- `ParserUserData`. -/
structure ParserUserData where
  currName : String
  features : Features

/- What expat calls. -/
inductive HandlerCall where
| startElement (name : String)
| endElement
| charData (s : String)
deriving DecidableEq, Repr

def charDataHandler
    (pData : ParserUserData)
    (s : String) :
    ParserUserData :=
  if pData.currName = "" then pData
  else
    match pData.features pData.currName with
    | some old =>
        { pData with
          features :=
            (pData.features.erase pData.currName).insert
              pData.currName (old ++ s) }
    | none =>
        { pData with
          features :=
            pData.features.insert pData.currName s }

def startElement
    (pData : ParserUserData)
    (name : String) :
    ParserUserData :=
  { pData with currName := name }

def endElement (pData : ParserUserData) : ParserUserData :=
  { pData with currName := "" }

def handle
    (pData : ParserUserData) :
    HandlerCall → ParserUserData
| .startElement name => startElement pData name
| .endElement => endElement pData
| .charData s => charDataHandler pData s

end Feature

end Universal7420

------------------------------------------------------------
-- The Features
------------------------------------------------------------

namespace Universal7420

namespace Feature

/-
  A file that can be opened: what expat calls up to the end of
  the file, or up to the error of the read or of the parser.
-/
structure FeatureFile where
  calls : List HandlerCall
  failed : Bool

/- `FEATURE_FILE` and `MPS_FEATURE_FILE`. -/
structure Files where
  feature : Option FeatureFile
  others : Option FeatureFile

/- The file that is read. -/
def Files.opened (files : Files) : Option FeatureFile :=
  match files.feature with
  | some file => some file
  | none => files.others

/- `_loadFeature`: what was read before an error is kept. -/
def loadFeature
    (files : Files)
    (features : Features) :
    Int32 × Features :=
  match files.opened with
  | none => (-1, features)
  | some file =>
      (if file.failed then -1 else 0,
        (file.calls.foldl handle ⟨"", features⟩).features)

/- The constructor does not look at the result. -/
def construct (files : Files) : Features :=
  (loadFeature files Features.empty).2

/- Only these two texts switch a feature on. -/
def isTrue (value : String) : Bool :=
  value == "true" || value == "TRUE"

def getEnableStatus
    (features : Features)
    (tag : String) :
    Bool :=
  match features tag with
  | none => false
  | some value => if isTrue value then true else false

/- Any other text gives the default, also `false`. -/
def getEnableStatusDefault
    (features : Features)
    (tag : String)
    (defaultValue : Bool) :
    Bool :=
  match features tag with
  | none => defaultValue
  | some value =>
      if isTrue value then true else defaultValue

def getString
    (features : Features)
    (tag : String) :
    String :=
  (features tag).getD ""

def getStringDefault
    (features : Features)
    (tag defaultValue : String) :
    String :=
  (features tag).getD defaultValue

def getInteger
    (features : Features)
    (tag : String) :
    Int32 :=
  match features tag with
  | none => -1
  | some value => CText.atoi value

def getIntegerDefault
    (features : Features)
    (tag : String)
    (defaultValue : Int32) :
    Int32 :=
  match features tag with
  | none => defaultValue
  | some value => CText.atoi value

end Feature

end Universal7420

------------------------------------------------------------
-- Calls
------------------------------------------------------------

namespace Universal7420

namespace Feature

/- The calls of the interface. -/
inductive Query where
| enableStatus (tag : String)
| enableStatusDefault (tag : String) (defaultValue : Bool)
| string (tag : String)
| stringDefault (tag defaultValue : String)
| integer (tag : String)
| integerDefault (tag : String) (defaultValue : Int32)
deriving DecidableEq, Repr

inductive Answer where
| status (value : Bool)
| string (value : String)
| integer (value : Int32)
deriving DecidableEq, Repr

def answer (features : Features) : Query → Answer
| .enableStatus tag => .status (getEnableStatus features tag)
| .enableStatusDefault tag defaultValue =>
    .status (getEnableStatusDefault features tag defaultValue)
| .string tag => .string (getString features tag)
| .stringDefault tag defaultValue =>
    .string (getStringDefault features tag defaultValue)
| .integer tag => .integer (getInteger features tag)
| .integerDefault tag defaultValue =>
    .integer (getIntegerDefault features tag defaultValue)

/- `getInstance`, with the files as they are at the call. -/
def getInstance
    (current : Option Features)
    (files : Files) :
    Features :=
  match current with
  | none => construct files
  | some features => features

/- The answers to calls, each with the files of its time. -/
def answers
    (current : Option Features) :
    List (Files × Query) → List Answer
| [] => []
| (files, query) :: rest =>
    answer (getInstance current files) query ::
      answers (some (getInstance current files)) rest

end Feature

end Universal7420
