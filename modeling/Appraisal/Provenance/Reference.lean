import Appraisal.Failure.Basic
import Appraisal.Payload.Basic

/-!
# Where values come from

A value comes from a user, from a place in a document, from a formula or from a default, and its source says so.
-/

namespace Appraisal

/-!
## Locations in documents

Where on the pages of a document, or in the cells of a sheet, a value was found.
-/

/-- A rectangle on a page. -/
structure BoundingBox where
  x : Measure
  y : Measure
  width : Measure
  height : Measure
  deriving DecidableEq, Repr

/-- A place in a document. -/
structure DocumentLocation where
  fileName : String
  fileType : String
  /-- The page, counted from one. -/
  page : Option Int
  cellRef : Option String
  line : Option Int
  boundingBox : Option BoundingBox
  rawText : Option String
  sectionName : Option String
  deriving DecidableEq, Repr

namespace DocumentLocation

/-- The location in a few words. -/
def describe (location : DocumentLocation) : String :=
  " ".intercalate <|
    [location.fileName]
      ++ (location.page.map fun page => "p." ++ toString page).toList
      ++ (location.cellRef.filter (· ≠ "")).toList
      ++ (location.line.map fun line => "line " ++ toString line).toList

end DocumentLocation

/-!
## Types of sources

Where a value can come from, and the word by which the notation in texts calls each kind.  A system
default and an assumption share one word.
-/

/-- Where a value comes from. -/
inductive SourceType where
  | userInput
  | parsedDocument
  | calculated
  | systemDefault
  | assumption
  deriving DecidableEq, Repr

namespace SourceType

instance : Named SourceType where
  title := "SourceType"
  all := [userInput, parsedDocument, calculated, systemDefault, assumption]
  name
    | userInput => "user_input"
    | parsedDocument => "parsed_document"
    | calculated => "calculated"
    | systemDefault => "default"
    | assumption => "assumption"

/-- The word of the notation for a type of source. -/
def notationWord : SourceType → String
  | userInput => "userInput"
  | parsedDocument => "sourceDocument"
  | calculated => "calculated"
  | systemDefault => "assumption"
  | assumption => "assumption"

end SourceType

/-!
## Source references

A source reference records where a value comes from.  It must point at something, by an index, a key or
an identifier; an index is not negative, and a confidence lies between zero and one.  `check` is the only
way from unchecked data to a reference, and it names the first rule that is broken.
-/

/-- What identifies a value within its source. -/
structure ReferenceKey where
  index : Option Int
  key : Option String
  id : Option String
  deriving DecidableEq, Repr

namespace ReferenceKey

/-- Whether a text is present and not empty. -/
def isGiven (text : Option String) : Bool :=
  match text with
  | some text => text ≠ ""
  | none => false

/-- Whether nothing is identified. -/
def isEmpty (reference : ReferenceKey) : Bool :=
  reference.index.isNone && !isGiven reference.key && !isGiven reference.id

/-- A reference by key alone. -/
def ofKey? (key : Option String) : ReferenceKey :=
  { index := none, key, id := none }

end ReferenceKey

/-- Where a value comes from. -/
structure SourceReference where
  sourceType : SourceType
  reference : ReferenceKey
  displayPath : String
  timestamp : String
  /-- How sure the extraction is, between zero and one. -/
  confidence : Option Measure
  documentLocation : Option DocumentLocation
  parsingSessionId : Option String
  userId : Option String
  deriving DecidableEq, Repr

namespace SourceReference

/-- Refuses a negative index. -/
def checkIndex : Option Int → Except SourceError Unit
  | some index => if index < 0 then .error (.negativeIndex index) else .ok ()
  | none => .ok ()

/-- Refuses a confidence that does not lie between zero and one. -/
def checkConfidence : Option Measure → Except SourceError Unit
  | some confidence => if confidence.isShare then .ok () else .error (.confidenceRange confidence)
  | none => .ok ()

/-- The source reference itself, if it breaks no rule. -/
def check (source : SourceReference) : Except SourceError SourceReference :=
  if source.reference.isEmpty then
    .error (.emptyReference source.displayPath)
  else
    match checkIndex source.reference.index with
    | .error error => .error error
    | .ok () =>
        match checkConfidence source.confidence with
        | .error error => .error error
        | .ok () => .ok source

/-- The answer of a check, with its error among all failures. -/
def ofChecked {α : Type} : Except SourceError α → Except Failure α
  | .ok a => .ok a
  | .error error => .error (.source error)

/-- A source reference whose type is given by name. -/
def ofTypeName (typeName : Payload) (source : SourceType → SourceReference) :
    Except SourceError SourceReference :=
  match Named.ofPayload? typeName with
  | some sourceType => (source sourceType).check
  | none => .error (.unknownType typeName)

/-- A source reference of which only the type, the key and the path are known. -/
def plain (now : String) (sourceType : SourceType) (reference : ReferenceKey) (displayPath : String) :
    SourceReference :=
  { sourceType, reference, displayPath
    timestamp := now
    confidence := none
    documentLocation := none
    parsingSessionId := none
    userId := none }

/-- A path that was given, unless it is empty. -/
def pathOr (given : Option String) (usual : String) : String :=
  match given with
  | some path => if path = "" then usual else path
  | none => usual

/-- The source of a value that a user entered, at a position of a list or under a key. -/
def forUserInput (now : String) (index : Option Int) (key displayPath userId : Option String) :
    Except SourceError SourceReference :=
  let path := match displayPath, index with
    | some path, _ => path
    | none, some index => "userInput[" ++ toString index ++ "]"
    | none, none => "userInput." ++ key.getD "None"
  check { plain now .userInput { index, key, id := none } path with userId }

/-- The source of a value that was read from a document.

Without a location the path has to be given. -/
def forDocument (now : String) (location : Option DocumentLocation) (id : Option String)
    (confidence : Option Measure) (parsingSessionId displayPath : Option String) :
    Except Failure SourceReference :=
  let reference : ReferenceKey := { index := none, key := none, id }
  let ofPath (path : String) : Except Failure SourceReference :=
    ofChecked <| check
      { plain now .parsedDocument reference path with
        confidence
        documentLocation := location
        parsingSessionId }
  match location with
  | some place => ofPath (pathOr displayPath place.describe)
  | none => if pathOr displayPath "" = "" then .error .noLocation else ofPath (pathOr displayPath "")

/-- The source of the result of a formula. -/
def forCalculation (now : String) (formulaId displayPath : Option String) :
    Except SourceError SourceReference :=
  check (plain now .calculated (.ofKey? formulaId)
    (pathOr displayPath ("calculations." ++ formulaId.getD "None")))

/-- The source of a default of the system. -/
def forDefault (now : String) (key displayPath : Option String) :
    Except SourceError SourceReference :=
  check (plain now .systemDefault (.ofKey? key) (pathOr displayPath ("defaults." ++ key.getD "None")))

/-- The source of an assumption. -/
def forAssumption (now : String) (key : Option String) (confidence : Option Measure)
    (displayPath : Option String) : Except SourceError SourceReference :=
  check
    { plain now .assumption (.ofKey? key)
        (pathOr displayPath ("assumptions." ++ key.getD "None")) with
      confidence }

/-- What every checked source reference satisfies. -/
def Sound (source : SourceReference) : Prop :=
  source.reference.isEmpty = false ∧
    (∀ index, source.reference.index = some index → 0 ≤ index) ∧
    ∀ confidence, source.confidence = some confidence → confidence.isShare = true

theorem checkIndex_eq_ok_iff (index : Option Int) :
    checkIndex index = .ok () ↔ ∀ i, index = some i → 0 ≤ i := by
  cases index with
  | none => simp [checkIndex]
  | some i =>
      simp only [checkIndex]
      split <;> simp <;> omega

theorem checkConfidence_eq_ok_iff (confidence : Option Measure) :
    checkConfidence confidence = .ok () ↔ ∀ c, confidence = some c → c.isShare = true := by
  cases confidence with
  | none => simp [checkConfidence]
  | some c =>
      simp only [checkConfidence]
      split <;> simp_all

theorem check_eq_ok_iff (source checked : SourceReference) :
    source.check = .ok checked ↔ checked = source ∧ source.Sound := by
  unfold check Sound
  rw [← checkIndex_eq_ok_iff, ← checkConfidence_eq_ok_iff]
  cases hempty : source.reference.isEmpty
  · cases hindex : checkIndex source.reference.index
    · simp
    · cases hconfidence : checkConfidence source.confidence <;> simp [eq_comm]
  · simp

end SourceReference

end Appraisal
