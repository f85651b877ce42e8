import Appraisal.Provenance.Reference
import Appraisal.Schema.Leaf

/-!
# Records of sources

The records of locations in documents and of source references: how they are read from payloads, written
to payloads, and how they are exchanged with the values of this library.
-/

namespace Appraisal

/-- The record of a rectangle on a page. -/
structure BoundingBoxRecord where
  x : Binary64
  y : Binary64
  width : Binary64
  height : Binary64
  deriving DecidableEq, Repr

namespace BoundingBoxRecord

def title : String := "BoundingBoxSchema"

/-- The record of four fields. -/
def ofFields (x y width height : Option Payload) : Reading BoundingBoxRecord :=
  mk <$> Reading.required "x" Schema.real x
    <*> Reading.required "y" Schema.real y
    <*> Reading.required "width" Schema.positiveReal width
    <*> Reading.required "height" Schema.positiveReal height

/-- Reads a rectangle. -/
def read : Reader BoundingBoxRecord :=
  Reading.record title fun field =>
    ofFields (field "x") (field "y") (field "width") (field "height")

def toPayload (box : BoundingBoxRecord) : Payload :=
  .object
    [("x", .float box.x), ("y", .float box.y), ("width", .float box.width),
      ("height", .float box.height)]

def schema : Schema BoundingBoxRecord :=
  { title, read, toPayload }

/-- The record of a rectangle. -/
def ofBox (box : BoundingBox) : Except Failure BoundingBoxRecord :=
  Reading.built title <|
    ofFields (some box.x.toPayload) (some box.y.toPayload) (some box.width.toPayload)
      (some box.height.toPayload)

/-- The rectangle of a record. -/
def toBox (box : BoundingBoxRecord) : BoundingBox :=
  { x := .real box.x, y := .real box.y, width := .real box.width, height := .real box.height }

end BoundingBoxRecord

/-- The record of a place in a document. -/
structure LocationRecord where
  fileName : String
  fileType : String
  page : Option Int
  cellRef : Option String
  line : Option Int
  boundingBox : Option BoundingBoxRecord
  rawText : Option String
  sectionName : Option String
  deriving DecidableEq, Repr

namespace LocationRecord

def title : String := "DocumentLocationSchema"

/-- The record of its fields, of which the rectangle has been read. -/
def ofFields (fileName fileType page cellRef line : Option Payload)
    (boundingBox : Reading (Option BoundingBoxRecord)) (rawText sectionName : Option Payload) :
    Reading LocationRecord :=
  mk <$> Reading.required "fileName" Schema.text fileName
    <*> Reading.required "fileType" Schema.text fileType
    <*> Reading.optional "page" Schema.positiveInteger page
    <*> Reading.optional "cellRef" Schema.text cellRef
    <*> Reading.optional "line" Schema.positiveInteger line
    <*> boundingBox
    <*> Reading.optional "rawText" Schema.text rawText
    <*> Reading.optional "section" Schema.text sectionName

/-- Reads a place in a document. -/
def read : Reader LocationRecord :=
  Reading.record title fun field =>
    ofFields (field "fileName") (field "fileType") (field "page") (field "cellRef") (field "line")
      (Reading.optional "boundingBox" BoundingBoxRecord.read (field "boundingBox"))
      (field "rawText") (field "section")

def toPayload (location : LocationRecord) : Payload :=
  .object
    [("fileName", .text location.fileName), ("fileType", .text location.fileType),
      ("page", .ofInt? location.page), ("cellRef", .ofText? location.cellRef),
      ("line", .ofInt? location.line),
      ("boundingBox", .orNull BoundingBoxRecord.toPayload location.boundingBox),
      ("rawText", .ofText? location.rawText), ("section", .ofText? location.sectionName)]

def schema : Schema LocationRecord :=
  { title, read, toPayload }

/-- The record of a place in a document. -/
def ofLocation (location : DocumentLocation) : Except Failure LocationRecord := do
  let box ← location.boundingBox.mapM BoundingBoxRecord.ofBox
  Reading.built title <|
    ofFields (some (.text location.fileName)) (some (.text location.fileType))
      (some (.ofInt? location.page)) (some (.ofText? location.cellRef))
      (some (.ofInt? location.line)) (pure box) (some (.ofText? location.rawText))
      (some (.ofText? location.sectionName))

/-- The place in a document that a record describes. -/
def toLocation (location : LocationRecord) : DocumentLocation :=
  { fileName := location.fileName
    fileType := location.fileType
    page := location.page
    cellRef := location.cellRef
    line := location.line
    boundingBox := location.boundingBox.map BoundingBoxRecord.toBox
    rawText := location.rawText
    sectionName := location.sectionName }

end LocationRecord

/-- The record of what identifies a value within its source. -/
structure KeyRecord where
  index : Option Nat
  key : Option String
  id : Option String
  deriving DecidableEq, Repr

namespace KeyRecord

def title : String := "ReferenceKeySchema"

/-- The record of three fields. -/
def ofFields (index key id : Option Payload) : Reading KeyRecord :=
  mk <$> Reading.optional "index" Schema.natural index
    <*> Reading.optional "key" Schema.text key
    <*> Reading.optional "id" Schema.text id

/-- Reads what identifies a value. -/
def read : Reader KeyRecord :=
  Reading.record title fun field => ofFields (field "index") (field "key") (field "id")

def toPayload (reference : KeyRecord) : Payload :=
  .object
    [("index", .ofNat? reference.index), ("key", .ofText? reference.key),
      ("id", .ofText? reference.id)]

def schema : Schema KeyRecord :=
  { title, read, toPayload }

/-- The record of what identifies a value. -/
def ofKey (reference : ReferenceKey) : Except Failure KeyRecord :=
  Reading.built title <|
    ofFields (some (.ofInt? reference.index)) (some (.ofText? reference.key))
      (some (.ofText? reference.id))

/-- What identifies a value, according to a record. -/
def toKey (reference : KeyRecord) : ReferenceKey :=
  { index := reference.index.map Int.ofNat, key := reference.key, id := reference.id }

end KeyRecord

/-- The record of a source reference. -/
structure SourceRecord where
  sourceType : SourceType
  reference : KeyRecord
  displayPath : String
  confidence : Option Binary64
  timestamp : Moment
  documentLocation : Option LocationRecord
  parsingSessionId : Option String
  userId : Option String
  deriving DecidableEq, Repr

namespace SourceRecord

def title : String := "SourceReferenceSchema"

/-- The record itself, unless it points at nothing. -/
def pointing (source : SourceRecord) : Reading SourceRecord :=
  Reading.orFault (!source.reference.toKey.isEmpty)
    (.rule "reference must carry an index, key or id") source

/-- The record of its fields, of which the reference and the location have been read. -/
def ofFields (sourceType : Option Payload) (reference : Reading KeyRecord)
    (displayPath confidence timestamp : Option Payload)
    (documentLocation : Reading (Option LocationRecord))
    (parsingSessionId userId : Option Payload) : Reading SourceRecord :=
  Reading.andThen
    (mk <$> Reading.required "sourceType" (Schema.option SourceType) sourceType
      <*> reference
      <*> Reading.required "displayPath" Schema.text displayPath
      <*> Reading.optional "confidence" Schema.share confidence
      <*> Reading.required "timestamp" Schema.moment timestamp
      <*> documentLocation
      <*> Reading.optional "parsingSessionId" Schema.text parsingSessionId
      <*> Reading.optional "userId" Schema.text userId)
    pointing

/-- Reads a source reference. -/
def read : Reader SourceRecord :=
  Reading.record title fun field =>
    ofFields (field "sourceType")
      (Reading.required "reference" KeyRecord.read (field "reference"))
      (field "displayPath") (field "confidence") (field "timestamp")
      (Reading.optional "documentLocation" LocationRecord.read (field "documentLocation"))
      (field "parsingSessionId") (field "userId")

def toPayload (source : SourceRecord) : Payload :=
  .object
    [("sourceType", Named.toPayload source.sourceType), ("reference", source.reference.toPayload),
      ("displayPath", .text source.displayPath), ("confidence", .ofFloat? source.confidence),
      ("timestamp", .text source.timestamp.zuluText),
      ("documentLocation", .orNull LocationRecord.toPayload source.documentLocation),
      ("parsingSessionId", .ofText? source.parsingSessionId),
      ("userId", .ofText? source.userId)]

def schema : Schema SourceRecord :=
  { title, read, toPayload }

/-- The record of a source reference. -/
def ofSource (source : SourceReference) : Except Failure SourceRecord := do
  let reference ← KeyRecord.ofKey source.reference
  let location ← source.documentLocation.mapM LocationRecord.ofLocation
  Reading.built title <|
    ofFields (some (Named.toPayload source.sourceType)) (pure reference)
      (some (.text source.displayPath)) (some (.orNull Measure.toPayload source.confidence))
      (some (.text source.timestamp)) (pure location) (some (.ofText? source.parsingSessionId))
      (some (.ofText? source.userId))

/-- The source reference of a record. -/
def toSource (source : SourceRecord) : Except Failure SourceReference :=
  SourceReference.ofChecked <| SourceReference.check
    { sourceType := source.sourceType
      reference := source.reference.toKey
      displayPath := source.displayPath
      timestamp := source.timestamp.isoText
      confidence := source.confidence.map .real
      documentLocation := source.documentLocation.map LocationRecord.toLocation
      parsingSessionId := source.parsingSessionId
      userId := source.userId }

end SourceRecord
end Appraisal
