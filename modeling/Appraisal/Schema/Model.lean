import Appraisal.Model.Basic
import Appraisal.Schema.FieldMetadata
import Appraisal.Schema.Reasoning
import Appraisal.Schema.UserInput

/-!
# Records of models

The record of a complete model, and the entry points that read a payload from outside.  A payload that
names the direct capitalization approach must have a rate of capitalization and a property value.
-/

namespace Appraisal

/-- The record of how a model came about. -/
structure MetadataRecord where
  modelVersion : String
  createdAt : Moment
  sourceFileName : Option String
  sourceFileType : Option String
  processingTimeMs : Option Binary64
  agentModel : Option String
  updatedAt : Option Moment
  parsingSessionId : Option String
  deriving DecidableEq, Repr

namespace MetadataRecord

def title : String := "ModelMetadataSchema"

/-- The record of eight fields. -/
def ofFields (modelVersion createdAt sourceFileName sourceFileType processingTimeMs agentModel
    updatedAt parsingSessionId : Option Payload) : Reading MetadataRecord :=
  mk <$> Reading.required "modelVersion" Schema.text modelVersion
    <*> Reading.required "createdAt" Schema.moment createdAt
    <*> Reading.optional "sourceFileName" Schema.text sourceFileName
    <*> Reading.optional "sourceFileType" Schema.text sourceFileType
    <*> Reading.optional "processingTimeMs" Schema.nonNegativeReal processingTimeMs
    <*> Reading.optional "agentModel" Schema.text agentModel
    <*> Reading.optional "updatedAt" Schema.moment updatedAt
    <*> Reading.optional "parsingSessionId" Schema.text parsingSessionId

/-- Reads how a model came about. -/
def read : Reader MetadataRecord :=
  Reading.record title fun field =>
    ofFields (field "modelVersion") (field "createdAt") (field "sourceFileName")
      (field "sourceFileType") (field "processingTimeMs") (field "agentModel") (field "updatedAt")
      (field "parsingSessionId")

def toPayload (metadata : MetadataRecord) : Payload :=
  .object
    [("modelVersion", .text metadata.modelVersion),
      ("createdAt", .text metadata.createdAt.zuluText),
      ("sourceFileName", .ofText? metadata.sourceFileName),
      ("sourceFileType", .ofText? metadata.sourceFileType),
      ("processingTimeMs", .ofFloat? metadata.processingTimeMs),
      ("agentModel", .ofText? metadata.agentModel),
      ("updatedAt", .ofText? (metadata.updatedAt.map Moment.zuluText)),
      ("parsingSessionId", .ofText? metadata.parsingSessionId)]

def schema : Schema MetadataRecord :=
  { title, read, toPayload }

/-- The record of how a model came about. -/
def ofMetadata (metadata : ModelMetadata) : Except Failure MetadataRecord :=
  Reading.built title <|
    ofFields (some (.text metadata.modelVersion)) (some (.text metadata.createdAt))
      (some (.ofText? metadata.sourceFileName)) (some (.ofText? metadata.sourceFileType))
      (some (.ofFloat? metadata.processingTimeMs)) (some (.ofText? metadata.agentModel))
      (some (.ofText? metadata.updatedAt)) (some (.ofText? metadata.parsingSessionId))

/-- How a model came about, according to a record. -/
def toMetadata (metadata : MetadataRecord) : ModelMetadata :=
  { modelVersion := metadata.modelVersion
    createdAt := metadata.createdAt.isoText
    sourceFileName := metadata.sourceFileName
    sourceFileType := metadata.sourceFileType
    processingTimeMs := metadata.processingTimeMs
    agentModel := metadata.agentModel
    updatedAt := metadata.updatedAt.map Moment.isoText
    parsingSessionId := metadata.parsingSessionId }

end MetadataRecord

/-- The record of the numbers of a model. -/
structure ContentRecord where
  userInput : UserInputRecord
  calculations : TrailRecord
  types : Dictionary TypeRecord
  deriving DecidableEq, Repr

namespace ContentRecord

def title : String := "CustomModelSectionSchema"

/-- Reads the numbers of a model. -/
def read : Reader ContentRecord :=
  Reading.record title fun field =>
    mk <$> Reading.required "userInput" UserInputRecord.read (field "userInput")
      <*> Reading.required "calculations" TrailRecord.read (field "calculations")
      <*> Reading.orUsual "types" (Reading.dictionaryOf TypeRecord.read) [] (field "types")

def toPayload (content : ContentRecord) : Payload :=
  .object
    [("userInput", content.userInput.toPayload), ("calculations", content.calculations.toPayload),
      ("types", .object (content.types.map fun entry => (entry.1, entry.2.toPayload)))]

def schema : Schema ContentRecord :=
  { title, read, toPayload }

/-- The record of the numbers of a model. -/
def ofModel (model : FinancialModel) : Except Failure ContentRecord := do
  let userInput ← UserInputRecord.ofInput model.userInput
  let calculations ← TrailRecord.ofTrail model.calculations
  let types ← model.types.mapM fun entry => do
    return (entry.1, ← TypeRecord.ofMetadata entry.2)
  return { userInput, calculations, types }

end ContentRecord

/-- The record of a complete model. -/
structure ModelRecord where
  id : String
  title : String
  modelType : FinancialModelType
  briefReasoning : ReasoningRecord
  customModel : ContentRecord
  metadata : MetadataRecord
  deriving DecidableEq, Repr

namespace ModelRecord

def recordTitle : String := "CustomFinancialModelSchema"

/-- The record of its fields, of which the parts have been read. -/
def ofFields (id title modelType : Option Payload) (briefReasoning : Reading ReasoningRecord)
    (customModel : Reading ContentRecord) (metadata : Reading MetadataRecord) :
    Reading ModelRecord :=
  mk <$> Reading.required "id" Schema.nonEmptyText id
    <*> Reading.required "title" Schema.nonEmptyText title
    <*> Reading.required "modelType" (Schema.option FinancialModelType) modelType
    <*> briefReasoning
    <*> customModel
    <*> metadata

/-- Reads a model as a record of a name. -/
def readAs (recordName : String) : Reader ModelRecord :=
  Reading.record recordName fun field =>
    ofFields (field "id") (field "title") (field "modelType")
      (Reading.required "briefReasoning" ReasoningRecord.read (field "briefReasoning"))
      (Reading.required "customModel" ContentRecord.read (field "customModel"))
      (Reading.required "metadata" MetadataRecord.read (field "metadata"))

/-- Reads a model. -/
def read : Reader ModelRecord :=
  readAs recordTitle

def toPayload (model : ModelRecord) : Payload :=
  .object
    [("id", .text model.id), ("title", .text model.title),
      ("modelType", Named.toPayload model.modelType),
      ("briefReasoning", model.briefReasoning.toPayload),
      ("customModel", model.customModel.toPayload), ("metadata", model.metadata.toPayload)]

def schema : Schema ModelRecord :=
  { title := recordTitle, read, toPayload }

/-- The record of a model. -/
def ofModel (model : FinancialModel) : Except Failure ModelRecord := do
  let briefReasoning ← ReasoningRecord.ofReasoning model.briefReasoning
  let customModel ← ContentRecord.ofModel model
  let metadata ← MetadataRecord.ofMetadata model.metadata
  Reading.built recordTitle <|
    ofFields (some (.text model.id)) (some (.text model.title))
      (some (Named.toPayload model.modelType)) (pure briefReasoning) (pure customModel)
      (pure metadata)

/-- The model of a record. -/
def toModel (model : ModelRecord) : Build FinancialModel := do
  let userInput ← model.customModel.userInput.toInput
  let calculations ← Build.ofExcept model.customModel.calculations.toTrail
  return {
    id := model.id
    title := model.title
    modelType := model.modelType
    briefReasoning := model.briefReasoning.toReasoning
    userInput
    calculations
    metadata := model.metadata.toMetadata
    types := model.customModel.types.map fun entry => (entry.1, entry.2.toMetadata) }

/-! ## Direct capitalization -/

/-- The name of the record of a direct capitalization in messages. -/
def directCapTitle : String := "DirectCapitalizationModelSchema"

/-- Whether the valuation inputs hold a rate of capitalization. -/
def hasCapRate (model : ModelRecord) : Bool :=
  (model.customModel.userInput.valuationInputs.bind ValuationRecord.capRate).isSome

/-- Whether the property value is among the calculations. -/
def hasPropertyValue (model : ModelRecord) : Bool :=
  model.customModel.calculations.calculations.any fun result =>
    result.source.reference.key == some "propertyValue"

/-- The record itself, if it is a complete direct capitalization. -/
def directCap (model : ModelRecord) : Reading ModelRecord :=
  if model.modelType ≠ .directCapitalization then
    .fault (.rule "modelType must be direct_capitalization")
  else if !model.hasCapRate then
    .fault (.rule "valuationInputs.capRate is required")
  else
    Reading.orFault model.hasPropertyValue
      (.rule "calculations must include propertyValue") model

/-- Reads a direct capitalization. -/
def readDirectCap : Reader ModelRecord := fun payload =>
  (readAs directCapTitle payload).andThen directCap

/-- The schema of direct capitalizations. -/
def directCapSchema : Schema ModelRecord :=
  { title := directCapTitle, read := readDirectCap, toPayload }

end ModelRecord

/-! ## Payloads from outside -/

namespace Schema

/-- The user input that a payload describes. -/
def parseUserInput (payload : Payload) : Build UserInput := do
  let input ← Build.ofExcept (UserInputRecord.schema.parse payload)
  input.toInput

/-- Whether a payload names the direct capitalization approach. -/
def namesDirectCap (payload : Payload) : Bool :=
  match payload.field? "modelType" with
  | some (.text name) => name == Named.name FinancialModelType.directCapitalization
  | _ => false

/-- The record of the model that a payload describes. -/
def modelRecord (payload : Payload) : Except Failure ModelRecord :=
  if namesDirectCap payload then
    ModelRecord.directCapSchema.parse payload
  else
    ModelRecord.schema.parse payload

/-- The model that a payload describes. -/
def parseModel (payload : Payload) : Build FinancialModel := do
  let model ← Build.ofExcept (modelRecord payload)
  model.toModel

end Schema
end Appraisal
