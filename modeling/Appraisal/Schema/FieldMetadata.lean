import Appraisal.Model.Basic
import Appraisal.Schema.AuditTrail

/-!
# Records of the metadata of fields

The bounds of a field are written as a record of their own, which is left out when there are none.
-/

namespace Appraisal

/-- The record of the bounds of a field. -/
structure BoundsRecord where
  min : Option Decimal
  max : Option Decimal
  required : Bool
  deriving DecidableEq, Repr

namespace BoundsRecord

def title : String := "TypeConstraintsSchema"

/-- The record without any bound. -/
def unbounded : BoundsRecord :=
  { min := none, max := none, required := false }

/-- The record of three fields. -/
def ofFields (min max required : Option Payload) : Reading BoundsRecord :=
  mk <$> Reading.optional "min" Schema.decimal min
    <*> Reading.optional "max" Schema.decimal max
    <*> Reading.orUsual "required" Schema.truth false required

/-- Reads the bounds of a field. -/
def read : Reader BoundsRecord :=
  Reading.record title fun field => ofFields (field "min") (field "max") (field "required")

def toPayload (bounds : BoundsRecord) : Payload :=
  .object
    [("min", .ofText? (bounds.min.map Decimal.toText)),
      ("max", .ofText? (bounds.max.map Decimal.toText)), ("required", .bool bounds.required)]

def schema : Schema BoundsRecord :=
  { title, read, toPayload }

/-- The record of the bounds of a field, if it has any. -/
def ofMetadata (metadata : TypeMetadata) : Except Failure (Option BoundsRecord) :=
  if metadata.minValue.isSome || metadata.maxValue.isSome || metadata.required then
    some <$> Reading.built title
      (ofFields (some (.ofDecimal? metadata.minValue)) (some (.ofDecimal? metadata.maxValue))
        (some (.bool metadata.required)))
  else return none

end BoundsRecord

namespace PriorValue

def toPayload : PriorValue → Payload
  | number value => .decimal value
  | text value => .text value

/-- The value as it is written. -/
def written : PriorValue → Payload
  | number value => .text value.toText
  | text value => .text value

/-- Reads a value: a text as it is, anything else as a decimal number. -/
def read : Reader PriorValue
  | .text value => .accepted (text value)
  | payload =>
      match Schema.decimal payload with
      | .accepted value => .accepted (number value)
      | refused =>
          (fun value _ => number value) <$> refused.within "decimal"
            <*> (Schema.text payload).within "str"

end PriorValue

/-- The record of how the value of a field is shown and checked. -/
structure TypeRecord where
  type : FieldValueType
  currency : Option String
  precision : Option Nat
  unit : Option String
  displayFormat : Option String
  footnotes : List Footnote
  sourceLocation : Option LocationRecord
  isOverridden : Bool
  priorValue : Option PriorValue
  constraints : Option BoundsRecord
  deriving DecidableEq, Repr

namespace TypeRecord

def title : String := "TypeMetadataSchema"

/-- The record of its fields, of which the parts have been read. -/
def ofFields (type currency precision unit displayFormat : Option Payload)
    (footnotes : Reading (List Footnote)) (sourceLocation : Reading (Option LocationRecord))
    (isOverridden priorValue : Option Payload) (constraints : Reading (Option BoundsRecord)) :
    Reading TypeRecord :=
  mk <$> Reading.required "type" (Schema.option FieldValueType) type
    <*> Reading.optional "currency" Schema.text currency
    <*> Reading.optional "precision" Schema.natural precision
    <*> Reading.optional "unit" Schema.text unit
    <*> Reading.optional "displayFormat" Schema.text displayFormat
    <*> footnotes
    <*> sourceLocation
    <*> Reading.orUsual "isOverridden" Schema.truth false isOverridden
    <*> Reading.optional "originalValue" PriorValue.read priorValue
    <*> constraints

/-- Reads how the value of a field is shown and checked. -/
def read : Reader TypeRecord :=
  Reading.record title fun field =>
    ofFields (field "type") (field "currency") (field "precision") (field "unit")
      (field "displayFormat")
      (Reading.orUsual "footnotes" (Reading.listOf Footnote.read) [] (field "footnotes"))
      (Reading.optional "sourceLocation" LocationRecord.read (field "sourceLocation"))
      (field "isOverridden") (field "originalValue")
      (Reading.optional "constraints" BoundsRecord.read (field "constraints"))

def toPayload (metadata : TypeRecord) : Payload :=
  .object
    [("type", Named.toPayload metadata.type), ("currency", .ofText? metadata.currency),
      ("precision", .ofNat? metadata.precision), ("unit", .ofText? metadata.unit),
      ("displayFormat", .ofText? metadata.displayFormat),
      ("footnotes", .list (metadata.footnotes.map Footnote.toPayload)),
      ("sourceLocation", .orNull LocationRecord.toPayload metadata.sourceLocation),
      ("isOverridden", .bool metadata.isOverridden),
      ("originalValue", .orNull PriorValue.written metadata.priorValue),
      ("constraints", .orNull BoundsRecord.toPayload metadata.constraints)]

def schema : Schema TypeRecord :=
  { title, read, toPayload }

/-- The record of the metadata of a field. -/
def ofMetadata (metadata : TypeMetadata) : Except Failure TypeRecord := do
  let footnotes ← metadata.footnotes.mapM Footnote.recorded
  let sourceLocation ← metadata.sourceLocation.mapM LocationRecord.ofLocation
  let constraints ← BoundsRecord.ofMetadata metadata
  Reading.built title <|
    ofFields (some (Named.toPayload metadata.type)) (some (.ofText? metadata.currency))
      (some (.ofNat? metadata.precision)) (some (.ofText? metadata.unit))
      (some (.ofText? metadata.displayFormat)) (pure footnotes) (pure sourceLocation)
      (some (.bool metadata.isOverridden))
      (some (.orNull PriorValue.toPayload metadata.priorValue)) (pure constraints)

/-- The metadata of a field, according to a record. -/
def toMetadata (metadata : TypeRecord) : TypeMetadata :=
  let bounds := metadata.constraints.getD .unbounded
  { type := metadata.type
    currency := metadata.currency
    precision := metadata.precision
    unit := metadata.unit
    displayFormat := metadata.displayFormat
    footnotes := metadata.footnotes
    sourceLocation := metadata.sourceLocation.map LocationRecord.toLocation
    isOverridden := metadata.isOverridden
    priorValue := metadata.priorValue
    minValue := bounds.min
    maxValue := bounds.max
    required := bounds.required }

end TypeRecord
end Appraisal
