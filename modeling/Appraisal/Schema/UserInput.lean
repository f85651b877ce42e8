import Appraisal.Schema.Extensions
import Appraisal.Schema.Provenance
import Appraisal.UserInput.Basic

/-!
# Records of the user input

The records of line items, of what is known about the property, of what the valuation needs, and of the
user input as a whole.
-/

namespace Appraisal

/-- The record of a number with its source. -/
structure NumberRecord where
  value : Option Decimal
  source : SourceRecord
  deriving DecidableEq, Repr

namespace NumberRecord

def title : String := "NumberWithSourceSchema"

/-- The record of its fields, of which the source has been read. -/
def ofFields (value : Option Payload) (source : Reading SourceRecord) : Reading NumberRecord :=
  mk <$> Reading.optional "value" Schema.decimal value <*> source

/-- Reads a number with its source. -/
def read : Reader NumberRecord :=
  Reading.record title fun field =>
    ofFields (field "value") (Reading.required "source" SourceRecord.read (field "source"))

def toPayload (number : NumberRecord) : Payload :=
  .object
    [("value", .ofText? (number.value.map Decimal.toText)), ("source", number.source.toPayload)]

def schema : Schema NumberRecord :=
  { title, read, toPayload }

/-- The record of a value that counts as a number. -/
def ofValue (value : SourcedValue) : Except Failure NumberRecord := do
  let source ← SourceRecord.ofSource value.source
  Reading.built title (ofFields (some (.ofDecimal? value.number)) (pure source))

/-- The value of a record. -/
def toValue (number : NumberRecord) : Except Failure SourcedValue := do
  return { value := .ofDecimal? number.value, source := ← number.source.toSource }

/-- The records of values by name. -/
def ofValues (values : Dictionary SourcedValue) : Except Failure (Dictionary NumberRecord) :=
  values.mapM fun entry => do return (entry.1, ← ofValue entry.2)

/-- The values of records by name. -/
def toValues (numbers : Dictionary NumberRecord) : Except Failure (Dictionary SourcedValue) :=
  numbers.mapM fun entry => do return (entry.1, ← entry.2.toValue)

/-- Records by name as an object. -/
def dictionaryPayload (numbers : Dictionary NumberRecord) : Payload :=
  .object (numbers.map fun entry => (entry.1, entry.2.toPayload))

end NumberRecord

/-- The record of a line item. -/
structure LineItemRecord where
  id : String
  label : String
  amount : Decimal
  source : SourceRecord
  category : Option String
  notes : Option String
  flaggedForReview : Bool
  deriving DecidableEq, Repr

namespace LineItemRecord

def title : String := "LineItemSchema"

/-- The record of its fields, of which the source has been read. -/
def ofFields (id label amount : Option Payload) (source : Reading SourceRecord)
    (category notes flaggedForReview : Option Payload) : Reading LineItemRecord :=
  mk <$> Reading.required "id" Schema.text id
    <*> Reading.required "label" Schema.nonEmptyText label
    <*> Reading.required "amount" Schema.decimal amount
    <*> source
    <*> Reading.optional "category" Schema.text category
    <*> Reading.optional "notes" Schema.text notes
    <*> Reading.orUsual "flaggedForReview" Schema.truth false flaggedForReview

/-- Reads a line item. -/
def read : Reader LineItemRecord :=
  Reading.record title fun field =>
    ofFields (field "id") (field "label") (field "amount")
      (Reading.required "source" SourceRecord.read (field "source"))
      (field "category") (field "notes") (field "flaggedForReview")

def toPayload (item : LineItemRecord) : Payload :=
  .object
    [("id", .text item.id), ("label", .text item.label), ("amount", .text item.amount.toText),
      ("source", item.source.toPayload), ("category", .ofText? item.category),
      ("notes", .ofText? item.notes), ("flaggedForReview", .bool item.flaggedForReview)]

def schema : Schema LineItemRecord :=
  { title, read, toPayload }

/-- The record of a line item. -/
def ofItem (item : LineItem) : Except Failure LineItemRecord := do
  let source ← SourceRecord.ofSource item.source
  Reading.built title <|
    ofFields (some (.text item.id)) (some (.text item.label)) (some (.decimal item.amount))
      (pure source) (some (.ofText? item.category)) (some (.ofText? item.notes))
      (some (.bool item.flaggedForReview))

/-- The line item of a record; one without an identifier draws it. -/
def toItem (item : LineItemRecord) : Build LineItem := do
  let source ← Build.ofExcept item.source.toSource
  LineItem.make item.id item.label (.decimal item.amount) source item.category item.notes
    item.flaggedForReview

end LineItemRecord

/-- The record of what the valuation needs. -/
structure ValuationRecord where
  extensions : Dictionary NumberRecord
  capRate : Option NumberRecord
  askingPrice : Option NumberRecord
  vacancyRate : Option NumberRecord
  deriving DecidableEq, Repr

namespace ValuationRecord

def title : String := "ValuationInputsSchema"

/-- Reads an input with a fixed name. -/
def readInput (name : String) (field : String → Option Payload) : Reading (Option NumberRecord) :=
  Reading.optional name NumberRecord.read (field name)

/-- Reads what the valuation needs. -/
def read : Reader ValuationRecord :=
  Extensions.record title ["capRate", "askingPrice", "vacancyRate"] NumberRecord.read
    fun extensions field =>
      mk <$> extensions <*> readInput "capRate" field <*> readInput "askingPrice" field
        <*> readInput "vacancyRate" field

def toPayload (inputs : ValuationRecord) : Payload :=
  .object
    [("extensions", NumberRecord.dictionaryPayload inputs.extensions),
      ("capRate", .orNull NumberRecord.toPayload inputs.capRate),
      ("askingPrice", .orNull NumberRecord.toPayload inputs.askingPrice),
      ("vacancyRate", .orNull NumberRecord.toPayload inputs.vacancyRate)]

def schema : Schema ValuationRecord :=
  { title, read, toPayload }

/-- The record of what the valuation needs. -/
def ofInputs (inputs : ValuationInputs) : Except Failure ValuationRecord := do
  let capRate ← inputs.capRate.mapM NumberRecord.ofValue
  let askingPrice ← inputs.askingPrice.mapM NumberRecord.ofValue
  let vacancyRate ← inputs.vacancyRate.mapM NumberRecord.ofValue
  let extensions ← NumberRecord.ofValues inputs.extensions
  return { extensions, capRate, askingPrice, vacancyRate }

/-- What the valuation needs, according to a record. -/
def toInputs (inputs : ValuationRecord) : Except Failure ValuationInputs := do
  let capRate ← inputs.capRate.mapM NumberRecord.toValue
  let askingPrice ← inputs.askingPrice.mapM NumberRecord.toValue
  let vacancyRate ← inputs.vacancyRate.mapM NumberRecord.toValue
  let extensions ← NumberRecord.toValues inputs.extensions
  return { capRate, askingPrice, vacancyRate, extensions }

end ValuationRecord

/-- The record of what is known about the property. -/
structure PropertyRecord where
  extensions : Dictionary NumberRecord
  squareFootage : Option NumberRecord
  units : Option NumberRecord
  yearBuilt : Option NumberRecord
  lotSize : Option NumberRecord
  deriving DecidableEq, Repr

namespace PropertyRecord

open ValuationRecord (readInput)

def title : String := "PropertyInfoSchema"

/-- Reads what is known about the property. -/
def read : Reader PropertyRecord :=
  Extensions.record title ["squareFootage", "units", "yearBuilt", "lotSize"] NumberRecord.read
    fun extensions field =>
      mk <$> extensions <*> readInput "squareFootage" field <*> readInput "units" field
        <*> readInput "yearBuilt" field <*> readInput "lotSize" field

def toPayload (info : PropertyRecord) : Payload :=
  .object
    [("extensions", NumberRecord.dictionaryPayload info.extensions),
      ("squareFootage", .orNull NumberRecord.toPayload info.squareFootage),
      ("units", .orNull NumberRecord.toPayload info.units),
      ("yearBuilt", .orNull NumberRecord.toPayload info.yearBuilt),
      ("lotSize", .orNull NumberRecord.toPayload info.lotSize)]

def schema : Schema PropertyRecord :=
  { title, read, toPayload }

/-- The record of what is known about the property. -/
def ofInfo (info : PropertyInfo) : Except Failure PropertyRecord := do
  let squareFootage ← info.squareFootage.mapM NumberRecord.ofValue
  let units ← info.units.mapM NumberRecord.ofValue
  let yearBuilt ← info.yearBuilt.mapM NumberRecord.ofValue
  let lotSize ← info.lotSize.mapM NumberRecord.ofValue
  let extensions ← NumberRecord.ofValues info.extensions
  return { extensions, squareFootage, units, yearBuilt, lotSize }

/-- What is known about the property, according to a record. -/
def toInfo (info : PropertyRecord) : Except Failure PropertyInfo := do
  let squareFootage ← info.squareFootage.mapM NumberRecord.toValue
  let units ← info.units.mapM NumberRecord.toValue
  let yearBuilt ← info.yearBuilt.mapM NumberRecord.toValue
  let lotSize ← info.lotSize.mapM NumberRecord.toValue
  let extensions ← NumberRecord.toValues info.extensions
  return { squareFootage, units, yearBuilt, lotSize, extensions }

end PropertyRecord

/-- The record of the user input. -/
structure UserInputRecord where
  revenueItems : List LineItemRecord
  expenseItems : List LineItemRecord
  adjustmentItems : List LineItemRecord
  propertyInfo : Option PropertyRecord
  valuationInputs : Option ValuationRecord
  deriving DecidableEq, Repr

namespace UserInputRecord

def title : String := "UserInputSchema"

/-- Reads the user input. -/
def read : Reader UserInputRecord :=
  let items := Reading.listOf LineItemRecord.read
  Reading.record title fun field =>
    mk <$> Reading.required "revenueItems" items (field "revenueItems")
      <*> Reading.required "expenseItems" items (field "expenseItems")
      <*> Reading.orUsual "adjustmentItems" items [] (field "adjustmentItems")
      <*> Reading.optional "propertyInfo" PropertyRecord.read (field "propertyInfo")
      <*> Reading.optional "valuationInputs" ValuationRecord.read (field "valuationInputs")

def toPayload (input : UserInputRecord) : Payload :=
  .object
    [("revenueItems", .list (input.revenueItems.map LineItemRecord.toPayload)),
      ("expenseItems", .list (input.expenseItems.map LineItemRecord.toPayload)),
      ("adjustmentItems", .list (input.adjustmentItems.map LineItemRecord.toPayload)),
      ("propertyInfo", .orNull PropertyRecord.toPayload input.propertyInfo),
      ("valuationInputs", .orNull ValuationRecord.toPayload input.valuationInputs)]

def schema : Schema UserInputRecord :=
  { title, read, toPayload }

/-- The record of a user input. -/
def ofInput (input : UserInput) : Except Failure UserInputRecord := do
  let revenueItems ← input.revenueItems.mapM LineItemRecord.ofItem
  let expenseItems ← input.expenseItems.mapM LineItemRecord.ofItem
  let adjustmentItems ← input.adjustmentItems.mapM LineItemRecord.ofItem
  let propertyInfo ← input.propertyInfo.mapM PropertyRecord.ofInfo
  let valuationInputs ← input.valuationInputs.mapM ValuationRecord.ofInputs
  return { revenueItems, expenseItems, adjustmentItems, propertyInfo, valuationInputs }

/-- The user input of a record. -/
def toInput (input : UserInputRecord) : Build UserInput := do
  let revenueItems ← input.revenueItems.mapM LineItemRecord.toItem
  let expenseItems ← input.expenseItems.mapM LineItemRecord.toItem
  let adjustmentItems ← input.adjustmentItems.mapM LineItemRecord.toItem
  let propertyInfo ← Build.ofExcept (input.propertyInfo.mapM PropertyRecord.toInfo)
  let valuationInputs ← Build.ofExcept (input.valuationInputs.mapM ValuationRecord.toInputs)
  return { revenueItems, expenseItems, adjustmentItems, propertyInfo, valuationInputs }

end UserInputRecord
end Appraisal
