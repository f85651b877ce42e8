import Appraisal.Decimal.Arithmetic
import Appraisal.Dictionary
import Appraisal.Payload.Basic
import Appraisal.Provenance.Reference

/-!
# What users enter

Lines of revenue, expenses and adjustments, and what is known about the property and its valuation.
-/

namespace Appraisal

/-!
## Line items

A line item is one line of revenue, expense or adjustment with its source.  Its amount is a finite
number, whatever the payload that it was read from.  An item without an identifier draws one.
-/

/-- A line of revenue, expense or adjustment. -/
structure LineItem where
  id : String
  label : String
  amount : Decimal
  source : SourceReference
  category : Option String
  notes : Option String
  flaggedForReview : Bool
  deriving DecidableEq, Repr

namespace LineItem

/-- The number of characters of an identifier that a line item draws. -/
def drawnIdLength : Nat := 8

/-- The given identifier, or the beginning of a fresh one if it is empty. -/
def idOr (given : String) : Build String := do
  if given = "" then
    let id ← Build.drawId
    return String.ofList (id.toList.take drawnIdLength)
  else
    return given

/-- The amount that a payload stands for. -/
def amountOf (label : String) (given : Payload) : Except Failure Decimal :=
  match given.amount? with
  | some amount => .ok amount
  | none => .error (.noAmount label given)

/-- The line item of an amount that is given as a payload; an empty identifier is replaced. -/
def make (id label : String) (amount : Payload) (source : SourceReference)
    (category notes : Option String) (flaggedForReview : Bool) : Build LineItem := do
  let id ← idOr id
  let amount ← Build.ofExcept (amountOf label amount)
  return { id, label, amount, source, category, notes, flaggedForReview }

/-- The sum of the amounts of some items; none if there is no item. -/
def total (items : List LineItem) : Except Decimal.Signal (Option Decimal) :=
  match items with
  | [] => .ok none
  | _ :: _ => do return some (← Decimal.sum (items.map LineItem.amount))

end LineItem

/-!
## Inputs of a model

Everything that a user entered or that was read from documents: the line items, what is known about the
property, and what the valuation needs.  Beside the inputs with fixed names there may be further ones
under names of their own.

`rawInputs` gives the numbers by name.  The totals come first, then the valuation inputs, then the
property.  A valuation input replaces a total of the same name; a property input never replaces anything.
-/

/-- A value with its source. -/
structure SourcedValue where
  value : Payload
  source : SourceReference

namespace SourcedValue

/-- The finite number that the value stands for. -/
def number (sourced : SourcedValue) : Option Decimal :=
  sourced.value.amount?

end SourcedValue

/-- Values with fixed names, some of them missing. -/
abbrev NamedValues := List (String × Option SourcedValue)

namespace NamedValues

/-- The numbers of values with fixed names, and after them those of further values with new names. -/
def numbers (named : NamedValues) (extensions : Dictionary SourcedValue) :
    Dictionary (Option Decimal) :=
  Dictionary.putAllNew (named.map fun entry => (entry.1, entry.2.bind SourcedValue.number))
    (extensions.map fun entry => (entry.1, entry.2.number))

/-- The sources of values with fixed names, and after them those of further values. -/
def sources (named : NamedValues) (extensions : Dictionary SourcedValue) : List SourceReference :=
  named.filterMap (fun entry => entry.2.map SourcedValue.source) ++
    extensions.map fun entry => entry.2.source

end NamedValues

/-- What the valuation needs; rates are shares of one. -/
structure ValuationInputs where
  capRate : Option SourcedValue
  askingPrice : Option SourcedValue
  vacancyRate : Option SourcedValue
  extensions : Dictionary SourcedValue

namespace ValuationInputs

/-- The inputs with fixed names. -/
def named (inputs : ValuationInputs) : NamedValues :=
  [("capRate", inputs.capRate), ("askingPrice", inputs.askingPrice),
    ("vacancyRate", inputs.vacancyRate)]

/-- The numbers of the inputs by name. -/
def rawInputs (inputs : ValuationInputs) : Dictionary (Option Decimal) :=
  inputs.named.numbers inputs.extensions

/-- The sources of the inputs. -/
def sources (inputs : ValuationInputs) : List SourceReference :=
  inputs.named.sources inputs.extensions

end ValuationInputs

/-- What is known about the property. -/
structure PropertyInfo where
  squareFootage : Option SourcedValue
  units : Option SourcedValue
  yearBuilt : Option SourcedValue
  lotSize : Option SourcedValue
  extensions : Dictionary SourcedValue

namespace PropertyInfo

/-- The inputs with fixed names. -/
def named (info : PropertyInfo) : NamedValues :=
  [("squareFootage", info.squareFootage), ("units", info.units), ("yearBuilt", info.yearBuilt),
    ("lotSize", info.lotSize)]

/-- The numbers of the inputs by name. -/
def rawInputs (info : PropertyInfo) : Dictionary (Option Decimal) :=
  info.named.numbers info.extensions

/-- The sources of the inputs. -/
def sources (info : PropertyInfo) : List SourceReference :=
  info.named.sources info.extensions

end PropertyInfo

/-- Everything that was entered or read. -/
structure UserInput where
  revenueItems : List LineItem
  expenseItems : List LineItem
  adjustmentItems : List LineItem
  propertyInfo : Option PropertyInfo
  valuationInputs : Option ValuationInputs

/-- A line item with its place in the user input. -/
structure PlacedItem where
  part : String
  index : Nat
  item : LineItem

namespace UserInput

/-- The line items of a list with their places. -/
def placed (part : String) (items : List LineItem) : List PlacedItem :=
  items.zipIdx.map fun entry => { part, index := entry.2, item := entry.1 }

/-- All line items with their places: revenue, expense, adjustment. -/
def allItems (input : UserInput) : List PlacedItem :=
  placed "revenueItems" input.revenueItems ++ placed "expenseItems" input.expenseItems ++
    placed "adjustmentItems" input.adjustmentItems

/-- The totals of the three lists. -/
def totals (input : UserInput) : Except Decimal.Signal (Dictionary (Option Decimal)) := do
  let revenue ← LineItem.total input.revenueItems
  let expenses ← LineItem.total input.expenseItems
  let adjustments ← LineItem.total input.adjustmentItems
  return [("totalRevenue", revenue), ("totalExpenses", expenses),
    ("totalAdjustments", adjustments)]

/-- The numbers of the valuation inputs. -/
def valuationNumbers (input : UserInput) : Dictionary (Option Decimal) :=
  match input.valuationInputs with
  | some inputs => inputs.rawInputs
  | none => []

/-- The numbers of the property. -/
def propertyNumbers (input : UserInput) : Dictionary (Option Decimal) :=
  match input.propertyInfo with
  | some info => info.rawInputs
  | none => []

/-- The numbers of the user input by name. -/
def rawInputs (input : UserInput) : Except Decimal.Signal (Dictionary (Option Decimal)) := do
  let totals ← input.totals
  return Dictionary.putAllNew (Dictionary.putAll totals input.valuationNumbers)
    input.propertyNumbers

/-- The sources of all values: the line items, the valuation inputs, the property. -/
def sources (input : UserInput) : List SourceReference :=
  input.allItems.map (fun placed => placed.item.source) ++
    (input.valuationInputs.map ValuationInputs.sources).getD [] ++
    (input.propertyInfo.map PropertyInfo.sources).getD []

/-- The recorded confidences of all values. -/
def confidences (input : UserInput) : List Measure :=
  input.sources.filterMap SourceReference.confidence

/-- The mean of some confidences; full confidence when there are none. -/
def meanConfidence (confidences : List Measure) : Binary64 :=
  match confidences with
  | [] => .ofInt 1
  | _ :: _ =>
      ((confidences.map Measure.toBinary64).foldl Binary64.add .zero).divCount confidences.length

/-- The mean of the recorded confidences. -/
def overallConfidence (input : UserInput) : Binary64 :=
  meanConfidence input.confidences

end UserInput

end Appraisal
