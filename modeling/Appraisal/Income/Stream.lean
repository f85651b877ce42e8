import Appraisal.Decimal.Arithmetic
import Appraisal.Text.Character
import Appraisal.UserInput.Basic

/-!
# Streams of revenue

A stream holds the revenue items of one group as rows.  At first nothing is taken off for vacancy; a
vacancy rate in percent is applied to a whole stream, and it always starts from the full income of the
rows, so a later rate replaces an earlier one.
-/

namespace Appraisal
namespace Income

open Text (isBlank trim lower)

/-- The kind of a stream. -/
inductive StreamCategory where
  | residential
  | commercial
  | miscellaneous
  deriving DecidableEq, Repr

instance : Named StreamCategory where
  title := "StreamCategory"
  all := [.residential, .commercial, .miscellaneous]
  name
    | .residential => "Residential"
    | .commercial => "Commercial"
    | .miscellaneous => "Miscellaneous"

/-- A row of a stream. -/
structure RevenueRow where
  id : String
  unit : String
  annualIncome : Decimal
  monthlyRate : Decimal
  effectiveAnnualIncome : Decimal
  squareFeet : Option Decimal
  isVacant : Bool
  vacancyLoss : Decimal
  tenantName : Option String
  source : Option SourceReference
  deriving DecidableEq, Repr

/-- The totals of a stream. -/
structure StreamTotals where
  grossRevenue : Decimal
  effectiveRevenue : Decimal
  squareFootage : Decimal
  deriving DecidableEq, Repr

/-- Rows under one name. -/
structure RevenueStream where
  id : String
  name : String
  category : StreamCategory
  rows : List RevenueRow
  totals : StreamTotals
  /-- The vacancy rate in percent, if one was applied. -/
  vacancyRate : Option Decimal
  deriving DecidableEq, Repr

/-! ## Names -/

/-- The text in which every run of blank characters is one hyphen.

The flag says whether the characters in front were blank. -/
def hyphenate (afterBlank : Bool) : List Char → List Char
  | [] => []
  | c :: rest =>
      if isBlank c then
        if afterBlank then hyphenate true rest else '-' :: hyphenate true rest
      else c :: hyphenate false rest

/-- A name as a part of an identifier: in small letters, with hyphens for blanks. -/
def slug (name : String) : String :=
  String.ofList (hyphenate false (lower (trim isBlank name.toList)))

/-- Whether some characters occur in a text without a break. -/
def occurs (word : List Char) : List Char → Bool
  | [] => word.isEmpty
  | c :: rest => word.isPrefixOf (c :: rest) || occurs word rest

/-- The words in the name of a group that tell its kind; the first kind with a word wins. -/
def categoryWords : List (StreamCategory × List String) :=
  [(.residential, ["residential", "apartment"]), (.commercial, ["commercial", "office", "retail"])]

/-- The kind of a group by its name. -/
def categoryFor (name : String) : StreamCategory :=
  let lowered := lower name.toList
  match categoryWords.find? fun entry => entry.2.any fun word => occurs word.toList lowered with
  | some entry => entry.1
  | none => .miscellaneous

/-! ## Rows and streams -/

/-- The number of months of a year. -/
def monthsPerYear : Decimal := .ofInt 12

/-- The whole, in percent. -/
def hundred : Decimal := .ofInt 100

/-- The row of a line item. -/
def rowOf (item : LineItem) : Except Decimal.Signal RevenueRow := do
  let monthlyRate ← item.amount.div monthsPerYear
  return {
    id := item.id
    unit := item.label
    annualIncome := item.amount
    monthlyRate
    effectiveAnnualIncome := item.amount
    squareFeet := none
    isVacant := false
    vacancyLoss := .zero
    tenantName := item.notes
    source := some item.source }

/-- The income of some rows. -/
def gross (rows : List RevenueRow) : Except Decimal.Signal Decimal :=
  Decimal.sum (rows.map RevenueRow.annualIncome)

/-- The stream of some line items. -/
def streamOf (id name : String) (category : StreamCategory) (items : List LineItem) :
    Except Decimal.Signal RevenueStream := do
  let rows ← items.mapM rowOf
  let revenue ← gross rows
  return {
    id, name, category, rows
    totals := { grossRevenue := revenue, effectiveRevenue := revenue, squareFootage := .zero }
    vacancyRate := none }

/-! ## Groups -/

/-- The name of the group of items that name none. -/
def defaultGroup : String := "Miscellaneous"

/-- The name of the group of a line item. -/
def groupOf (item : LineItem) : String :=
  match item.category with
  | some category => if category = "" then defaultGroup else category
  | none => defaultGroup

/-- Puts a line item at the end of its group. -/
def addToGroup (groups : Dictionary (List LineItem)) (item : LineItem) :
    Dictionary (List LineItem) :=
  groups.put (groupOf item) ((groups.get? (groupOf item)).getD [] ++ [item])

/-- The groups of some line items, in the order of their first items. -/
def grouped (items : List LineItem) : Dictionary (List LineItem) :=
  items.foldl addToGroup []

/-- The stream of a group. -/
def groupStream (group : String × List LineItem) : Except Decimal.Signal RevenueStream :=
  streamOf ("stream-" ++ slug group.1) group.1 (categoryFor group.1) group.2

/-- The streams of some line items, one for each group. -/
def streams (items : List LineItem) : Except Decimal.Signal (List RevenueStream) :=
  (grouped items).mapM groupStream

/-! ## Vacancy -/

/-- The row when only a share of its income is earned. -/
def RevenueRow.occupied (row : RevenueRow) (share : Decimal) :
    Except Decimal.Signal RevenueRow := do
  let effectiveAnnualIncome ← row.annualIncome.mul share
  let vacancyLoss ← row.annualIncome.sub effectiveAnnualIncome
  return { row with effectiveAnnualIncome, vacancyLoss }

/-- The stream after vacancy, for a rate in percent. -/
def RevenueStream.adjusted (stream : RevenueStream) (rate : Decimal) :
    Except Decimal.Signal RevenueStream := do
  let share ← Decimal.one.sub (← rate.div hundred)
  let rows ← stream.rows.mapM fun row => row.occupied share
  let grossRevenue ← gross rows
  let effectiveRevenue ← grossRevenue.mul share
  return { stream with
    rows
    vacancyRate := some rate
    totals := { stream.totals with grossRevenue, effectiveRevenue } }

/-- Whether a rate lies between zero and a hundred percent. -/
def isPercentage (rate : Decimal) : Except Decimal.Signal Bool := do
  if ← Decimal.zero.le? rate then rate.le? hundred else return false

/-- The stream after vacancy.  The second rate stands in for the first when that is no number. -/
def RevenueStream.withVacancy (stream : RevenueStream) (rate fallback : Payload) :
    Except Failure RevenueStream :=
  let refused : Failure := .vacancyRate stream.id rate.shown fallback.shown
  match rate.amount?.or fallback.amount? with
  | some percent => do
      if ← Failure.ofDecimal (isPercentage percent) then
        Failure.ofDecimal (stream.adjusted percent)
      else
        throw refused
  | none => .error refused

end Income
end Appraisal
