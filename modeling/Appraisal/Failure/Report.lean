import Appraisal.Dictionary
import Appraisal.Failure.Issue
import Appraisal.Payload.Basic

/-!
# Error reports

Errors of this library are reported with a code, a message and details.  The kinds of error form a small
hierarchy: every refusal to register a formula is a registration error, and every kind is an error of the
library.  The errors that the library itself reports have texts for message and code and an object of
details, but an error that is made by hand may have anything there.
-/

namespace Appraisal

/-- The kinds of error. -/
inductive ErrorKind where
  | general
  | registration
  | duplicateFormula
  | unknownDependency
  | cycle
  | duplicateFunction
  | unknownFunction
  | formulaNotFound
  | invalidSource
  | conversion
  | invalidPayload
  deriving DecidableEq, Repr

namespace ErrorKind

/-- All kinds of errors, in the order of their codes. -/
def all : List ErrorKind :=
  [general, registration, duplicateFormula, unknownDependency, cycle, duplicateFunction,
    unknownFunction, formulaNotFound, invalidSource, conversion, invalidPayload]

/-- The name of a kind of error. -/
def title : ErrorKind → String
  | general => "ParseNFillError"
  | registration => "RegistrationError"
  | duplicateFormula => "DuplicateFormulaIdError"
  | unknownDependency => "UnknownDependencyError"
  | cycle => "CycleDetectedError"
  | duplicateFunction => "DuplicateFunctionError"
  | unknownFunction => "UnknownFunctionError"
  | formulaNotFound => "FormulaNotFoundError"
  | invalidSource => "InvalidSourceReferenceError"
  | conversion => "ConversionError"
  | invalidPayload => "SchemaValidationError"

/-- The code of a kind of error. -/
def code : ErrorKind → String
  | general => "PNF-000"
  | registration => "PNF-100"
  | duplicateFormula => "PNF-101"
  | unknownDependency => "PNF-102"
  | cycle => "PNF-103"
  | duplicateFunction => "PNF-104"
  | unknownFunction => "PNF-105"
  | formulaNotFound => "PNF-106"
  | invalidSource => "PNF-200"
  | conversion => "PNF-300"
  | invalidPayload => "PNF-400"

/-- The message of an error of which nothing else is said. -/
def defaultMessage : ErrorKind → String
  | registration => "Failed to register formulas"
  | invalidSource => "Invalid source reference"
  | conversion => "Failed to convert model"
  | invalidPayload => "Validation failed"
  | _ => "An unexpected error occurred"

/-- The next wider kind of error. -/
def wider? : ErrorKind → Option ErrorKind
  | general => none
  | duplicateFormula | unknownDependency | cycle | duplicateFunction | unknownFunction =>
      some registration
  | _ => some general

/-- The kind itself and all wider ones, narrowest first. -/
def lineage (kind : ErrorKind) : List ErrorKind :=
  match kind.wider? with
  | none => [kind]
  | some general => [kind, general]
  | some wider => [kind, wider, general]

end ErrorKind

/-- An error with its code, message and details. -/
structure Report where
  kind : ErrorKind
  message : Payload
  details : Payload
  code : Payload

namespace Report

/-- A report of a kind with its usual code. -/
def make (kind : ErrorKind) (message : String) (details : Dictionary Payload) : Report :=
  { kind, message := .text message, details := .object details, code := .text kind.code }

/-- A formula of that name is registered already. -/
def duplicateFormula (id : Payload) : Report :=
  make .duplicateFormula ("Formula already registered: " ++ id.shown) [("formula_id", id)]

/-- A formula depends on one that is not registered. -/
def unknownDependency (id dependency : Payload) : Report :=
  make .unknownDependency
    ("Formula " ++ id.shown ++ " depends on unknown formula " ++ dependency.shown)
    [("formula_id", id), ("dependency", dependency)]

/-- Formulas depend on each other in a circle. -/
def cycle (chain : List String) : Report :=
  make .cycle ("Dependency cycle detected: " ++ " -> ".intercalate chain)
    [("chain", .list (chain.map .text))]

/-- A function of that name is registered already. -/
def duplicateFunction (name : Payload) : Report :=
  make .duplicateFunction ("Function already registered: " ++ name.shown) [("function", name)]

/-- A formula calls a function that is not registered. -/
def unknownFunction (id name : Payload) : Report :=
  make .unknownFunction ("Formula " ++ id.shown ++ " uses unknown function " ++ name.shown)
    [("formula_id", id), ("function", name)]

/-- No formula has that name. -/
def formulaNotFound (id : Payload) : Report :=
  make .formulaNotFound ("Formula " ++ id.shown ++ " not found") [("formula_id", id)]

/-- A payload does not fit its schema. -/
def invalidPayload (message : String) (details : Dictionary Payload) (errors : List Payload) :
    Report :=
  make .invalidPayload message (details.put "errors" (.list errors))

/-- The report as an object. -/
def toPayload (report : Report) : Payload :=
  .object
    [("error", .bool true), ("error_code", report.code), ("message", report.message),
      ("details", report.details)]

end Report

/-- An issue as an object. -/
def Issue.toPayload (issue : Issue) : Payload :=
  .object
    [("loc", .text issue.place), ("msg", .text issue.fault.message),
      ("type", .text issue.fault.kind)]

end Appraisal
