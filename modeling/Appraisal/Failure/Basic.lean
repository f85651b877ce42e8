import Appraisal.Failure.Report
import Appraisal.Payload.Basic
import Appraisal.Text.Printable

/-!
# Failures

What can go wrong when records are made, together with the supply from which new records draw their identifiers.
-/

namespace Appraisal

/-!
## Fresh identifiers

Whatever is created without an identifier draws the next one of a supply.  The supply counts the
identifiers drawn so far, and the count is the leading part of the identifier.
-/

/-- The number of identifiers drawn so far. -/
structure IdSupply where
  drawn : Nat
  deriving DecidableEq, Repr

namespace IdSupply

/-- A supply from which nothing has been drawn. -/
def fresh : IdSupply := ⟨0⟩

/-- The `n`-th identifier. -/
def nth (n : Nat) : String :=
  String.ofList (Text.hexPadded 8 n) ++ "-0000-4000-8000-000000000000"

theorem length_nth_pos (n : Nat) : 0 < (nth n).toList.length := by
  have htail : 0 < "-0000-4000-8000-000000000000".toList.length := by decide
  rw [nth, String.toList_append, List.length_append]
  exact Nat.add_pos_right _ htail

/-- Draws the next identifier. -/
def draw (supply : IdSupply) : String × IdSupply :=
  (nth (supply.drawn + 1), ⟨supply.drawn + 1⟩)

end IdSupply

/-!
## Kinds of failures

Why an operation was refused, by cause.  `message` is the text of a failure, and `report?` gives the
report of those failures that are errors of this library.
-/

/-- Why a batch of formulas or a function was not registered. -/
inductive RegistrationError where
  | duplicateFormula (id : String)
  | unknownDependency (id dependency : String)
  | unknownFunction (id name : String)
  /-- Formulas depend on each other in a circle; the chain starts and ends with the same one. -/
  | cycle (chain : List String)
  | duplicateFunction (name : String)
  deriving DecidableEq, Repr

/-- Which rule a source reference breaks. -/
inductive SourceError where
  | unknownType (given : Payload)
  | emptyReference (displayPath : String)
  | negativeIndex (index : Int)
  /-- The confidence does not lie between zero and one. -/
  | confidenceRange (confidence : Measure)

/-- Why an operation was refused. -/
inductive Failure where
  | registration (error : RegistrationError)
  | formulaNotFound (id : String)
  | source (error : SourceError)
  | noLocation
  | vacancyRate (stream rate fallback : String)
  | invalidPayload (record : String) (issues : List Issue)
  | rejected (record : String) (issues : List Issue)
  | arithmetic (signal : Decimal.Signal)
  | unknownOption (given : Payload) (title : String)
  | functionNotNamed (id : String)
  | noAmount (label : String) (given : Payload)
  | missingKey (key : String)
  | wrongKind (message : String)
  | wrongValue (message : String)
  | outOfRange (message : String)
  | raised (kind message : String)

namespace RegistrationError

/-- The report of a refused registration. -/
def report : RegistrationError → Report
  | duplicateFormula id => .duplicateFormula (.text id)
  | unknownDependency id dependency => .unknownDependency (.text id) (.text dependency)
  | unknownFunction id name => .unknownFunction (.text id) (.text name)
  | cycle chain => .cycle chain
  | duplicateFunction name => .duplicateFunction (.text name)

end RegistrationError

namespace SourceError

/-- The report of a source reference that breaks a rule. -/
def report : SourceError → Report
  | unknownType given =>
      .make .invalidSource ("Unknown source type: " ++ given.shown)
        [("source_type", .text given.shown)]
  | emptyReference displayPath =>
      .make .invalidSource "Source reference must carry an index, key or id"
        [("display_path", .text displayPath)]
  | negativeIndex index =>
      .make .invalidSource "Reference index must be non-negative" [("index", .int index)]
  | confidenceRange confidence =>
      .make .invalidSource "Confidence must be between 0 and 1"
        [("confidence", confidence.toPayload)]

end SourceError

namespace Failure

/-- The report of a failure that is an error of this library. -/
def report? : Failure → Option Report
  | registration error => some error.report
  | formulaNotFound id => some (.formulaNotFound (.text id))
  | source error => some error.report
  | vacancyRate stream rate fallback =>
      some (.make .conversion "Vacancy rate must be a percentage between 0 and 100"
        [("stream_id", .text stream), ("vacancy_rate_percent", .text rate),
          ("default_vacancy_rate_percent", .text fallback)])
  | invalidPayload record issues =>
      some (.invalidPayload ("Invalid " ++ record ++ " payload") [("schema", .text record)]
        (issues.map Issue.toPayload))
  | _ => none

/-- The text of a failure. -/
def message : Failure → String
  | registration error => error.report.message.shown
  | formulaNotFound id => "Formula " ++ id ++ " not found"
  | source error => error.report.message.shown
  | noLocation => "'NoneType' object has no attribute 'describe'"
  | vacancyRate .. => "Vacancy rate must be a percentage between 0 and 100"
  | invalidPayload record _ => "Invalid " ++ record ++ " payload"
  | rejected record _ => record
  | arithmetic signal => signal.message
  | unknownOption given title => given.literal ++ " is not a valid " ++ title
  | functionNotNamed id => "Custom formula " ++ id ++ " must name a function"
  | noAmount label given =>
      "Line item " ++ (Payload.text label).literal ++ " has a non-numeric amount: " ++ given.literal
  | missingKey key => (Payload.text key).literal
  | wrongKind message => message
  | wrongValue message => message
  | outOfRange message => message
  | raised _ message => message

/-- The answer of an operation on decimal numbers, with its failure among all others. -/
def ofDecimal {α : Type} : Except Decimal.Signal α → Except Failure α
  | .ok a => .ok a
  | .error signal => .error (arithmetic signal)

/-- The answer of a registration, with its error among all failures. -/
def ofRegistration {α : Type} : Except RegistrationError α → Except Failure α
  | .ok a => .ok a
  | .error error => .error (registration error)

end Failure

/-- Building something that may draw identifiers and may fail. -/
abbrev Build := StateT IdSupply (Except Failure)

namespace Build

/-- Draws an identifier. -/
def drawId : Build String := fun supply => .ok supply.draw

/-- The given identifier, or a fresh one if it is missing or empty. -/
def idOr (given : Option String) : Build String :=
  match given with
  | some id => if id = "" then drawId else pure id
  | none => drawId

/-- An answer that draws no identifier. -/
def ofExcept {α : Type} (answer : Except Failure α) : Build α := fun supply =>
  match answer with
  | .ok a => .ok (a, supply)
  | .error failure => .error failure

end Build

end Appraisal
