import Appraisal.Failure.Basic

/-!
# Reading payloads

A payload is read against a schema.  The answer is the value, or all issues of the payload in the order
of the fields, or a failure that ends the reading at once.  Readings of several fields are combined by
application: the issues of all of them are collected, and the first failure wins over any issue.
-/

namespace Appraisal

/-- The answer of reading a payload. -/
inductive Reading (α : Type) where
  | accepted (value : α)
  | refused (issues : List Issue)
  /-- The payload cannot be read to the end. -/
  | abandoned (failure : Failure)

/-- How a payload is read. -/
abbrev Reader (α : Type) := Payload → Reading α

namespace Reading

variable {α β : Type}

/-- The reading that has one fault at the payload itself. -/
def fault (fault : Fault) : Reading α :=
  refused [{ path := [], fault }]

/-- Applies a reading of a function to a reading of its argument. -/
def apply : Reading (α → β) → Reading α → Reading β
  | accepted f, accepted a => accepted (f a)
  | accepted _, refused issues => refused issues
  | refused issues, accepted _ => refused issues
  | refused first, refused second => refused (first ++ second)
  | abandoned failure, _ => abandoned failure
  | _, abandoned failure => abandoned failure

/-- Goes on with an accepted value. -/
def andThen : Reading α → (α → Reading β) → Reading β
  | accepted a, next => next a
  | refused issues, _ => refused issues
  | abandoned failure, _ => abandoned failure

instance : Applicative Reading where
  pure := accepted
  map f reading := reading.andThen fun a => accepted (f a)
  seq f reading := f.apply (reading ())

/-- The reading as seen from a payload that holds the read one under a step. -/
def within (step : String) : Reading α → Reading α
  | refused issues => refused (issues.map (Issue.within step))
  | other => other

/-- The value itself if it passes a test, otherwise a fault. -/
def orFault (test : Bool) (fault : Fault) (value : α) : Reading α :=
  if test then accepted value else Reading.fault fault

/-- The answer of a check, with its fault as the only issue. -/
def ofCheck : Except Fault α → Reading α
  | .ok a => accepted a
  | .error fault => Reading.fault fault

/-- The value, or the failure of making a record of that name. -/
def built (record : String) : Reading α → Except Failure α
  | accepted a => .ok a
  | refused issues => .error (.rejected record issues)
  | abandoned failure => .error failure

/-- The value, or the failure of reading a payload as a record of that name. -/
def parsed (record : String) : Reading α → Except Failure α
  | accepted a => .ok a
  | refused issues => .error (.invalidPayload record issues)
  | abandoned failure => .error failure

/-! ## Fields -/

/-- The readings of the items of a list that starts at a position. -/
def itemsFrom (read : Reader α) (position : Nat) : List Payload → Reading (List α)
  | [] => accepted []
  | item :: rest =>
      List.cons <$> (read item).within (toString position) <*> itemsFrom read (position + 1) rest

/-- Reads a list. -/
def listOf (read : Reader α) : Reader (List α)
  | .list items => itemsFrom read 0 items
  | _ => fault .listType

/-- The readings of the fields of an object. -/
def entries (read : Reader α) : List (String × Payload) → Reading (Dictionary α)
  | [] => accepted []
  | (name, value) :: rest =>
      (fun a rest => (name, a) :: rest) <$> (read value).within name <*> entries read rest

/-- Reads an object whose names are free. -/
def dictionaryOf (read : Reader α) : Reader (Dictionary α)
  | .object fields => entries read fields
  | _ => fault .objectType

/-- Reads a value that may be missing. -/
def orNull (read : Reader α) : Reader (Option α)
  | .null => accepted none
  | payload => some <$> read payload

/-- Reads a field that must be there. -/
def required (name : String) (read : Reader α) : Option Payload → Reading α
  | some payload => (read payload).within name
  | none => (fault .missing).within name

/-- Reads a field that has a usual value. -/
def orUsual (name : String) (read : Reader α) (usual : α) : Option Payload → Reading α
  | some payload => (read payload).within name
  | none => accepted usual

/-- Reads a field that may be missing or hold no value. -/
def optional (name : String) (read : Reader α) : Option Payload → Reading (Option α) :=
  orUsual name (orNull read) none

/-- The words of a name in small letters, joined by underscores. -/
def underscored (name : String) : String :=
  String.ofList <| name.toList.flatMap fun c => if c.isUpper then ['_', c.toLower] else [c]

/-- The field of a name, or the one with the same words joined by underscores. -/
def fieldOf? (fields : List (String × Payload)) (name : String) : Option Payload :=
  (fields.lookup name).or (fields.lookup (underscored name))

/-- Reads a record from the fields of an object. -/
def record (name : String) (read : (String → Option Payload) → Reading α) : Reader α
  | .object fields => read (fieldOf? fields)
  | _ => fault (.recordType name)

end Reading

/-- A schema: what its records are called in messages, how they are read and how they are written. -/
structure Schema (α : Type) where
  title : String
  read : Reader α
  toPayload : α → Payload

namespace Schema

/-- The record that a payload describes. -/
def parse {α : Type} (schema : Schema α) (payload : Payload) : Except Failure α :=
  Reading.parsed schema.title (schema.read payload)

end Schema
end Appraisal
