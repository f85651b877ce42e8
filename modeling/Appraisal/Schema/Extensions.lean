import Appraisal.Decimal.Arithmetic
import Appraisal.Payload.Basic
import Appraisal.Schema.Reading

/-!
# Further inputs

A record with fixed inputs takes further ones under names of their own.  They stand in a field of their
own, or beside the fixed inputs under names that are not known.  The field is an object or a list of
pairs of a name and a value; whatever stands for nothing counts as empty.  An input beside the fixed ones
replaces one of the same name in the field.
-/

namespace Appraisal
namespace Extensions

/-- Inputs by name, where the name has not been checked. -/
abbrev Entries := List (Payload × Payload)

/-! ## Names -/

/-- Whether two names are one: equal texts, or numbers of equal value. -/
def sameName : Payload → Payload → Bool
  | .text first, .text second => first == second
  | .null, .null => true
  | first, second =>
      match first.decimalValue?, second.decimalValue? with
      | some x, some y => x.compare? y == some .eq
      | _, _ => false

/-- Stores an input under a name. -/
def put (entries : Entries) (name value : Payload) : Entries :=
  match entries with
  | [] => [(name, value)]
  | entry :: rest =>
      if sameName entry.1 name then (entry.1, value) :: rest else entry :: put rest name value

/-- Refuses a name that cannot be looked up. -/
def checkName : Payload → Reading Unit
  | .list _ => .abandoned (.wrongKind "unhashable type: 'list'")
  | .object _ => .abandoned (.wrongKind "unhashable type: 'dict'")
  | .decimal (.nan _ true _) => .abandoned (.wrongKind "Cannot hash a signaling NaN value")
  | _ => .accepted ()

/-- The step of a path for a name. -/
def step : Payload → String
  | .text name => name
  | .bool value => toString value.toInt
  | name => name.literal

/-! ## Pairs -/

/-- The members of a payload that can be taken apart. -/
def members? : Payload → Option (List Payload)
  | .list items => some items
  | .object fields => some (fields.map fun field => .text field.1)
  | .text text => some (text.toList.map fun c => .text (String.singleton c))
  | _ => none

/-- The name and the value of the pair at a position of a list. -/
def pairAt (position : Nat) (item : Payload) : Reading (Payload × Payload) :=
  match members? item with
  | some [name, value] => (checkName name).andThen fun _ => .accepted (name, value)
  | some members =>
      .fault (.rule ("dictionary update sequence element #" ++ toString position ++
        " has length " ++ toString members.length ++ "; 2 is required"))
  | none =>
      .abandoned (.wrongKind ("cannot convert dictionary update sequence element #" ++
        toString position ++ " to a sequence"))

/-- Stores the pairs of a list that starts at a position; the first faulty one ends the reading. -/
def putPairs (entries : Entries) (position : Nat) : List Payload → Reading Entries
  | [] => .accepted entries
  | item :: rest =>
      (pairAt position item).andThen fun pair =>
        putPairs (put entries pair.1 pair.2) (position + 1) rest

/-- The inputs that a field holds. -/
def ofField (field : Payload) : Reading Entries :=
  if field.isVacant then .accepted []
  else
    match field with
    | .object fields => .accepted (fields.map fun entry => (.text entry.1, entry.2))
    | field =>
        match members? field with
        | some items => putPairs [] 0 items
        | none =>
            .abandoned (.wrongKind ("'" ++ field.kindName ++ "' object is not iterable"))

/-- All further inputs of an object, whose fixed inputs have certain names. -/
def collect (known : List String) (fields : List (String × Payload)) : Reading Entries :=
  (ofField ((fields.lookup "extensions").getD .null)).andThen fun entries =>
    .accepted <| (fields.filter fun field => field.1 ∉ known).foldl
      (fun entries field => put entries (.text field.1) field.2) entries

/-- Reads the name of an input. -/
def readName : Reader String
  | .text name => .accepted name
  | _ => .fault .textType

/-- Reads the inputs with their names. -/
def read {α : Type} (readValue : Reader α) : Entries → Reading (Dictionary α)
  | [] => .accepted []
  | (name, value) :: rest =>
      (fun name a rest => (name, a) :: rest)
        <$> ((readName name).within "[key]").within (step name)
        <*> (readValue value).within (step name)
        <*> read readValue rest

/-- The names of fixed inputs in both spellings. -/
def spellings (names : List String) : List String :=
  names.flatMap fun name => [name, Reading.underscored name]

/-- Reads a record of fixed inputs with further ones. -/
def record {α β : Type} (title : String) (names : List String) (readValue : Reader α)
    (ofFields : Reading (Dictionary α) → (String → Option Payload) → Reading β) : Reader β
  | .object fields =>
      (collect ("extensions" :: spellings names) fields).andThen fun entries =>
        ofFields ((read readValue entries).within "extensions") (Reading.fieldOf? fields)
  | _ => .fault (.recordType title)

end Extensions
end Appraisal
