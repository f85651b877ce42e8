import Appraisal.Logging.Layout
import Appraisal.Logging.Placeholder

/-!
# Event templates

The placeholders in the words of an event are filled with values in order or by name.  Values by name
come as one object; beside the values under its names it is a value itself, which a placeholder without a
name takes.  A placeholder with a name takes the value of that name alone, and values in order must all be
taken.
-/

namespace Appraisal
namespace Template

/-! ## Values -/

/-- The values for a template. -/
structure Values where
  source : Option Payload
  waiting : List Payload

namespace Values

/-- The values that are given for an event: a single object that is not empty gives them by name. -/
def ofArguments : List Payload → Values
  | [.object (entry :: rest)] => ⟨some (.object (entry :: rest)), [.object (entry :: rest)]⟩
  | values => ⟨none, values⟩

/-- The values that one payload gives in the place of all others. -/
def ofPayload : Payload → Except Failure Values
  | .list [.object (entry :: rest)] => .ok (ofArguments [.object (entry :: rest)])
  | .list items => .ok ⟨some (.list items), [.list items]⟩
  | .object [_] => .error (.raised "KeyError" "0")
  | .object fields => .ok ⟨some (.object fields), [.object fields]⟩
  | .text value => .ok ⟨none, [.text value]⟩
  | other => .error (.wrongKind ("object of type '" ++ other.kindName ++ "' has no len()"))

/-- The next value, and the values that are left. -/
def next (values : Values) : Except Failure (Payload × Values) :=
  match values.waiting with
  | value :: rest => .ok (value, { values with waiting := rest })
  | [] => .error (.wrongKind "not enough arguments for format string")

/-- The values for a placeholder with a label. -/
def select (values : Values) (label : Label) : Except Failure Values :=
  match label, values.source with
  | .none, _ => .ok values
  | _, none => .error (.wrongKind "format requires a mapping")
  | .unclosed, some _ => .error (.wrongValue "incomplete format key")
  | .name name, some (.object fields) =>
      match fields.lookup name with
      | some value => .ok { values with waiting := [value] }
      | none => .error (.missingKey name)
  | .name _, some _ => .error (.wrongKind "list indices must be integers or slices, not str")

/-- Refuses values in order that are left over. -/
def finish (values : Values) : Except Failure (List Char) :=
  if values.source.isNone && !values.waiting.isEmpty then
    .error (.wrongKind "not all arguments converted during string formatting")
  else .ok []

end Values

/-! ## Widths and precisions -/

/-- What bounds a width or a precision. -/
structure Bound where
  limit : Nat
  tooBig : String
  tooLarge : String

/-- The bound of widths. -/
def widthBound : Bound :=
  ⟨twoTo 63, "width too big", "Python int too large to convert to C ssize_t"⟩

/-- The bound of precisions. -/
def precisionBound : Bound :=
  ⟨twoTo 31, "precision too big", "Python int too large to convert to C int"⟩

/-- An integer that is given as a value. -/
def Bound.ofValue (bound : Bound) : Payload → Except Failure Int
  | .int n =>
      if -(bound.limit : Int) ≤ n ∧ n < bound.limit then .ok n
      else .error (.outOfRange bound.tooLarge)
  | .bool value => .ok value.toInt
  | _ => .error (.wrongKind "* wants int")

/-- The number of a width or a precision, if there is one, and the values that are left. -/
def Bound.read (bound : Bound) (values : Values) :
    Option Extent → Except Failure (Option Int × Values)
  | none => .ok (none, values)
  | some (.given n) =>
      if n < bound.limit then .ok (some n, values) else .error (.wrongValue bound.tooBig)
  | some .fromValue => do
      let (value, values) ← values.next
      return (some (← bound.ofValue value), values)

/-! ## Filling a template -/

/-- The text in the place of a placeholder, and the values that are left; the size is that of the
template. -/
def Placeholder.fill (size : Nat) (placeholder : Placeholder) (values : Values) :
    Except Failure (List Char × Values) := do
  let values ← values.select placeholder.label
  let (width, values) ← widthBound.read values placeholder.width
  let (precision, values) ← precisionBound.read values placeholder.precision
  match placeholder.letter with
  | none => throw (.wrongValue "incomplete format")
  | some (letter, after) =>
      let (value, values) ← values.next
      let layout := Layout.ofFlags placeholder.flags (width.getD 0) (precision.map Int.toNat)
      return (← layout.show letter (size - after - 1) value, values)

/-- The text of some pieces with values in the places of placeholders. -/
def fillPieces (size : Nat) (values : Values) : List Piece → Except Failure (List Char)
  | [] => values.finish
  | .plain c :: rest => do return c :: (← fillPieces size values rest)
  | .placeholder placeholder :: rest => do
      let (shown, values) ← placeholder.fill size values
      return shown ++ (← fillPieces size values rest)

/-- A template with values in the places of placeholders. -/
def fill (template : String) (values : Values) : Except Failure String := do
  let cs := template.toList
  return String.ofList (← fillPieces cs.length values (pieces cs))

end Template
end Appraisal
