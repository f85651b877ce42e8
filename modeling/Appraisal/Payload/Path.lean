import Appraisal.Dictionary
import Appraisal.Payload.Basic

/-!
# Places within payloads

A path leads from a payload through named fields and list positions to a part of it.  A part can be
replaced or removed; a path that leads nowhere changes nothing.  Only the last step may name a field that
is not there yet.
-/

namespace Appraisal
namespace Payload

/-- A step from a payload to a part of it. -/
inductive Step where
  | field (name : String)
  | item (position : Nat)
  deriving DecidableEq, Repr

/-- The payload with another part at the end of a step. -/
def setStep (payload : Payload) (step : Step) (part : Payload) : Payload :=
  match payload, step with
  | object fields, .field name => object (Dictionary.put fields name part)
  | list items, .item position => list (items.set position part)
  | payload, _ => payload

/-- The payload without the part at the end of a step. -/
def removeStep (payload : Payload) (step : Step) : Payload :=
  match payload, step with
  | object fields, .field name => object (fields.filter fun entry => entry.1 ≠ name)
  | list items, .item position => list (items.eraseIdx position)
  | payload, _ => payload

/-- The part at the end of a step. -/
def part? (payload : Payload) (step : Step) : Option Payload :=
  match payload, step with
  | object fields, .field name => fields.lookup name
  | list items, .item position => items[position]?
  | _, _ => none

/-- The payload with the part at the end of a path replaced by another. -/
def setAt (payload : Payload) (path : List Step) (part : Payload) : Payload :=
  match path with
  | [] => part
  | [step] => payload.setStep step part
  | step :: rest =>
      match payload.part? step with
      | some inner => payload.setStep step (inner.setAt rest part)
      | none => payload

/-- The payload without the part at the end of a path. -/
def removeAt (payload : Payload) (path : List Step) : Payload :=
  match path with
  | [] => payload
  | [step] => payload.removeStep step
  | step :: rest =>
      match payload.part? step with
      | some inner => payload.setStep step (inner.removeAt rest)
      | none => payload

end Payload
end Appraisal
