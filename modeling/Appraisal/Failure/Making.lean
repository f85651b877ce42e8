import Appraisal.Failure.Basic

/-!
# Errors made by hand

An error can be made of arguments in order and by name.  A kind of error takes the arguments of its own
signature, makes the message and the details of them, and hands these on to the next wider kind together
with the named arguments that it does not take itself.  The widest kind takes a message, details and a
code and nothing else.
-/

namespace Appraisal

/-! ## Arguments -/

/-- Arguments in order and by name. -/
structure Arguments where
  inOrder : List Payload
  byName : Dictionary Payload

/-- The arguments that something takes. -/
structure Signature where
  title : String
  required : List String
  optional : List String
  takesOthers : Bool

/-- The arguments that were taken and the other named ones. -/
structure Taken where
  own : Dictionary Payload
  others : Dictionary Payload

namespace Signature

/-- The names of all arguments. -/
def names (signature : Signature) : List String :=
  signature.required ++ signature.optional

/-- Refuses arguments for a reason. -/
def refuse {α : Type} (signature : Signature) (reason : String) : Except Failure α :=
  .error (.wrongKind (signature.title ++ ".__init__() " ++ reason))

/-- Takes one more argument by its name. -/
def takeNamed (signature : Signature) (taken : Taken) (argument : String × Payload) :
    Except Failure Taken :=
  if argument.1 = "self" ∨ taken.own.has argument.1 then
    signature.refuse ("got multiple values for argument '" ++ argument.1 ++ "'")
  else if argument.1 ∈ signature.names then
    .ok { taken with own := taken.own ++ [argument] }
  else if signature.takesOthers then
    .ok { taken with others := taken.others ++ [argument] }
  else signature.refuse ("got an unexpected keyword argument '" ++ argument.1 ++ "'")

/-- The number of arguments that are taken in order, where the error itself is one of them. -/
def countText (signature : Signature) : String :=
  let least := signature.required.length + 1
  let most := signature.names.length + 1
  if signature.optional = [] then toString most
  else "from " ++ toString least ++ " to " ++ toString most

/-- Names in quotes, with a word before the last one. -/
def listing : List String → String
  | [] => ""
  | [name] => "'" ++ name ++ "'"
  | [first, second] => "'" ++ first ++ "' and '" ++ second ++ "'"
  | name :: rest => "'" ++ name ++ "', " ++ listing rest

/-- Refuses arguments in order that are too many, and required ones that are missing. -/
def checkCount (signature : Signature) (count : Nat) (taken : Taken) : Except Failure Unit :=
  let missing := signature.required.filter fun name => !taken.own.has name
  if signature.names.length < count then
    signature.refuse ("takes " ++ signature.countText ++ " positional arguments but " ++
      toString (count + 1) ++ " were given")
  else if missing ≠ [] then
    signature.refuse ("missing " ++ toString missing.length ++ " required positional argument" ++
      (if missing.length = 1 then "" else "s") ++ ": " ++ listing missing)
  else .ok ()

/-- Takes arguments: those in order first, then those by name. -/
def take (signature : Signature) (arguments : Arguments) : Except Failure Taken := do
  let first : Taken := ⟨signature.names.zip arguments.inOrder, []⟩
  let taken ← arguments.byName.foldlM signature.takeNamed first
  signature.checkCount arguments.inOrder.length taken
  return taken

end Signature

/-! ## Kinds of errors -/

namespace ErrorKind

/-- The arguments that a kind of error takes. -/
def signature (kind : ErrorKind) : Signature :=
  match kind with
  | general => ⟨kind.title, [], ["message", "details", "error_code"], false⟩
  | registration | invalidSource | conversion => ⟨kind.title, [], ["message"], true⟩
  | duplicateFormula | formulaNotFound => ⟨kind.title, ["formula_id"], [], true⟩
  | unknownDependency => ⟨kind.title, ["formula_id", "dependency"], [], true⟩
  | cycle => ⟨kind.title, ["chain"], [], true⟩
  | duplicateFunction => ⟨kind.title, ["name"], [], true⟩
  | unknownFunction => ⟨kind.title, ["formula_id", "name"], [], true⟩
  | invalidPayload => ⟨kind.title, [], ["message", "errors"], true⟩

end ErrorKind

namespace Report

/-- The texts in a list from a position on. -/
def textsFrom (position : Nat) : List Payload → Except Failure (List String)
  | [] => .ok []
  | .text text :: rest => do return text :: (← textsFrom (position + 1) rest)
  | item :: _ =>
      .error (.wrongKind ("sequence item " ++ toString position ++ ": expected str instance, " ++
        item.kindName ++ " found"))

/-- The names in a chain of formulas. -/
def chainOf : Payload → Except Failure (List String)
  | .list items => textsFrom 0 items
  | .text text => .ok (text.toList.map String.singleton)
  | .object fields => .ok (fields.map Prod.fst)
  | _ => .error (.wrongKind "can only join an iterable")

/-- Details with the errors of a payload among them. -/
def withErrors (errors : Payload) : Payload → Except Failure Payload
  | .object fields =>
      .ok (.object (Dictionary.put fields "errors" (if errors.isVacant then .list [] else errors)))
  | .list _ => .error (.wrongKind "list indices must be integers or slices, not str")
  | details =>
      .error (.wrongKind ("'" ++ details.kindName ++ "' object does not support item assignment"))

/-- The message of a kind of error, its details if it makes them, and the named arguments that are
left. -/
def parts (kind : ErrorKind) (taken : Taken) :
    Except Failure (Payload × Option Payload × Dictionary Payload) :=
  let own (name : String) : Payload := (taken.own.get? name).getD .null
  let given := (taken.own.get? "message").getD (.text kind.defaultMessage)
  let ofReport (report : Report) := (report.message, some report.details, taken.others)
  match kind with
  | .general | .registration | .invalidSource | .conversion => .ok (given, none, taken.others)
  | .duplicateFormula => .ok (ofReport (duplicateFormula (own "formula_id")))
  | .formulaNotFound => .ok (ofReport (formulaNotFound (own "formula_id")))
  | .unknownDependency =>
      .ok (ofReport (unknownDependency (own "formula_id") (own "dependency")))
  | .cycle => do return ofReport (cycle (← chainOf (own "chain")))
  | .duplicateFunction => .ok (ofReport (duplicateFunction (own "name")))
  | .unknownFunction => .ok (ofReport (unknownFunction (own "formula_id") (own "name")))
  | .invalidPayload => do
      let details ← withErrors (own "errors") ((taken.others.get? "details").getD (.object []))
      return (given, some details, taken.others.filter fun argument => argument.1 ≠ "details")

/-- The arguments that a kind of error hands on to a wider one. -/
def handOn (kind wider : ErrorKind) (arguments : Arguments) : Except Failure Arguments := do
  let taken ← kind.signature.take arguments
  let (message, details, others) ← parts kind taken
  match details with
  | none => return ⟨[message], others⟩
  | some details =>
      if others.has "details" then
        throw (.wrongKind ("parsenfill.exceptions." ++ wider.title ++
          ".__init__() got multiple values for keyword argument 'details'"))
      return ⟨[message], ("details", details) :: others⟩

/-- The arguments that reach the last of some kinds of errors, each wider than the one before. -/
def handUp : List ErrorKind → Arguments → Except Failure Arguments
  | kind :: wider :: rest, arguments => do
      handUp (wider :: rest) (← handOn kind wider arguments)
  | _, arguments => .ok arguments

/-- The error of a kind that is made of some arguments; details and a code that stand for nothing are the
usual ones. -/
def ofArguments (kind : ErrorKind) (arguments : Arguments) : Except Failure Report := do
  let taken ← ErrorKind.general.signature.take (← handUp kind.lineage arguments)
  let own (name : String) : Payload := (taken.own.get? name).getD .null
  return {
    kind
    message := (taken.own.get? "message").getD (.text kind.defaultMessage)
    details := if (own "details").isVacant then .object [] else own "details"
    code := if (own "error_code").isVacant then .text kind.code else own "error_code" }

end Report
end Appraisal
