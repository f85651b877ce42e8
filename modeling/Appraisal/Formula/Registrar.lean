import Appraisal.Formula.Compute
import Appraisal.Formula.Dependency

/-!
# Registration of formulas

A registry accepts whole batches of formulas.  A registrar keeps one, with the order of execution once it has been
worked out.
-/

namespace Appraisal

/-!
## The registry of formulas

A registry holds formulas in the order of their registration and the functions for custom operations.  A
batch of formulas is accepted as a whole: no identifier twice, no unknown dependency, no unknown function
and no circle.  A refused batch leaves the registry as it was.

The formulas run in an order in which every formula comes after its dependencies; among those that are
ready, the one registered first runs first.
-/

/-- Formulas and functions that have been accepted. -/
structure Registry where
  formulas : List Formula
  functions : Dictionary CustomFunction

namespace Registry

/-- A registry without formulas and functions. -/
def empty : Registry :=
  { formulas := [], functions := [] }

/-- The identifiers of the formulas, in the order of their registration. -/
def ids (registry : Registry) : List String :=
  registry.formulas.map Formula.id

/-! ### Registration -/

/-- Registers a function under a name. -/
def registerFunction (registry : Registry) (name : String) (function : CustomFunction) :
    Except RegistrationError Registry :=
  if registry.functions.has name then
    .error (.duplicateFunction name)
  else
    .ok { registry with functions := registry.functions ++ [(name, function)] }

/-- The first identifier of a batch that is taken, by an earlier formula or within the batch. -/
def firstDuplicate? (taken : List String) : List Formula → Option String
  | [] => none
  | formula :: rest =>
      if formula.id ∈ taken then some formula.id else firstDuplicate? (formula.id :: taken) rest

/-- The first thing that a formula needs and that is not there. -/
def missingPart? (known functions : List String) (formula : Formula) : Option RegistrationError :=
  match formula.dependencies.find? fun dependency => dependency ∉ known with
  | some dependency => some (.unknownDependency formula.id dependency)
  | none =>
      if formula.operation = .custom ∧ formula.functionName ∉ functions then
        some (.unknownFunction formula.id formula.functionName)
      else none

/-- The error for which a batch is refused, if there is one. -/
def registrationError? (registry : Registry) (batch : List Formula) : Option RegistrationError :=
  let formulas := registry.formulas ++ batch
  match firstDuplicate? registry.ids batch with
  | some id => some (.duplicateFormula id)
  | none =>
      match batch.findSome? (missingPart? (formulas.map Formula.id) registry.functions.keys) with
      | some error => some error
      | none => (Formula.findCycle? formulas).map .cycle

/-- Registers a batch of formulas. -/
def register (registry : Registry) (batch : List Formula) : Except RegistrationError Registry :=
  match registry.registrationError? batch with
  | some error => .error error
  | none => .ok { registry with formulas := registry.formulas ++ batch }

/-! ### Looking formulas up -/

/-- The formula of an identifier. -/
def get (registry : Registry) (id : String) : Except Failure Formula :=
  match Formula.find? registry.formulas id with
  | some formula => .ok formula
  | none => .error (.formulaNotFound id)

/-- Whether a formula has the identifier. -/
def contains (registry : Registry) (id : String) : Bool :=
  registry.formulas.any fun formula => formula.id == id

/-- The formulas of a group. -/
def byCategory (registry : Registry) (category : Option String) : List Formula :=
  registry.formulas.filter fun formula => formula.category == category

/-! ### The order of execution -/

/-- The formulas in the order of execution. -/
def executionOrder (registry : Registry) : List Formula :=
  Agenda.order registry.formulas

/-- The identifiers of the formulas in the order of execution; none if some formulas never become ready. -/
def order? (registry : Registry) : Option (List String) :=
  let order := registry.executionOrder
  if order.length = registry.formulas.length then some (order.map Formula.id) else none

end Registry

/-!
## Registrars

A registrar keeps a registry and answers requests one after another: to register a function, to register a
batch of formulas, and to name the formulas in the order of execution.  The order that it has worked out is
remembered and named again until a batch has been accepted.
-/

/-- A registry with the order of execution that was worked out last. -/
structure Registrar where
  registry : Registry
  /-- The order of execution, if it has been worked out since the last batch was accepted. -/
  remembered : Option (List String)

namespace Registrar

/-- What a registrar can be asked for. -/
inductive Request where
  | registerFunction (name : String) (function : CustomFunction)
  | register (batch : List Formula)
  | executionOrder

/-- What a registrar answers. -/
inductive Answer where
  | accepted
  | refused (error : RegistrationError)
  | order (ids : List String)
  /-- The formulas cannot be put in order, because some of them never become ready. -/
  | noOrder
  deriving DecidableEq, Repr

/-- A registrar to which no request has been made. -/
def opened : Registrar :=
  { registry := .empty, remembered := none }

/-- Registers a function under a name. -/
def registerFunction (registrar : Registrar) (name : String) (function : CustomFunction) :
    Answer × Registrar :=
  match registrar.registry.registerFunction name function with
  | .ok registry => (.accepted, { registrar with registry })
  | .error error => (.refused error, registrar)

/-- Registers a batch of formulas.  The order that was remembered stands no longer. -/
def register (registrar : Registrar) (batch : List Formula) : Answer × Registrar :=
  match registrar.registry.register batch with
  | .ok registry => (.accepted, { registry, remembered := none })
  | .error error => (.refused error, registrar)

/-- Names the order of execution, which is worked out only if none is remembered. -/
def executionOrder (registrar : Registrar) : Answer × Registrar :=
  match registrar.remembered with
  | some ids => (.order ids, registrar)
  | none =>
      match registrar.registry.order? with
      | some ids => (.order ids, { registrar with remembered := some ids })
      | none => (.noOrder, registrar)

/-- Answers a request. -/
def serve (registrar : Registrar) : Request → Answer × Registrar
  | .registerFunction name function => registrar.registerFunction name function
  | .register batch => registrar.register batch
  | .executionOrder => registrar.executionOrder

/-- The registrar when some requests have been made to it, one after another. -/
def after (requests : List Request) : Registrar :=
  requests.foldl (fun registrar request => (registrar.serve request).2) opened

end Registrar

end Appraisal
