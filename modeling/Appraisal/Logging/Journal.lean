import Appraisal.Configuration
import Appraisal.Dictionary
import Appraisal.Logging.Template
import Appraisal.Payload.Basic

/-!
# The journal of events

Events are written down with the model that is being worked on, as long as they are important enough.
-/

namespace Appraisal

/-!
## The model that is being worked on

While a model is assembled, its identifier is bound, and every log event carries it.  Bindings are nested;
leaving one restores the one before.
-/

/-- The bound identifiers, the innermost first. -/
structure LogContext where
  bound : List String
  deriving DecidableEq, Repr

namespace LogContext

/-- Nothing is bound. -/
def unbound : LogContext := ⟨[]⟩

/-- The identifier that is bound now, empty when there is none. -/
def current (context : LogContext) : String :=
  context.bound.headD ""

/-- Binds an identifier. -/
def bind (context : LogContext) (id : String) : LogContext :=
  ⟨id :: context.bound⟩

/-- Leaves the innermost binding. -/
def leave (context : LogContext) : LogContext :=
  ⟨context.bound.tail⟩

/-- The event with the bound identifier, unless there is none or the event names a model itself. -/
def annotate (context : LogContext) (event : Dictionary Payload) : Dictionary Payload :=
  if context.current = "" then event else event.putNew "model_id" (.text context.current)

end LogContext

/-!
## Log events

Events of at least the configured level are logged as objects: the words of the event, whatever is known
about it, the name of the logger, the level and the time.  A configured level that is not known counts as
the level for information.
-/

/-- How important an event is. -/
inductive LogLevel where
  | debug
  | info
  | warning
  | error
  | critical
  deriving DecidableEq, Repr

namespace LogLevel

instance : Named LogLevel where
  title := "LogLevel"
  all := [debug, info, warning, error, critical]
  name
    | debug => "debug"
    | info => "info"
    | warning => "warning"
    | error => "error"
    | critical => "critical"

/-- The level that a word asks for; some levels have a further word. -/
def ofWord? : String → Option LogLevel
  | "warn" => some warning
  | "fatal" => some critical
  | "exception" => some error
  | word => Named.ofName? word

/-- The rank of a level. -/
def rank : LogLevel → Nat
  | debug => 10
  | info => 20
  | warning => 30
  | error => 40
  | critical => 50

/-- The names of least ranks, in capitals. -/
def leastRanks : List (String × Nat) :=
  [("NOTSET", 0), ("DEBUG", 10), ("INFO", 20), ("WARN", 30), ("WARNING", 30), ("ERROR", 40),
    ("FATAL", 50), ("CRITICAL", 50)]

/-- The capitals of the small letters beyond the plain ones whose capitals are plain letters. -/
def plainCapitals : List (Char × String) :=
  [('\u00df', "SS"), ('\u0131', "I"), ('\u017f', "S"), ('\ufb00', "FF"), ('\ufb01', "FI"),
    ('\ufb02', "FL"), ('\ufb03', "FFI"), ('\ufb04', "FFL"), ('\ufb05', "ST"), ('\ufb06', "ST")]

/-- A configured level in capitals; letters without plain capitals occur in no name of a level. -/
def inCapitals (configured : String) : String :=
  String.ofList <| configured.toList.flatMap fun c =>
    match plainCapitals.lookup c with
    | some capitals => capitals.toList
    | none => [c.toUpper]

/-- What is said of a configured level that names the usual layout of a line. -/
def layoutAsLevel : String := "Unknown level: '%(levelname)s:%(name)s:%(message)s'"

/-- What is said of a configured level that names the table of layouts. -/
def layoutsAsLevel : String :=
  "Level not an integer or a valid string: \x7b" ++
    "'%': (<class 'logging.PercentStyle'>, '%(levelname)s:%(name)s:%(message)s'), " ++
    "'\x7b': (<class 'logging.StrFormatStyle'>, " ++
    "'\x7blevelname\x7d:\x7bname\x7d:\x7bmessage\x7d'), " ++
    "'$': (<class 'logging.StringTemplateStyle'>, " ++
    "'$\x7blevelname\x7d:$\x7bname\x7d:$\x7bmessage\x7d')\x7d"

/-- The least rank of events that a configured level lets pass.

A name that is not known stands for information, but two names stand for something else. -/
def leastRank (configured : String) : Except Failure Nat :=
  match inCapitals configured with
  | "BASIC_FORMAT" => .error (.wrongValue layoutAsLevel)
  | "_STYLES" => .error (.wrongKind layoutsAsLevel)
  | name => .ok ((leastRanks.lookup name).getD info.rank)

end LogLevel

/-- An event to be logged. -/
structure LogEvent where
  level : LogLevel
  words : String
  arguments : List Payload
  details : Dictionary Payload

namespace Journal

/-- The details that are dropped: what is logged holds no traces of the program. -/
def dropped : List String := ["stack_info", "exc_info"]

mutual

/-- The payload with decimal numbers as their literals, because an object of the log cannot hold them. -/
def storable : Payload → Payload
  | .decimal x => .text (Payload.decimal x).literal
  | .list items => .list (storableItems items)
  | .object fields => .object (storableFields fields)
  | other => other

/-- The items of a list in the log. -/
def storableItems : List Payload → List Payload
  | [] => []
  | item :: rest => storable item :: storableItems rest

/-- The fields of an object in the log. -/
def storableFields : List (String × Payload) → List (String × Payload)
  | [] => []
  | (name, value) :: rest => (name, storable value) :: storableFields rest

end

/-- The detail that gives the values for the placeholders when an event has none. -/
def valuesName : String := "positional_args"

/-- Whether a detail of an event is logged. -/
def isKept (event : LogEvent) (detail : String × Payload) : Bool :=
  if detail.1 = valuesName then
    match event.arguments, detail.2 with
    | [], .null => true
    | _, _ => false
  else decide (detail.1 ∉ dropped)

/-- The words of an event with values in the places of placeholders; without values they stay as they
are. -/
def words (event : LogEvent) : Except Failure String :=
  match event.arguments with
  | [] =>
      match event.details.get? valuesName with
      | some given =>
          if given.isVacant then return event.words
          else do Template.fill event.words (← Template.Values.ofPayload given)
      | none => return event.words
  | arguments => Template.fill event.words (.ofArguments arguments)

/-- Refuses details under names that the parts of an event have, and the one that stands for the record
of another journal. -/
def checkNames (event : LogEvent) : Except Failure Unit :=
  match event.details.keys.find? fun name => name = "event" ∨ name = "self" with
  | some name =>
      .error (.wrongKind ("BoundLogger." ++ Named.name event.level ++
        "() got multiple values for argument '" ++ name ++ "'"))
  | none =>
      if event.details.has "method_name" then
        .error (.wrongKind ("BoundLogger._proxy_to_logger() got multiple values for argument " ++
          "'method_name'"))
      else .ok ()

/-- The name of the journal, unless a detail stands for the record of another one. -/
def checkedName (name : String) (event : LogEvent) : Except Failure String :=
  match event.details.get? "_record" with
  | none | some .null => .ok name
  | some record =>
      .error (.raised "AttributeError"
        ("'" ++ record.kindName ++ "' object has no attribute 'name'"))

/-- The object that is logged for an event. -/
def line (name now : String) (context : LogContext) (event : LogEvent) :
    Except Failure Payload := do
  let logger ← checkedName name event
  let words ← words event
  let details := event.details.filter (isKept event)
  let known := Dictionary.put details "event" (.text words)
  let entries := Dictionary.putAll (context.annotate known)
    [("logger", .text logger), ("level", Named.toPayload event.level), ("timestamp", .text now)]
  return storable (.object entries)

/-- The object that is logged for an event, if its rank is high enough. -/
def line? (least : Nat) (name now : String) (context : LogContext) (event : LogEvent) :
    Except Failure (Option Payload) := do
  checkNames event
  if least ≤ event.level.rank then some <$> line name now context event else return none

/-- The objects that are logged for some events, each with what is bound at its time. -/
def lines (settings : Settings) (name now : String) (events : List (LogContext × LogEvent)) :
    Except Failure (List Payload) := do
  let least ← LogLevel.leastRank settings.logLevel
  let logged ← events.mapM fun (context, event) => line? least name now context event
  return logged.filterMap id

end Journal

end Appraisal
