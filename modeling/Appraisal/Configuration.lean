import Appraisal.Binary64.Text
import Appraisal.Formula.DirectCap
import Appraisal.Schema.Leaf

/-!
# Configuration

What can be configured, and how it is read from the variables of the environment.
-/

namespace Appraisal

/-!
## Settings

What can be configured: how results are shown, which rates stand in for missing ones, below which
confidence an entry is escalated, and what is logged.
-/

/-- The configuration of a run. -/
structure Settings where
  logLevel : String
  logJson : Bool
  modelVersion : String
  defaultCurrency : String
  currencyPrecision : Nat
  percentagePrecision : Nat
  /-- The vacancy rate that stands in for a missing one, as a share. -/
  defaultVacancyRate : Decimal
  /-- The vacancy rate that stands in for a missing one, as a percentage. -/
  defaultVacancyRatePercent : Decimal
  defaultStreamName : String
  reviewConfidenceThreshold : Binary64
  deriving DecidableEq, Repr

namespace Settings

/-- The configuration when nothing is set. -/
def usual : Settings :=
  { logLevel := "INFO"
    logJson := true
    modelVersion := "1.0.0"
    defaultCurrency := "USD"
    currencyPrecision := 2
    percentagePrecision := 2
    defaultVacancyRate := DirectCap.defaultVacancyRate
    defaultVacancyRatePercent := .ofInt 5
    defaultStreamName := "Imported Revenue"
    reviewConfidenceThreshold := .ofScientific false 7 (-1) }

/-!
## The environment

Settings are given by name, or else taken from variables of the environment, whose names start with
`PNF_`; both kinds of names may be written in any case.  A given name that is no setting is refused; a
variable that is no setting is ignored.  The settings of the environment alone are read once and kept until they are cleared.
-/

/-- The name of the record in messages. -/
def title : String := "Settings"

/-- The names of all settings. -/
def names : List String :=
  ["log_level", "log_json", "model_version", "default_currency", "currency_precision",
    "percentage_precision", "default_vacancy_rate", "default_vacancy_rate_percent",
    "default_stream_name", "review_confidence_threshold"]

/-- What the names of variables start with, in small letters. -/
def variableStart : String := "pnf_"

/-- The values of variables by their names in small letters; of two spellings the later one counts. -/
def variablesByName (environment : Dictionary String) : Dictionary String :=
  .ofPairs (environment.map fun entry => (Schema.plainLower entry.1, entry.2))

/-- The value that is given for a setting; of several spellings of its name the first one counts. -/
def given? (given : Dictionary Payload) (name : String) : Option Payload :=
  (given.find? fun entry => Schema.plainLower entry.1 == name).map Prod.snd

/-- The value of a setting, given by name or by a variable. -/
def value? (given : Dictionary Payload) (environment : Dictionary String) (name : String) :
    Option Payload :=
  (given? given name).or (((variablesByName environment).get? (variableStart ++ name)).map .text)

/-- The settings of their values. -/
def ofValues (value : String → Option Payload) : Reading Settings :=
  let setting {α : Type} (name : String) (read : Reader α) (ordinary : α) : Reading α :=
    Reading.orUsual name read ordinary (value name)
  mk <$> setting "log_level" Schema.text usual.logLevel
    <*> setting "log_json" Schema.truth usual.logJson
    <*> setting "model_version" Schema.text usual.modelVersion
    <*> setting "default_currency" Schema.text usual.defaultCurrency
    <*> setting "currency_precision" Schema.natural usual.currencyPrecision
    <*> setting "percentage_precision" Schema.natural usual.percentagePrecision
    <*> setting "default_vacancy_rate" (Schema.decimalUpTo 1) usual.defaultVacancyRate
    <*> setting "default_vacancy_rate_percent" (Schema.decimalUpTo 100)
        usual.defaultVacancyRatePercent
    <*> setting "default_stream_name" Schema.text usual.defaultStreamName
    <*> setting "review_confidence_threshold" Schema.share usual.reviewConfidenceThreshold

/-- Refuses given names that are no settings. -/
def onlyKnown (given : Dictionary Payload) : Reading Unit :=
  match (given.keys.filter fun name => Schema.plainLower name ∉ names) with
  | [] => .accepted ()
  | unknown => .refused (unknown.map fun name => { path := [name], fault := .unknownField })

/-- The settings for given values in an environment. -/
def ofGiven (given : Dictionary Payload) (environment : Dictionary String) :
    Except Failure Settings :=
  Reading.built title <|
    (fun settings _ => settings) <$> ofValues (value? given environment) <*> onlyKnown given

/-- The settings as an object. -/
def toPayload (settings : Settings) : Payload :=
  .object
    [("log_level", .text settings.logLevel), ("log_json", .bool settings.logJson),
      ("model_version", .text settings.modelVersion),
      ("default_currency", .text settings.defaultCurrency),
      ("currency_precision", .int settings.currencyPrecision),
      ("percentage_precision", .int settings.percentagePrecision),
      ("default_vacancy_rate", .decimal settings.defaultVacancyRate),
      ("default_vacancy_rate_percent", .decimal settings.defaultVacancyRatePercent),
      ("default_stream_name", .text settings.defaultStreamName),
      ("review_confidence_threshold", .float settings.reviewConfidenceThreshold)]

end Settings

/-- The environment and the settings that were read from it. -/
structure Configuration where
  environment : Dictionary String
  kept : Option Settings

namespace Configuration

/-- An empty environment. -/
def initial : Configuration :=
  { environment := [], kept := none }

/-- Sets a variable. -/
def setVariable (configuration : Configuration) (name value : String) : Configuration :=
  { configuration with environment := configuration.environment.put name value }

/-- Removes a variable. -/
def removeVariable (configuration : Configuration) (name : String) : Configuration :=
  { configuration with
    environment := configuration.environment.filter fun entry => entry.1 ≠ name }

/-- Forgets the settings that are kept. -/
def clear (configuration : Configuration) : Configuration :=
  { configuration with kept := none }

/-- The settings of the environment: those that are kept, or else fresh ones, which are kept then. -/
def settings (configuration : Configuration) : Except Failure Settings × Configuration :=
  match configuration.kept with
  | some settings => (.ok settings, configuration)
  | none =>
      match Settings.ofGiven [] configuration.environment with
      | .ok settings => (.ok settings, { configuration with kept := some settings })
      | .error failure => (.error failure, configuration)

end Configuration

end Appraisal
