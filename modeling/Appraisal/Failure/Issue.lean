/-!
# Issues of a payload

An issue says where in a payload something is wrong and what.  The place is the path of field names and
list positions from the outermost payload.
-/

namespace Appraisal

/-- What is wrong with a value. -/
inductive Fault where
  | missing
  | unknownField
  | textType
  | textTooShort (least : Nat)
  | textTooLong (most : Nat)
  | intType
  | intText
  | intSize
  | intFraction
  | numberType
  | numberText
  | notFinite
  | truthType
  | truthText
  | decimalType
  | decimalText
  | above (bound : Nat)
  | atLeast (bound : Nat)
  | atMost (bound : Nat)
  | notListed (options : List String)
  | listType
  | objectType
  | recordType (record : String)
  | rule (text : String)
  | momentType
  | momentNumber (reason : String)
  | momentText (reason : String)
  deriving DecidableEq, Repr

namespace Fault

/-- The word for a kind of fault. -/
def kind : Fault → String
  | missing => "missing"
  | unknownField => "extra_forbidden"
  | textType => "string_type"
  | textTooShort _ => "string_too_short"
  | textTooLong _ => "string_too_long"
  | intType => "int_type"
  | intText => "int_parsing"
  | intSize => "int_parsing_size"
  | intFraction => "int_from_float"
  | numberType => "float_type"
  | numberText => "float_parsing"
  | notFinite => "finite_number"
  | truthType => "bool_type"
  | truthText => "bool_parsing"
  | decimalType => "decimal_type"
  | decimalText => "decimal_parsing"
  | above _ => "greater_than"
  | atLeast _ => "greater_than_equal"
  | atMost _ => "less_than_equal"
  | notListed _ => "enum"
  | listType => "list_type"
  | objectType => "dict_type"
  | recordType _ => "model_type"
  | rule _ => "value_error"
  | momentType => "datetime_type"
  | momentNumber _ => "datetime_parsing"
  | momentText _ => "datetime_from_date_parsing"

/-- A number of characters in words. -/
def characters (n : Nat) : String :=
  if n = 1 then "1 character" else toString n ++ " characters"

/-- Options in quotes, the last two joined by a word. -/
def alternatives : List String → String
  | [] => ""
  | [last] => "'" ++ last ++ "'"
  | [first, last] => "'" ++ first ++ "' or '" ++ last ++ "'"
  | first :: rest => "'" ++ first ++ "', " ++ alternatives rest

/-- The text of a fault. -/
def message : Fault → String
  | missing => "Field required"
  | unknownField => "Extra inputs are not permitted"
  | textType => "Input should be a valid string"
  | textTooShort least => "String should have at least " ++ characters least
  | textTooLong most => "String should have at most " ++ characters most
  | intType => "Input should be a valid integer"
  | intText => "Input should be a valid integer, unable to parse string as an integer"
  | intSize => "Unable to parse input string as an integer, exceeded maximum size"
  | intFraction => "Input should be a valid integer, got a number with a fractional part"
  | numberType => "Input should be a valid number"
  | numberText => "Input should be a valid number, unable to parse string as a number"
  | notFinite => "Input should be a finite number"
  | truthType => "Input should be a valid boolean"
  | truthText => "Input should be a valid boolean, unable to interpret input"
  | decimalType => "Decimal input should be an integer, float, string or Decimal object"
  | decimalText => "Input should be a valid decimal"
  | above bound => "Input should be greater than " ++ toString bound
  | atLeast bound => "Input should be greater than or equal to " ++ toString bound
  | atMost bound => "Input should be less than or equal to " ++ toString bound
  | notListed options => "Input should be " ++ alternatives options
  | listType => "Input should be a valid list"
  | objectType => "Input should be a valid dictionary"
  | recordType record => "Input should be a valid dictionary or instance of " ++ record
  | rule text => "Value error, " ++ text
  | momentType => "Input should be a valid datetime"
  | momentNumber reason => "Input should be a valid datetime, " ++ reason
  | momentText reason => "Input should be a valid datetime or date, " ++ reason

end Fault

/-- A fault at a place. -/
structure Issue where
  path : List String
  fault : Fault
  deriving DecidableEq, Repr

namespace Issue

/-- The place as a text, with points between the steps of the path. -/
def place (issue : Issue) : String :=
  ".".intercalate issue.path

/-- The issue as seen from a payload that holds the faulty one under a step. -/
def within (step : String) (issue : Issue) : Issue :=
  { issue with path := step :: issue.path }

end Issue
end Appraisal
