import Appraisal.Binary64.Basic
import Appraisal.Binary64.Text
import Appraisal.Decimal.Arithmetic
import Appraisal.Decimal.Text
import Appraisal.Text.Printable

/-!
# Payloads and what they stand for

Whatever comes from outside is a payload first.  It stands for a number, an amount or one of a closed set of
options, or for none of them; and a message shows it.
-/

namespace Appraisal

/-!
## Payloads

A payload is a value whose shape is not known in advance: a document that comes from outside, an entry
that a user typed, the answer of a named function.  The fields of an object keep the order in which they
were written, and no two fields have one name.
-/

/-- A value of unknown shape. -/
inductive Payload where
  | null
  | bool (value : Bool)
  | int (value : Int)
  | float (value : Binary64)
  | decimal (value : Decimal)
  | text (value : String)
  | list (items : List Payload)
  | object (fields : List (String × Payload))
  deriving Repr, Inhabited

namespace Payload

/-- The field of an object, if it has one of that name. -/
def field? (name : String) : Payload → Option Payload
  | object fields => fields.lookup name
  | _ => none

/-- Whether the payload stands for nothing: no value, false, a zero or something empty. -/
def isVacant : Payload → Bool
  | null => true
  | bool value => !value
  | int value => value == 0
  | float (.finite _ significand _) => significand == 0
  | float _ => false
  | decimal (.finite _ coefficient _) => coefficient == 0
  | decimal _ => false
  | text value => value.isEmpty
  | list items => items.isEmpty
  | object fields => fields.isEmpty

/-- The payload of a value that may be missing. -/
def orNull {α : Type} (payload : α → Payload) : Option α → Payload
  | some value => payload value
  | none => null

/-- A text or no value. -/
def ofText? : Option String → Payload := orNull text

/-- A decimal number or no value. -/
def ofDecimal? : Option Decimal → Payload := orNull decimal

/-- A floating-point number or no value. -/
def ofFloat? : Option Binary64 → Payload := orNull float

/-- An integer or no value. -/
def ofInt? : Option Int → Payload := orNull int

/-- A natural number or no value. -/
def ofNat? : Option Nat → Payload := orNull fun n => int n

end Payload

/-!
## The number of a payload

Every number has a nearest floating-point number, except for integers beyond the range and for signaling
decimal numbers, and it is a decimal number exactly.  A truth value counts as zero or one.
-/

/-- The nearest floating-point number; none for a signaling number. -/
def Decimal.toBinary64? : Decimal → Option Binary64
  | finite s c e => some (Binary64.ofScientific s c e)
  | infinite s => some (.infinite s)
  | nan _ signaling _ => if signaling then none else some .nan

/-- The decimal number of the same value. -/
def Binary64.toDecimal : Binary64 → Decimal
  | finite s m p => .finite s (m * twoTo p * Nat.pow 5 1074) (-1074)
  | infinite s => .infinite s
  | nan => .nan false false 0

namespace Payload

/-- The decimal number of the value of a number. -/
def decimalValue? : Payload → Option Decimal
  | int n => some (.ofInt n)
  | bool value => some (.ofInt value.toInt)
  | float x => some x.toDecimal
  | decimal x => some x
  | _ => none

/-- The nearest floating-point number of a number. -/
def real? : Payload → Option Binary64
  | int n =>
      match Binary64.ofInt n with
      | .infinite _ => none
      | x => some x
  | bool value => some (.ofInt value.toInt)
  | float x => some x
  | decimal x => x.toBinary64?
  | _ => none

/-!
## The amount in a payload

A payload counts as an amount when it is a finite number or a text that denotes one.  A text may have
blanks around it and commas anywhere.  Truth values, lists and objects are no amounts.
-/

open Text (isBlank trim)

/-- The number itself, if it is finite. -/
def finiteOnly (x : Decimal) : Option Decimal :=
  if x.isFinite then some x else none

/-- The finite number that a text denotes when its commas are left out. -/
def amountOfChars? (cs : List Char) : Option Decimal :=
  match Decimal.ofChars? ((trim isBlank cs).filter (· ≠ ',')) with
  | some x => finiteOnly x
  | none => none

/-- The amount that a payload stands for. -/
def amount? : Payload → Option Decimal
  | decimal x => finiteOnly x
  | int n => some (Decimal.ofInt n)
  | float x => if x.isFinite then Decimal.ofChars? x.toChars else none
  | text s => amountOfChars? s.toList
  | _ => none

/-!
## Payloads in messages

`literal` writes a payload so that its kind can be told from the text: texts are quoted and decimal
numbers are labelled.  `shown` leaves a text and a decimal number bare when they stand alone.
-/

/-- Texts with a comma and a space between neighbours. -/
def commaSeparated : List (List Char) → List Char
  | [] => []
  | [item] => item
  | item :: rest => item ++ [',', ' '] ++ commaSeparated rest

mutual

/-- The characters of the literal of a payload. -/
def literalChars : Payload → List Char
  | null => "None".toList
  | bool true => "True".toList
  | bool false => "False".toList
  | int value => Text.signedNumeral value
  | float value => value.toChars
  | decimal value => "Decimal('".toList ++ value.toChars ++ "')".toList
  | text value => Text.quoted value.toList
  | list items => '[' :: commaSeparated (literalItems items) ++ [']']
  | object fields => '\x7b' :: commaSeparated (literalFields fields) ++ ['\x7d']

/-- The literals of the items of a list. -/
def literalItems : List Payload → List (List Char)
  | [] => []
  | item :: rest => literalChars item :: literalItems rest

/-- The fields of an object, each as its quoted name and its literal. -/
def literalFields : List (String × Payload) → List (List Char)
  | [] => []
  | (name, value) :: rest =>
      (Text.quoted name.toList ++ [':', ' '] ++ literalChars value) :: literalFields rest

end

/-- The literal of a payload. -/
def literal (payload : Payload) : String :=
  String.ofList payload.literalChars

/-- The text of a payload that stands alone. -/
def shown : Payload → String
  | text value => value
  | decimal value => value.toText
  | other => other.literal

/-- The word for the kind of a payload. -/
def kindName : Payload → String
  | null => "NoneType"
  | bool _ => "bool"
  | int _ => "int"
  | float _ => "float"
  | decimal _ => "decimal.Decimal"
  | text _ => "str"
  | list _ => "list"
  | object _ => "dict"

end Payload

/-!
## Closed sets of named options

Categories, operations and other closed choices are written by name.  A type of such options lists them
all, in the order in which they are offered.
-/

/-- A closed set of options with names. -/
class Named (α : Type) where
  title : String
  all : List α
  name : α → String

namespace Named

variable {α : Type} [Named α]

/-- The option of a name. -/
def ofName? (text : String) : Option α :=
  (all (α := α)).find? fun option => name option == text

/-- The option that a payload names. -/
def ofPayload? : Payload → Option α
  | .text text => ofName? text
  | _ => none

/-- The names of all options of a set. -/
def names (α : Type) [Named α] : List String :=
  (all (α := α)).map name

/-- An option as a payload. -/
def toPayload (option : α) : Payload :=
  .text (name option)

theorem name_of_ofName? {text : String} {option : α} (h : ofName? text = some option) :
    name option = text := by
  have := List.find?_some h
  simpa using this

end Named

/-!
## Measures

Confidences and coordinates are given either as integers or as floating-point numbers.  Both are
compared by value, without rounding the integer.
-/

/-- An integer or a floating-point number. -/
inductive Measure where
  | whole (value : Int)
  | real (value : Binary64)
  deriving DecidableEq, Repr, Inhabited

namespace Measure

/-- The nearest floating-point number. -/
def toBinary64 : Measure → Binary64
  | whole n => Binary64.ofInt n
  | real x => x

/-- The measure as a payload. -/
def toPayload : Measure → Payload
  | whole n => .int n
  | real x => .float x

/-- The order of two measures, unless one is undefined. -/
def compare? : Measure → Measure → Option Ordering
  | whole m, whole n => some (compare m n)
  | real x, whole n => x.compareInt? n
  | whole m, real y => (y.compareInt? m).map Ordering.swap
  | real x, real y => x.compare? y

/-- Whether the first measure is smaller; never so when one is undefined. -/
def lt (a b : Measure) : Bool :=
  a.compare? b == some .lt

/-- Whether the first measure is at most the second; never so when one is undefined. -/
def le (a b : Measure) : Bool :=
  a.compare? b == some .lt || a.compare? b == some .eq

/-- Whether the measure lies between zero and one. -/
def isShare (a : Measure) : Bool :=
  (whole 0).le a && a.le (whole 1)

end Measure

end Appraisal
