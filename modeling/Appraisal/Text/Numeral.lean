
/-!
# Numerals

The scales of numbers, and numbers as they are written in plain digits, with or without a point and an exponent.
-/

namespace Appraisal

/-!
## Powers of ten and of two

The scales of decimal and of binary numbers.
-/

/-- Ten to a power. -/
def tenTo (n : Nat) : Nat :=
  Nat.pow 10 n

/-- Two to a power. -/
def twoTo (n : Nat) : Nat :=
  Nat.pow 2 n

@[simp] theorem tenTo_zero : tenTo 0 = 1 := rfl

@[simp] theorem twoTo_zero : twoTo 0 = 1 := rfl

theorem twoTo_succ (n : Nat) : twoTo (n + 1) = twoTo n * 2 := rfl

theorem tenTo_pos (n : Nat) : 0 < tenTo n :=
  Nat.pow_pos (by decide)

theorem twoTo_pos (n : Nat) : 0 < twoTo n :=
  Nat.pow_pos (by decide)

/-!
## Numerals of whole numbers

The decimal numeral of a natural number, written with the ten plain digits and without leading zeros,
and the number that a list of plain digits denotes.
-/

namespace Text

/-- The plain digit for a number below ten. -/
def digitChar (d : Nat) : Char :=
  Char.ofNat (48 + d)

/-- The number of digits of the numeral; zero has one digit. -/
def digitCount (n : Nat) : Nat :=
  if n < 10 then 1 else digitCount (n / 10) + 1

/-- The numeral of a natural number. -/
def numeral (n : Nat) : List Char :=
  if n < 10 then [digitChar n] else numeral (n / 10) ++ [digitChar (n % 10)]

/-- The numeral of an integer, with a minus sign in front of a negative one. -/
def signedNumeral (n : Int) : List Char :=
  if n < 0 then '-' :: numeral n.natAbs else numeral n.natAbs

/-- The number that plain digits denote. -/
def readDigits (digits : List Char) : Nat :=
  digits.foldl (fun n c => 10 * n + (c.toNat - 48)) 0

theorem digitCount_pos (n : Nat) : 0 < digitCount n := by
  unfold digitCount
  split <;> omega

theorem length_numeral (n : Nat) : (numeral n).length = digitCount n := by
  induction n using Nat.strongRecOn with
  | ind n ih =>
      unfold numeral digitCount
      split
      · rfl
      · simp [ih (n / 10) (by omega)]

theorem toNat_digitChar {d : Nat} (h : d < 10) : (digitChar d).toNat = 48 + d := by
  have hall : ∀ d : Fin 10, (digitChar d).toNat = 48 + d := by decide
  exact hall ⟨d, h⟩

theorem readDigits_append (digits : List Char) (c : Char) :
    readDigits (digits ++ [c]) = 10 * readDigits digits + (c.toNat - 48) := by
  simp [readDigits]

theorem readDigits_numeral (n : Nat) : readDigits (numeral n) = n := by
  induction n using Nat.strongRecOn with
  | ind n ih =>
      unfold numeral
      split
      · next h => simp [readDigits, toNat_digitChar h]
      · rw [readDigits_append, ih (n / 10) (by omega), toNat_digitChar (by omega)]
        omega

/-!
## Numbers in plain and scientific notation

A written number is an optional sign, digits with at most one point among them, and an optional exponent
after an `e` in either case.  At least one digit stands before the exponent, and if there is an `e`, at
least one after it.
-/

/-- The minus sign of a negative number. -/
def signText (negative : Bool) : List Char :=
  if negative then ['-'] else []

/-- Whether a number in front of a text is negative, and the text after its sign. -/
def readSign : List Char → Bool × List Char
  | '-' :: rest => (true, rest)
  | '+' :: rest => (false, rest)
  | cs => (false, cs)

/-- The exponent written after the digits; none at all means zero. -/
def readExponent? : List Char → Option Int
  | [] => some 0
  | c :: rest =>
      if c = 'e' ∨ c = 'E' then
        let (negative, digits) := readSign rest
        if digits ≠ [] ∧ digits.all Char.isDigit then
          some (if negative then -(readDigits digits : Int) else readDigits digits)
        else none
      else none

/-- The coefficient and the exponent of a number without a sign. -/
def readScientific? (cs : List Char) : Option (Nat × Int) :=
  let whole := cs.takeWhile Char.isDigit
  let afterWhole := cs.dropWhile Char.isDigit
  let (fraction, afterDigits) := match afterWhole with
    | '.' :: rest => (rest.takeWhile Char.isDigit, rest.dropWhile Char.isDigit)
    | _ => ([], afterWhole)
  if whole ++ fraction = [] then none
  else
    match readExponent? afterDigits with
    | some exponent => some (readDigits (whole ++ fraction), exponent - fraction.length)
    | none => none

end Text

end Appraisal
