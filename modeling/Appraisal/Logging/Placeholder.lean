import Appraisal.Text.Numeral

/-!
# Placeholders

The words of an event may hold placeholders.  A placeholder starts with a percent sign; then follow a
name in parentheses, flags, the least width, a point with a precision, a letter for a size that means
nothing, and a letter for the kind of the value.  All but the last may be missing.  An asterisk stands for
a width or a precision that is a value itself, and two percent signs stand for one.

`pieces` cuts a template into placeholders and the characters between them.  What cannot be read as a
placeholder is kept with the reason, because it only counts when the filling gets there.
-/

namespace Appraisal
namespace Template

open Text (readDigits)

/-- A width or a precision. -/
inductive Extent where
  | given (n : Nat)
  | fromValue
  deriving DecidableEq, Repr

/-- The name of a placeholder. -/
inductive Label where
  | none
  | name (name : String)
  | unclosed
  deriving DecidableEq, Repr

/-- A placeholder. -/
structure Placeholder where
  label : Label
  flags : List Char
  width : Option Extent
  precision : Option Extent
  /-- The letter for the kind of its value and the number of characters after it; none when the template
  ends before it. -/
  letter : Option (Char × Nat)
  deriving DecidableEq, Repr

/-- A part of a template. -/
inductive Piece where
  | plain (c : Char)
  | placeholder (placeholder : Placeholder)
  deriving DecidableEq, Repr

/-! ## The parts of a placeholder -/

/-- Whether a character is a flag. -/
def isFlag (c : Char) : Bool :=
  c == '-' || c == '+' || c == ' ' || c == '#' || c == '0'

/-- Whether a character names a size. -/
def isSize (c : Char) : Bool :=
  c == 'h' || c == 'l' || c == 'L'

/-- The characters up to the parenthesis that closes as many as are open, and what follows it. -/
def untilClosed (inner : Nat) : List Char → Option (List Char × List Char)
  | [] => none
  | c :: rest =>
      if c = ')' then
        match inner with
        | 0 => some ([], rest)
        | outer + 1 => (untilClosed outer rest).map fun (name, after) => (c :: name, after)
      else
        (untilClosed (if c = '(' then inner + 1 else inner) rest).map fun (name, after) =>
          (c :: name, after)

/-- The name at the front of a text, and what follows it. -/
def readLabel : List Char → Label × List Char
  | '(' :: rest =>
      match untilClosed 0 rest with
      | some (name, after) => (.name (String.ofList name), after)
      | none => (.unclosed, [])
  | cs => (.none, cs)

/-- The width or the precision at the front of a text, and what follows it. -/
def readExtent : List Char → Option Extent × List Char
  | '*' :: rest => (some .fromValue, rest)
  | cs =>
      match cs.takeWhile Char.isDigit with
      | [] => (none, cs)
      | digits => (some (.given (readDigits digits)), cs.dropWhile Char.isDigit)

/-- The precision after a point at the front of a text, and what follows it; a point alone means zero. -/
def readPrecision : List Char → Option Extent × List Char
  | '.' :: rest =>
      match readExtent rest with
      | (none, after) => (some (.given 0), after)
      | answer => answer
  | cs => (none, cs)

/-- What follows the letter for a size. -/
def afterSize : List Char → List Char
  | [] => []
  | c :: rest => if isSize c then rest else c :: rest

/-- The placeholder at the front of a text, behind its percent sign, and what follows it. -/
def readPlaceholder (cs : List Char) : Placeholder × List Char :=
  let (label, rest) := readLabel cs
  let flags := rest.takeWhile isFlag
  let (width, rest) := readExtent (rest.dropWhile isFlag)
  let (precision, rest) := readPrecision rest
  match afterSize rest with
  | [] => (⟨label, flags, width, precision, none⟩, [])
  | c :: rest => (⟨label, flags, width, precision, some (c, rest.length)⟩, rest)

/-! ## Every part is at the front of the text -/

theorem length_dropWhile_le (p : Char → Bool) (cs : List Char) :
    (cs.dropWhile p).length ≤ cs.length := by
  induction cs with
  | nil => exact Nat.le_refl _
  | cons c rest ih =>
      rw [List.dropWhile_cons]
      split
      · exact Nat.le_succ_of_le ih
      · exact Nat.le_refl _

theorem length_of_untilClosed (cs : List Char) :
    ∀ {inner : Nat} {name after : List Char},
      untilClosed inner cs = some (name, after) → after.length ≤ cs.length := by
  -- The depth changes with every bracket, so it is any number here.
  induction cs with
  | nil => intro inner name after h; simp [untilClosed] at h
  | cons c rest ih =>
      intro inner name after h
      unfold untilClosed at h
      split at h
      · cases inner with
        | zero =>
            simp only [Option.some.injEq, Prod.mk.injEq] at h
            rw [← h.2]
            exact Nat.le_succ _
        | succ outer =>
            obtain ⟨⟨name', after'⟩, hinner, heq⟩ := Option.map_eq_some_iff.1 h
            simp only [Prod.mk.injEq] at heq
            rw [← heq.2]
            exact Nat.le_succ_of_le (ih hinner)
      · obtain ⟨⟨name', after'⟩, hinner, heq⟩ := Option.map_eq_some_iff.1 h
        simp only [Prod.mk.injEq] at heq
        rw [← heq.2]
        exact Nat.le_succ_of_le (ih hinner)

theorem length_readLabel_le (cs : List Char) : (readLabel cs).2.length ≤ cs.length := by
  unfold readLabel
  split
  · next rest =>
      split
      · next name after h => exact Nat.le_succ_of_le (length_of_untilClosed rest h)
      · exact Nat.zero_le _
  · exact Nat.le_refl _

theorem length_readExtent_le (cs : List Char) : (readExtent cs).2.length ≤ cs.length := by
  unfold readExtent
  split
  · exact Nat.le_succ _
  · split
    · exact Nat.le_refl _
    · exact length_dropWhile_le _ _

theorem length_readPrecision_le (cs : List Char) : (readPrecision cs).2.length ≤ cs.length := by
  unfold readPrecision
  split
  · next rest =>
      have h := length_readExtent_le rest
      split
      · next after heq =>
          rw [heq] at h
          exact Nat.le_succ_of_le h
      · exact Nat.le_succ_of_le h
  · exact Nat.le_refl _

theorem length_afterSize_le (cs : List Char) : (afterSize cs).length ≤ cs.length := by
  cases cs with
  | nil => exact Nat.le_refl _
  | cons c rest =>
      simp only [afterSize]
      split
      · exact Nat.le_succ _
      · exact Nat.le_refl _

theorem length_readPlaceholder_le (cs : List Char) :
    (readPlaceholder cs).2.length ≤ cs.length := by
  -- Label, flags, width, precision and size are read one behind the other, and none of them gives back
  -- characters.
  have hlabel := length_readLabel_le cs
  have hflags := length_dropWhile_le isFlag (readLabel cs).2
  have hwidth := length_readExtent_le ((readLabel cs).2.dropWhile isFlag)
  have hprecision := length_readPrecision_le (readExtent ((readLabel cs).2.dropWhile isFlag)).2
  have hsize := length_afterSize_le
    (readPrecision (readExtent ((readLabel cs).2.dropWhile isFlag)).2).2
  unfold readPlaceholder
  simp only
  split
  · exact Nat.zero_le _
  · next c rest heq =>
      rw [heq, List.length_cons] at hsize
      simp only
      omega

/-! ## Templates -/

/-- The pieces of a template. -/
def pieces : List Char → List Piece
  | [] => []
  | '%' :: '%' :: rest => .plain '%' :: pieces rest
  | '%' :: rest => .placeholder (readPlaceholder rest).1 :: pieces (readPlaceholder rest).2
  | c :: rest => .plain c :: pieces rest
termination_by cs => cs.length
decreasing_by
  · simp only [List.length_cons]
    omega
  · exact Nat.lt_succ_of_le (length_readPlaceholder_le rest)
  · exact Nat.lt_succ_self _

end Template
end Appraisal
