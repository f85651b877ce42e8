import Appraisal.Proofs.Payload.Amount
import Mathlib.Data.List.Induction
import Mathlib.Tactic.Ring

/-!
# Digits in front of a text

A run of plain digits is read up to the first character that is none.  The number that digits denote is
computed from the digits in front and those behind, and zeros in front do not count.
-/

namespace Appraisal
namespace Text

/-- All characters are plain digits. -/
def AllDigits (cs : List Char) : Prop :=
  ∀ c ∈ cs, c.isDigit = true

theorem allDigits_append {first second : List Char} :
    AllDigits (first ++ second) ↔ AllDigits first ∧ AllDigits second := by
  simp only [AllDigits, List.forall_mem_append]

theorem allDigits_replicate (count : Nat) : AllDigits (List.replicate count '0') := by
  intro c hc
  rw [List.eq_of_mem_replicate hc]
  rfl

theorem allDigits_numeral (n : Nat) : AllDigits (numeral n) := by
  induction n using Nat.strongRecOn with
  | ind n ih =>
      unfold numeral
      split
      · next hsmall =>
          intro c hc
          obtain rfl := List.mem_singleton.1 hc
          exact isDigit_digitChar (by omega)
      · refine allDigits_append.2 ⟨ih (n / 10) (by omega), fun c hc => ?_⟩
        obtain rfl := List.mem_singleton.1 hc
        exact isDigit_digitChar (by omega)

theorem AllDigits.take {cs : List Char} (h : AllDigits cs) (count : Nat) :
    AllDigits (cs.take count) :=
  fun c hc => h c (List.mem_of_mem_take hc)

theorem AllDigits.drop {cs : List Char} (h : AllDigits cs) (count : Nat) :
    AllDigits (cs.drop count) :=
  fun c hc => h c (List.mem_of_mem_drop hc)

theorem AllDigits.all {cs : List Char} (h : AllDigits cs) : cs.all Char.isDigit = true :=
  List.all_eq_true.2 h

theorem not_startsWithDigit_nil : ¬ StartsWithDigit [] := by
  rintro ⟨c, rest, h, -⟩
  cases h

theorem not_startsWithDigit_cons {c : Char} (h : c.isDigit = false) (rest : List Char) :
    ¬ StartsWithDigit (c :: rest) := by
  rintro ⟨_, _, heq, hc⟩
  cases heq
  rw [h] at hc
  cases hc

theorem takeWhile_isDigit {digits rest : List Char} (hdigits : AllDigits digits)
    (hrest : ¬ StartsWithDigit rest) : (digits ++ rest).takeWhile Char.isDigit = digits := by
  rw [List.takeWhile_append_of_pos hdigits]
  cases rest with
  | nil => simp
  | cons c rest =>
      have hc : ¬ c.isDigit = true := fun hc => hrest ⟨c, rest, rfl, hc⟩
      rw [List.takeWhile_cons_of_neg hc, List.append_nil]

theorem dropWhile_isDigit {digits rest : List Char} (hdigits : AllDigits digits)
    (hrest : ¬ StartsWithDigit rest) : (digits ++ rest).dropWhile Char.isDigit = rest := by
  rw [List.dropWhile_append_of_pos hdigits]
  cases rest with
  | nil => rfl
  | cons c rest =>
      have hc : ¬ c.isDigit = true := fun hc => hrest ⟨c, rest, rfl, hc⟩
      rw [List.dropWhile_cons_of_neg hc]

/-- Digits behind others are read in the places below them. -/
theorem readDigits_append_digits (first second : List Char) :
    readDigits (first ++ second) = readDigits first * 10 ^ second.length + readDigits second := by
  induction second using List.reverseRecOn with
  | nil => simp [readDigits]
  | append_singleton second c ih =>
      rw [← List.append_assoc, readDigits_append, ih, readDigits_append, List.length_append,
        List.length_singleton, pow_succ]
      ring

theorem readDigits_replicate_zero (count : Nat) : readDigits (List.replicate count '0') = 0 := by
  induction count with
  | zero => rfl
  | succ count ih =>
      rw [List.replicate_succ', readDigits_append, ih]
      rfl

/-- Zeros in front do not count. -/
theorem readDigits_zeros_append (count : Nat) (cs : List Char) :
    readDigits (List.replicate count '0' ++ cs) = readDigits cs := by
  rw [readDigits_append_digits, readDigits_replicate_zero, Nat.zero_mul, Nat.zero_add]

theorem readDigits_lt {digits : List Char} (h : AllDigits digits) :
    readDigits digits < 10 ^ digits.length := by
  induction digits using List.reverseRecOn with
  | nil => exact Nat.one_pos
  | append_singleton digits c ih =>
      obtain ⟨hdigits, hc⟩ := allDigits_append.1 h
      obtain ⟨d, hd, rfl⟩ := eq_digitChar_of_isDigit (hc c (List.mem_singleton_self c))
      have hlt := ih hdigits
      rw [readDigits_append, toNat_digitChar (by omega), List.length_append,
        List.length_singleton, pow_succ]
      omega

theorem numeral_ne_nil (n : Nat) : numeral n ≠ [] := by
  rw [← List.length_pos_iff, length_numeral]
  exact digitCount_pos n

/-- A number below a power of ten needs no more digits than that power has zeros. -/
theorem length_numeral_le {n width : Nat} (hwidth : 0 < width) (h : n < 10 ^ width) :
    (numeral n).length ≤ width := by
  -- Taking off the last digit divides the number by ten, and the width loses one.
  induction width generalizing n with
  | zero => omega
  | succ width ih =>
      unfold numeral
      split
      · simp
      · next hlarge =>
          have hpos : 0 < width := by
            rcases Nat.eq_zero_or_pos width with rfl | hpos
            · simp at h
              omega
            · exact hpos
          have hquotient : n / 10 < 10 ^ width := by
            rw [pow_succ] at h
            omega
          have hshort := ih hpos hquotient
          rw [List.length_append, List.length_singleton]
          omega

/-! ## Numbers with a point or an exponent -/

/-- What may stand behind the digits of a number: nothing that would belong to them. -/
def EndsDigits (cs : List Char) : Prop :=
  ¬ StartsWithDigit cs ∧ ∀ rest, cs ≠ '.' :: rest

theorem endsDigits_nil : EndsDigits [] :=
  ⟨not_startsWithDigit_nil, fun _ h => by cases h⟩

theorem readScientific?_whole {digits tail : List Char} (hdigits : AllDigits digits)
    (hne : digits ≠ []) (htail : EndsDigits tail) :
    readScientific? (digits ++ tail) =
      (readExponent? tail).map fun exponent => (readDigits digits, exponent) := by
  unfold readScientific?
  simp only [takeWhile_isDigit hdigits htail.1, dropWhile_isDigit hdigits htail.1]
  split
  · next rest => exact absurd rfl (htail.2 rest)
  · simp only [List.append_nil, if_neg hne]
    cases readExponent? tail <;> simp

/-- Digits around a point are read as one number, with an exponent as long as the fraction. -/
theorem readScientific?_pointed {whole fraction tail : List Char} (hwhole : AllDigits whole)
    (hfraction : AllDigits fraction) (hne : whole ++ fraction ≠ []) (htail : EndsDigits tail) :
    readScientific? (whole ++ '.' :: (fraction ++ tail)) =
      (readExponent? tail).map fun exponent =>
        (readDigits (whole ++ fraction), exponent - (fraction.length : Int)) := by
  have hpoint : ¬ StartsWithDigit ('.' :: (fraction ++ tail)) :=
    not_startsWithDigit_cons (by decide) _
  unfold readScientific?
  simp only [takeWhile_isDigit hwhole hpoint, dropWhile_isDigit hwhole hpoint,
    takeWhile_isDigit hfraction htail.1, dropWhile_isDigit hfraction htail.1, if_neg hne]
  cases readExponent? tail <;> rfl

end Text
end Appraisal
