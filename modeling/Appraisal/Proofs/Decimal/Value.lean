import Appraisal.Decimal.Arithmetic
import Appraisal.Proofs.Decimal.Range

/-!
# The value of a decimal number

A finite decimal number stands for a rational number.  Padding and stripping zeros keeps it, and the order
of decimal numbers is the order of the numbers that they stand for.
-/

namespace Appraisal
namespace Decimal

open Text (digitCount)

/-- The number that a finite decimal number stands for; zero for all others. -/
def value : Decimal → ℚ
  | finite negative coefficient exponent => signed negative coefficient * 10 ^ exponent
  | _ => 0

theorem value_finite (negative : Bool) (coefficient : Nat) (exponent : Int) :
    (finite negative coefficient exponent).value =
      if negative then -magnitude coefficient exponent else magnitude coefficient exponent := by
  cases negative <;> simp [value, signed, magnitude]

/-- The sign has no part in the magnitude. -/
theorem abs_value_finite (negative : Bool) (coefficient : Nat) (exponent : Int) :
    |(finite negative coefficient exponent).value| = magnitude coefficient exponent := by
  have hpos : 0 ≤ magnitude coefficient exponent := by
    unfold magnitude
    positivity
  rw [value_finite]
  cases negative <;> simp [abs_of_nonneg hpos]

theorem value_negate (x : Decimal) : x.negate.value = -x.value := by
  cases x with
  | finite negative coefficient exponent =>
      rw [negate, value_finite, value_finite]
      cases negative <;> simp
  | infinite negative => simp [negate, value]
  | nan negative signaling payload => simp [negate, value]

@[simp] theorem value_ofInt (n : Int) : (ofInt n).value = n := by
  unfold ofInt value signed
  by_cases hneg : n < 0
  · have habs : ((n.natAbs : Nat) : Int) = -n := by omega
    simp [hneg, habs]
  · have habs : ((n.natAbs : Nat) : Int) = n := by omega
    simp [hneg, habs]

@[simp] theorem value_zero : zero.value = 0 := by
  simp [zero, value, signed]

/-! ## Magnitudes -/

/-- Zeros at the end of a coefficient are as good as a larger exponent. -/
theorem magnitude_mul_tenTo (coefficient places : Nat) (exponent : Int) :
    magnitude (coefficient * tenTo places) exponent = magnitude coefficient (exponent + places) := by
  unfold magnitude
  rw [zpow_add₀ (by norm_num), zpow_natCast]
  push_cast
  rw [cast_tenTo]
  ring

theorem magnitude_pos {coefficient : Nat} (h : coefficient ≠ 0) (exponent : Int) :
    0 < magnitude coefficient exponent := by
  have hcoefficient : (0 : ℚ) < coefficient := by exact_mod_cast Nat.pos_of_ne_zero h
  unfold magnitude
  positivity

@[simp] theorem magnitude_zero (exponent : Int) : magnitude 0 exponent = 0 := by
  simp [magnitude]

/-- The form without zeros at the end stands for the same number. -/
theorem magnitude_stripZeros (limit : Int) (coefficient : Nat) (exponent : Int) :
    magnitude (stripZeros limit coefficient exponent).1 (stripZeros limit coefficient exponent).2 =
      magnitude coefficient exponent := by
  induction coefficient, exponent using stripZeros.induct limit with
  | case1 coefficient exponent hstrip ih =>
      have hten : coefficient / 10 * tenTo 1 = coefficient := by
        show coefficient / 10 * 10 = coefficient
        omega
      have hstep := magnitude_mul_tenTo (coefficient / 10) 1 exponent
      rw [hten] at hstep
      rw [stripZeros, if_pos hstrip, ih, hstep]
      rfl
  | case2 coefficient exponent hkept => rw [stripZeros, if_neg hkept]

/-! ## Order -/

/-- The place of the leading digit decides if it differs. -/
theorem magnitude_lt_of_digits {c d : Nat} {e f : Int} (hd : d ≠ 0)
    (h : digitCount c + e < digitCount d + f) : magnitude c e < magnitude d f := by
  have hbetween : (10 : ℚ) ^ (digitCount c + e) ≤ 10 ^ (digitCount d + f - 1) :=
    zpow_le_zpow_right₀ (by norm_num) (by omega)
  exact (magnitude_lt c e).trans_le (hbetween.trans (le_magnitude hd f))

/-- Both magnitudes in units of the smaller exponent. -/
theorem magnitude_eq_mul_of_le (c : Nat) {e f : Int} (h : f ≤ e) :
    magnitude c e = (c * tenTo (e - f).toNat : Nat) * (10 : ℚ) ^ f := by
  have hmagnitude := magnitude_mul_tenTo c (e - f).toNat f
  rw [show f + ((e - f).toNat : Int) = e by omega] at hmagnitude
  rw [← hmagnitude, magnitude]

theorem compare_mul_right {unit : ℚ} (hunit : 0 < unit) (m n : Nat) :
    compare m n = compare (m * unit) (n * unit) := by
  rcases lt_trichotomy m n with hlt | heq | hgt
  · have hscaled : (m : ℚ) * unit < n * unit :=
      mul_lt_mul_of_pos_right (by exact_mod_cast hlt) hunit
    rw [compare_lt_iff_lt.2 hlt, compare_lt_iff_lt.2 hscaled]
  · rw [heq, compare_eq_iff_eq.2 rfl, compare_eq_iff_eq.2 rfl]
  · have hscaled : (n : ℚ) * unit < m * unit :=
      mul_lt_mul_of_pos_right (by exact_mod_cast hgt) hunit
    rw [compare_gt_iff_gt.2 hgt, compare_gt_iff_gt.2 hscaled]

/-- Two coefficients are comparable as soon as one of them is padded to the exponent of the other. -/
theorem compare_padded (c : Nat) (e : Int) (d : Nat) (f : Int) :
    compare (c * tenTo (e - f).toNat) (d * tenTo (f - e).toNat) =
      compare (magnitude c e) (magnitude d f) := by
  -- The number with the larger exponent is padded, the other one is left as it is.
  rcases le_total f e with hle | hle
  · have hpad : (f - e).toNat = 0 := by omega
    have hother : magnitude d f = (d : Nat) * (10 : ℚ) ^ f := rfl
    rw [hpad, tenTo_zero, mul_one, magnitude_eq_mul_of_le c hle, hother]
    exact compare_mul_right (by positivity) _ _
  · have hpad : (e - f).toNat = 0 := by omega
    have hother : magnitude c e = (c : Nat) * (10 : ℚ) ^ e := rfl
    rw [hpad, tenTo_zero, mul_one, magnitude_eq_mul_of_le d hle, hother]
    exact compare_mul_right (by positivity) _ _

/-- Comparing the places of the leading digits first, which spares huge paddings, does not change the outcome.
-/
theorem compareMagnitude_eq {c d : Nat} (hc : c ≠ 0) (hd : d ≠ 0) (e f : Int) :
    compareMagnitude c e d f = compare (magnitude c e) (magnitude d f) := by
  unfold compareMagnitude
  rcases lt_trichotomy (digitCount c + e) (digitCount d + f) with hlt | heq | hgt
  · rw [compare_lt_iff_lt.2 hlt, compare_lt_iff_lt.2 (magnitude_lt_of_digits hd hlt)]
  · rw [compare_eq_iff_eq.2 heq]
    exact compare_padded c e d f
  · rw [compare_gt_iff_gt.2 hgt, compare_gt_iff_gt.2 (magnitude_lt_of_digits hc hgt)]

/-- Signs, zeros and magnitudes are compared in three steps, and together they compare the values. -/
theorem compareFinite_eq (s : Bool) (c : Nat) (e : Int) (t : Bool) (d : Nat) (f : Int) :
    compareFinite s c e t d f = compare (finite s c e).value (finite t d f).value := by
  rw [value_finite, value_finite]
  unfold compareFinite
  -- A zero has no sign, so zeros are told apart from all other numbers before signs are looked at.
  by_cases hc : c = 0 <;> by_cases hd : d = 0
  · simp [hc, hd]
  · have hpos := magnitude_pos hd f
    cases t
    · simpa [hc, hd] using (compare_lt_iff_lt.2 hpos).symm
    · simpa [hc, hd] using (compare_gt_iff_gt.2 (neg_lt_zero.2 hpos)).symm
  · have hpos := magnitude_pos hc e
    cases s
    · simpa [hc, hd] using (compare_gt_iff_gt.2 hpos).symm
    · simpa [hc, hd] using (compare_lt_iff_lt.2 (neg_lt_zero.2 hpos)).symm
  · have hfirst := magnitude_pos hc e
    have hsecond := magnitude_pos hd f
    cases s <;> cases t <;> simp only [hc, hd, decide_false, Bool.false_eq_true, if_true, if_false]
    · exact compareMagnitude_eq hc hd e f
    · exact (compare_gt_iff_gt.2 (by linarith)).symm
    · exact (compare_lt_iff_lt.2 (by linarith)).symm
    · -- Of two negative numbers the one of larger magnitude is the smaller one.
      rw [compareMagnitude_eq hd hc f e]
      rcases lt_trichotomy (magnitude c e) (magnitude d f) with hlt | heq | hgt
      · rw [compare_gt_iff_gt.2 hlt, compare_gt_iff_gt.2 (neg_lt_neg hlt)]
      · rw [heq, compare_eq_iff_eq.2 rfl, compare_eq_iff_eq.2 rfl]
      · rw [compare_lt_iff_lt.2 hgt, compare_lt_iff_lt.2 (neg_lt_neg hgt)]

/-- Finite numbers are compared by value. -/
theorem compare?_eq {x y : Decimal} (hx : x.isFinite = true) (hy : y.isFinite = true) :
    compare? x y = some (compare x.value y.value) := by
  obtain ⟨s, c, e, rfl⟩ := exists_finite hx
  obtain ⟨t, d, f, rfl⟩ := exists_finite hy
  exact congrArg some (compareFinite_eq s c e t d f)

/-- The test of the order always has an answer for finite numbers, and it is the right one. -/
theorem le?_eq_ok {x y : Decimal} (hx : x.isFinite = true) (hy : y.isFinite = true) :
    x.le? y = .ok (decide (x.value ≤ y.value)) := by
  unfold le? testOrder
  rw [compare?_eq hx hy]
  rcases lt_trichotomy x.value y.value with hlt | heq | hgt
  · simp [compare_lt_iff_lt.2 hlt, hlt.le]
  · simp [heq]
  · simp [compare_gt_iff_gt.2 hgt, hgt.not_ge]

theorem le?_eq_true_iff {x y : Decimal} (hx : x.isFinite = true) (hy : y.isFinite = true) :
    x.le? y = .ok true ↔ x.value ≤ y.value := by
  rw [le?_eq_ok hx hy, Except.ok.injEq, decide_eq_true_iff]

theorem lt?_eq_ok {x y : Decimal} (hx : x.isFinite = true) (hy : y.isFinite = true) :
    x.lt? y = .ok (decide (x.value < y.value)) := by
  unfold lt? testOrder
  rw [compare?_eq hx hy]
  rcases lt_trichotomy x.value y.value with hlt | heq | hgt
  · simp [compare_lt_iff_lt.2 hlt, hlt]
  · simp [heq]
  · simp [compare_gt_iff_gt.2 hgt, hgt.not_gt]

theorem lt?_eq_true_iff {x y : Decimal} (hx : x.isFinite = true) (hy : y.isFinite = true) :
    x.lt? y = .ok true ↔ x.value < y.value := by
  rw [lt?_eq_ok hx hy, Except.ok.injEq, decide_eq_true_iff]

end Decimal
end Appraisal
