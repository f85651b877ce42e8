import Appraisal.Decimal.Text
import Appraisal.Proofs.Fallible
import Mathlib.Algebra.Order.Field.Power
import Mathlib.Data.Nat.Log
import Mathlib.Tactic.Linarith
import Mathlib.Tactic.Positivity
import Mathlib.Tactic.Ring

/-!
# The range of results

Rounding refuses exactly those numbers that lie at or beyond the point half way between the largest result
and the next number of the same precision.  A number can be shown in a calculation unless it is signaling
or a whole number beyond that point; every result of an operation can be shown.
-/

namespace Appraisal
namespace Decimal

open Text (digitCount)

/-- The magnitude of a finite number. -/
def magnitude (coefficient : Nat) (exponent : Int) : ℚ :=
  coefficient * 10 ^ exponent

/-- The point half way between the largest result and the next number of the same precision. -/
def overflowThreshold : ℚ :=
  (10 ^ precision - 1 / 2) * 10 ^ (maxExponent + 1 - precision)

/-! ## Digits -/

/-- The number of digits is the logarithm of the library, whose bounds then serve for both ends. -/
theorem digitCount_eq_log (n : Nat) : digitCount n = Nat.log 10 n + 1 := by
  induction n using Nat.strongRecOn with
  | ind n ih =>
      unfold digitCount
      split
      · next hsmall => rw [Nat.log_of_lt hsmall]
      · next hlarge =>
          rw [ih (n / 10) (by omega), Nat.log_of_one_lt_of_le (by decide) (show 10 ≤ n by omega)]

theorem tenTo_add (m n : Nat) : tenTo (m + n) = tenTo m * tenTo n :=
  Nat.pow_add 10 m n

theorem cast_tenTo (n : Nat) : (tenTo n : ℚ) = 10 ^ n := by
  simp [tenTo]

theorem lt_tenTo_digitCount (n : Nat) : n < tenTo (digitCount n) := by
  rw [digitCount_eq_log]
  exact Nat.lt_pow_succ_log_self (by decide) n

theorem tenTo_le_of_ne_zero {n : Nat} (h : n ≠ 0) : tenTo (digitCount n - 1) ≤ n := by
  rw [digitCount_eq_log]
  exact Nat.pow_log_le_self 10 h

/-- A number lies below the power of ten one place above its leading digit. -/
theorem magnitude_lt (coefficient : Nat) (exponent : Int) :
    magnitude coefficient exponent < 10 ^ (digitCount coefficient + exponent) := by
  have hdigits : (coefficient : ℚ) < 10 ^ (digitCount coefficient) := by
    rw [← cast_tenTo]
    exact_mod_cast lt_tenTo_digitCount coefficient
  rw [zpow_add₀ (by norm_num), zpow_natCast]
  exact mul_lt_mul_of_pos_right hdigits (by positivity)

/-- A number other than zero reaches the power of ten of its leading digit. -/
theorem le_magnitude {coefficient : Nat} (h : coefficient ≠ 0) (exponent : Int) :
    10 ^ (digitCount coefficient + exponent - 1) ≤ magnitude coefficient exponent := by
  have hdigits : (10 : ℚ) ^ (digitCount coefficient - 1) ≤ coefficient := by
    rw [← cast_tenTo]
    exact_mod_cast tenTo_le_of_ne_zero h
  have hexponent : (digitCount coefficient : Int) + exponent - 1 =
      (digitCount coefficient - 1 : Nat) + exponent := by
    have := Text.digitCount_pos coefficient
    omega
  rw [hexponent, zpow_add₀ (by norm_num), zpow_natCast]
  exact mul_le_mul_of_nonneg_right hdigits (by positivity)

/-! ## Rounding -/

/-- A quotient below an even bound is rounded up to it exactly when it is not less than half a unit below
it. -/
theorem roundQuotient_eq_iff {n places bound : Nat} (hbound : n < bound * tenTo places)
    (heven : bound % 2 = 0) :
    roundQuotient n places = bound ↔ 2 * (bound * tenTo places) ≤ 2 * n + tenTo places := by
  have hunit := tenTo_pos places
  have hsplit := Nat.div_add_mod' n (tenTo places)
  have hquotient : n / tenTo places < bound := (Nat.div_lt_iff_lt_mul hunit).2 hbound
  have hremainder := Nat.mod_lt n hunit
  unfold roundQuotient
  dsimp only
  rcases Nat.lt_or_ge (n / tenTo places + 1) bound with hfar | hnear
  · -- The quotient is too small, however it is rounded.
    have hgap := Nat.mul_le_mul_right (tenTo places) (Nat.succ_le_of_lt hfar)
    rw [Nat.succ_mul, Nat.succ_mul] at hgap
    split <;> omega
  · -- The quotient is the odd number just below the bound.
    obtain rfl : bound = n / tenTo places + 1 := by omega
    rw [Nat.succ_mul (n / tenTo places)]
    split <;> omega

theorem overflowThreshold_eq :
    overflowThreshold = 10 ^ (maxExponent + 1) - 1 / 2 * 10 ^ (maxExponent + 1 - precision) := by
  have hsplit : (10 : ℚ) ^ (maxExponent + 1) =
      10 ^ precision * 10 ^ (maxExponent + 1 - precision) := by
    rw [← zpow_natCast, ← zpow_add₀ (by norm_num)]
    rfl
  rw [overflowThreshold, sub_mul, hsplit]

/-- No number with a leading digit beyond the last possible place is accepted. -/
theorem overflowThreshold_lt : overflowThreshold < (10 : ℚ) ^ (maxExponent + 1) := by
  have hunit : (0 : ℚ) < 10 ^ (maxExponent + 1 - precision) := by positivity
  rw [overflowThreshold_eq]
  linarith

/-- All numbers whose leading digit stands below the last possible place are accepted. -/
theorem lt_overflowThreshold : (10 : ℚ) ^ maxExponent < overflowThreshold := by
  have hunit : (10 : ℚ) ^ (maxExponent + 1 - precision) ≤ 10 ^ maxExponent :=
    zpow_le_zpow_right₀ (by norm_num) (by decide)
  have hstep : (10 : ℚ) ^ (maxExponent + 1) = 10 ^ maxExponent * 10 :=
    zpow_add_one₀ (by norm_num) _
  have hpos : (0 : ℚ) < 10 ^ maxExponent := by positivity
  rw [overflowThreshold_eq, hstep]
  linarith

/-- Well below the largest number there is nothing to refuse, whatever is cut off. -/
theorem round_returns_of_lt (negative : Bool) {coefficient : Nat} {exponent : Int}
    (h : digitCount coefficient + exponent ≤ maxExponent) :
    Returns (round negative coefficient exponent) := by
  have hleast : leastExponent + precision ≤ maxExponent := by decide
  have hlast : lastKept coefficient exponent + precision ≤ maxExponent := by
    unfold lastKept
    omega
  unfold round
  dsimp only
  -- Zero, a coefficient that is kept, one that carries to a power of ten when it is cut, and any other one.
  split
  · exact ⟨_, rfl⟩
  · rw [if_neg (by omega)]
    split
    · exact ⟨_, rfl⟩
    · split
      · rw [if_neg (by omega)]
        exact ⟨_, rfl⟩
      · exact ⟨_, rfl⟩

theorem magnitude_lt_overflowThreshold_of_le {coefficient : Nat} {exponent : Int}
    (h : digitCount coefficient + exponent = maxExponent + 1)
    (hshort : maxExponent + 1 - precision ≤ exponent) :
    magnitude coefficient exponent < overflowThreshold := by
  have hdigits : (coefficient : ℚ) + 1 ≤ 10 ^ digitCount coefficient := by
    rw [← cast_tenTo]
    exact_mod_cast lt_tenTo_digitCount coefficient
  have hscale : (10 : ℚ) ^ (maxExponent + 1) = 10 ^ digitCount coefficient * 10 ^ exponent := by
    rw [← h, zpow_add₀ (by norm_num), zpow_natCast]
  have hunit : (0 : ℚ) < 10 ^ (maxExponent + 1 - precision) := by positivity
  -- One unit of the last place is as much as the gap below the threshold, or more.
  have hlarger : (10 : ℚ) ^ (maxExponent + 1 - precision) ≤ 10 ^ exponent :=
    zpow_le_zpow_right₀ (by norm_num) hshort
  have hproduct := mul_le_mul_of_nonneg_right hdigits (hunit.trans_le hlarger).le
  rw [add_mul, one_mul] at hproduct
  rw [overflowThreshold_eq, hscale, magnitude]
  linarith

/-- In whole numbers: the digits that are cut off do not carry the coefficient up to a power of ten. -/
theorem magnitude_lt_overflowThreshold_iff {coefficient places : Nat} {exponent : Int}
    (h : exponent + places = maxExponent + 1 - precision) :
    magnitude coefficient exponent < overflowThreshold ↔
      2 * coefficient + tenTo places < 2 * (tenTo precision * tenTo places) := by
  have hpos : (0 : ℚ) < 10 ^ exponent := by positivity
  have hthreshold : overflowThreshold = (10 ^ precision - 1 / 2) * 10 ^ places * 10 ^ exponent := by
    rw [overflowThreshold, ← h, zpow_add₀ (by norm_num), zpow_natCast]
    ring
  rw [magnitude, hthreshold, mul_lt_mul_iff_left₀ hpos, ← Nat.cast_lt (α := ℚ)]
  push_cast
  rw [cast_tenTo, cast_tenTo]
  constructor <;> intro hlt <;> linarith

/-- At the last possible place of the leading digit, a number is refused only if rounding carries into a new
digit. -/
theorem round_returns_of_eq (negative : Bool) {coefficient : Nat} {exponent : Int}
    (hcoefficient : coefficient ≠ 0) (h : digitCount coefficient + exponent = maxExponent + 1) :
    Returns (round negative coefficient exponent) ↔
      magnitude coefficient exponent < overflowThreshold := by
  have hleast : leastExponent + precision ≤ maxExponent := by decide
  have hlast : lastKept coefficient exponent = maxExponent + 1 - precision := by
    unfold lastKept
    omega
  unfold round
  dsimp only
  rw [if_neg hcoefficient, if_neg (by omega), hlast]
  split
  · next hshort => exact iff_of_true ⟨_, rfl⟩ (magnitude_lt_overflowThreshold_of_le h hshort)
  · next hlong =>
      obtain ⟨places, hplaces⟩ :=
        Int.le.dest (show exponent ≤ maxExponent + 1 - precision by omega)
      have hdigits : digitCount coefficient = precision + places := by omega
      have hsmall : coefficient < tenTo precision * tenTo places := by
        rw [← tenTo_add, ← hdigits]
        exact lt_tenTo_digitCount coefficient
      -- Exactly the digits beyond the precision are dropped.
      have hkept : dropDigits coefficient places = roundQuotient coefficient places :=
        if_neg (by omega)
      have hcarried := (roundQuotient_eq_iff hsmall (by decide)).not
      rw [not_le] at hcarried
      rw [magnitude_lt_overflowThreshold_iff hplaces, ← hcarried, ← hplaces,
        show (exponent + places - exponent).toNat = places by omega, hkept]
      split
      -- Carried up to the next power of ten, the coefficient has one digit too many for the last place.
      · next hup =>
          rw [if_pos (by omega)]
          simp [hup]
      · next hkept => simp [hkept]

theorem magnitude_zero_lt_overflowThreshold (exponent : Int) :
    magnitude 0 exponent < overflowThreshold := by
  have hpower : (0 : ℚ) < 10 ^ maxExponent := by positivity
  simpa [magnitude] using hpower.trans lt_overflowThreshold

/-- Rounding refuses the numbers at and beyond the threshold and no others. -/
theorem round_returns_iff (negative : Bool) (coefficient : Nat) (exponent : Int) :
    Returns (round negative coefficient exponent) ↔
      magnitude coefficient exponent < overflowThreshold := by
  by_cases hzero : coefficient = 0
  · exact iff_of_true ⟨_, if_pos hzero⟩ (hzero ▸ magnitude_zero_lt_overflowThreshold exponent)
  -- Only numbers whose leading digit stands at the last possible place need a closer look.
  rcases lt_trichotomy (digitCount coefficient + exponent) (maxExponent + 1) with
    hbelow | hlast | hbeyond
  · have hmagnitude : magnitude coefficient exponent < 10 ^ maxExponent :=
      (magnitude_lt _ _).trans_le (zpow_le_zpow_right₀ (by norm_num) (by omega))
    exact iff_of_true (round_returns_of_lt negative (by omega))
      (hmagnitude.trans lt_overflowThreshold)
  · exact round_returns_of_eq negative hzero hlast
  · have hmagnitude : (10 : ℚ) ^ (maxExponent + 1) ≤ magnitude coefficient exponent :=
      (zpow_le_zpow_right₀ (by norm_num) (by omega)).trans (le_magnitude hzero exponent)
    refine iff_of_false ?_ (overflowThreshold_lt.trans_le hmagnitude).le.not_gt
    unfold round
    rw [if_neg hzero, if_pos (by omega)]
    simp

theorem roundQuotient_le {n places bound : Nat} (h : n < bound * tenTo places) :
    roundQuotient n places ≤ bound := by
  have hquotient : n / tenTo places < bound := (Nat.div_lt_iff_lt_mul (tenTo_pos places)).2 h
  unfold roundQuotient
  dsimp only
  split <;> omega

theorem dropDigits_le {coefficient places : Nat}
    (h : digitCount coefficient ≤ precision + places) :
    dropDigits coefficient places ≤ tenTo precision := by
  unfold dropDigits
  split
  · exact Nat.zero_le _
  · refine roundQuotient_le ?_
    rw [← tenTo_add]
    exact (lt_tenTo_digitCount coefficient).trans_le (Nat.pow_le_pow_right (by decide) h)

theorem magnitude_lt_overflowThreshold_of_lt {coefficient : Nat} {exponent : Int}
    (hcoefficient : coefficient < tenTo precision)
    (hexponent : exponent ≤ maxExponent + 1 - precision) :
    magnitude coefficient exponent < overflowThreshold := by
  have hdigits : (coefficient : ℚ) + 1 ≤ 10 ^ precision := by
    rw [← cast_tenTo]
    exact_mod_cast hcoefficient
  have hunit : (0 : ℚ) < 10 ^ (maxExponent + 1 - precision) := by positivity
  have hscale : (coefficient : ℚ) * 10 ^ exponent ≤
      coefficient * 10 ^ (maxExponent + 1 - precision) :=
    mul_le_mul_of_nonneg_left (zpow_le_zpow_right₀ (by norm_num) hexponent) (Nat.cast_nonneg _)
  have hproduct := mul_le_mul_of_nonneg_right hdigits hunit.le
  rw [add_mul, one_mul] at hproduct
  rw [magnitude, overflowThreshold, sub_mul]
  linarith

/-- What has been rounded can be rounded again. -/
theorem magnitude_lt_of_round {negative sign : Bool} {coefficient kept : Nat} {exponent last : Int}
    (h : round negative coefficient exponent = .ok (finite sign kept last)) :
    magnitude kept last < overflowThreshold := by
  have hreturns := (round_returns_iff negative coefficient exponent).1 ⟨_, h⟩
  have hleast : leastExponent ≤ maxExponent + 1 - precision := by decide
  unfold round at h
  dsimp only at h
  split at h
  · simp only [Except.ok.injEq, finite.injEq] at h
    obtain ⟨-, rfl, -⟩ := h
    exact magnitude_zero_lt_overflowThreshold _
  split at h
  · cases h
  split at h
  · simp only [Except.ok.injEq, finite.injEq] at h
    obtain ⟨-, rfl, rfl⟩ := h
    exact hreturns
  -- From here on digits have been dropped, and what is left has at most one digit more than the precision
  -- allows, namely after a carry.
  have hdigits : digitCount coefficient ≤
      precision + (lastKept coefficient exponent - exponent).toNat := by
    unfold lastKept
    omega
  have hkept := dropDigits_le hdigits
  split at h
  · split at h
    · cases h
    · simp only [Except.ok.injEq, finite.injEq] at h
      obtain ⟨-, rfl, rfl⟩ := h
      exact magnitude_lt_overflowThreshold_of_lt (by decide) (by omega)
  · simp only [Except.ok.injEq, finite.injEq] at h
    obtain ⟨-, rfl, rfl⟩ := h
    refine magnitude_lt_overflowThreshold_of_lt (by omega) ?_
    unfold lastKept
    omega

/-! ## Showing numbers -/

/-- The number can be shown in a calculation: it is no signaling number and no whole number beyond the
range of results. -/
def Writable : Decimal → Prop
  | finite _ coefficient exponent =>
      isWholeMultiple coefficient exponent = true →
        magnitude coefficient exponent < overflowThreshold
  | infinite _ => True
  | nan _ signaling _ => signaling = false

theorem normalize_returns_iff (negative : Bool) (coefficient : Nat) (exponent : Int) :
    Returns (finite negative coefficient exponent).normalize ↔
      magnitude coefficient exponent < overflowThreshold := by
  rw [← round_returns_iff negative]
  unfold normalize
  dsimp only
  generalize round negative coefficient exponent = rounded
  split <;> simp

/-- To show a number is to normalize it if it is whole, which is the one step that can fail. -/
theorem shown_returns_iff (x : Decimal) : Returns x.shown ↔ x.Writable := by
  cases x with
  | finite negative coefficient exponent =>
      rw [Writable, ← normalize_returns_iff negative]
      simp only [shown, isWhole?, returns_bind_iff, Except.ok.injEq, exists_eq_left']
      cases isWholeMultiple coefficient exponent with
      | false => simp
      | true => simp
  | infinite negative => exact iff_of_true ⟨_, rfl⟩ trivial
  | nan negative signaling payload =>
      -- An undefined number that signals cannot even be tested for being whole.
      cases signaling
      · exact iff_of_true ⟨_, rfl⟩ rfl
      · exact iff_of_false (fun ⟨_, h⟩ => by cases h) (by simp [Writable])

/-! ## Results of arithmetic -/

/-- The number is a result of arithmetic: a finite one has been rounded, and an undefined one is quiet. -/
def Rounded : Decimal → Prop
  | finite negative coefficient exponent =>
      ∃ sign exact place, round sign exact place = .ok (finite negative coefficient exponent)
  | infinite _ => True
  | nan _ signaling _ => signaling = false

/-- Rounding yields finite numbers only, each of them a rounded one. -/
theorem Rounded.of_round {negative : Bool} {coefficient : Nat} {exponent : Int} {x : Decimal}
    (h : round negative coefficient exponent = .ok x) : x.Rounded := by
  cases x with
  | finite sign kept last => exact ⟨negative, coefficient, exponent, h⟩
  | infinite sign => trivial
  | nan sign signaling payload => exact absurd (round_isFinite h) (by simp [isFinite])

theorem Rounded.of_undefinedOperand {x y z : Decimal} (h : undefinedOperand? x y = some (.ok z)) :
    z.Rounded := by
  unfold undefinedOperand? at h
  split at h <;> cases h <;> rfl

/-- A sum is an infinity, an undefined number that is quiet, or rounded once at the end. -/
theorem Rounded.of_add {x y z : Decimal} (h : x.add y = .ok z) : z.Rounded := by
  unfold add at h
  -- Infinite operands give no finite sum; finite ones are rounded, whichever has the larger exponent.
  split at h
  · next hundefined => exact .of_undefinedOperand (h ▸ hundefined)
  · split at h
    · split at h <;> cases h
      trivial
    · cases h
      trivial
    · cases h
      trivial
    · dsimp only at h
      split at h <;> split at h <;> exact .of_round h
    · cases h

theorem Rounded.of_sub {x y z : Decimal} (h : x.sub y = .ok z) : z.Rounded := by
  unfold sub at h
  split at h
  · next hundefined => exact .of_undefinedOperand (h ▸ hundefined)
  · exact .of_add h

theorem Rounded.of_mul {x y z : Decimal} (h : x.mul y = .ok z) : z.Rounded := by
  unfold mul at h
  split at h
  · next hundefined => exact .of_undefinedOperand (h ▸ hundefined)
  · split at h
    · exact .of_round h
    · split at h <;> cases h
      trivial
    · split at h <;> cases h
      trivial
    · cases h
      trivial
    · cases h

theorem Rounded.of_div {x y z : Decimal} (h : x.div y = .ok z) : z.Rounded := by
  unfold div at h
  split at h
  · next hundefined => exact .of_undefinedOperand (h ▸ hundefined)
  · split at h
    · split at h
      · cases h
      · split at h
        · exact .of_round h
        · exact .of_round h
    · cases h
      trivial
    · cases h
      exact ⟨_, 0, leastExponent, rfl⟩
    · cases h

theorem rounded_zero : zero.Rounded :=
  ⟨false, 0, 0, rfl⟩

theorem rounded_one : one.Rounded :=
  ⟨false, 1, 0, by decide +kernel⟩

/-- Every step of a sum is rounded, so the whole is. -/
theorem Rounded.of_sum {xs : List Decimal} {x : Decimal} (h : sum xs = .ok x) : x.Rounded :=
  foldlM_invariant (fun _ => Rounded) rounded_zero (fun _ _ _ _ _ _ _ hadd => .of_add hadd) h

theorem Rounded.of_product {xs : List Decimal} {x : Decimal} (h : product xs = .ok x) : x.Rounded :=
  foldlM_invariant (fun _ => Rounded) rounded_one (fun _ _ _ _ _ _ _ hmul => .of_mul hmul) h

/-- Results of arithmetic can be shown: rounding has accepted them once and accepts them again. -/
theorem Rounded.writable {x : Decimal} (h : x.Rounded) : x.Writable := by
  cases x with
  | finite negative coefficient exponent =>
      obtain ⟨sign, exact, place, hround⟩ := h
      exact fun _ => magnitude_lt_of_round hround
  | infinite negative => trivial
  | nan negative signaling payload => exact h

theorem writable_zero : zero.Writable :=
  rounded_zero.writable

end Decimal
end Appraisal
