import Appraisal.Proofs.Decimal.Finite
import Appraisal.Proofs.Decimal.Nearest
import Mathlib.Data.Nat.Cast.Field
import Mathlib.Tactic.LinearCombination

/-!
# Results are rounded once

The result of an operation on finite numbers is the exact result of the same operation on rational numbers,
rounded to the nearest number that can be held.  A sum of numbers of very different size and a quotient that
does not come out even are not computed exactly; the digits that stand in for the missing ones are chosen so
that rounding cannot tell the difference.
-/

namespace Appraisal
namespace Decimal

open Text (digitCount)

variable {p q : ℚ} {x y z : Decimal} {unit gap : Int}

/-! ## Rounding a coefficient -/

/-- The logarithm that places are computed with counts digits. -/
theorem log_magnitude {c : Nat} (hc : c ≠ 0) (e : Int) :
    Int.log 10 (magnitude c e) = digitCount c + e - 1 := by
  have hpos := magnitude_pos hc e
  have hlow := (zpow_le_iff_le_log hpos _).1 (le_magnitude hc e)
  have hhigh := (zpow_le_iff_le_log hpos _).not.1 (not_le.2 (magnitude_lt c e))
  omega

/-- The place of the exact theory is the one that rounding computes from the digits. -/
theorem place_magnitude {c : Nat} (hc : c ≠ 0) (e : Int) :
    place (magnitude c e) = lastKept c e := by
  unfold place lastKept
  rw [abs_of_pos (magnitude_pos hc e), log_magnitude hc]
  congr 2
  omega

/-- The nearest integer to a quotient, found by comparing the remainder with half the divisor. -/
theorem isNearest_div_iff {n k d : Nat} (hd : 0 < d) :
    IsNearest ((n : ℚ) / d) k ↔ 2 * (k * d) ≤ 2 * n + d ∧ 2 * n ≤ 2 * (k * d) + d ∧
      (2 * (k * d) = 2 * n + d ∨ 2 * n = 2 * (k * d) + d → k % 2 = 0) := by
  have hpos : (0 : ℚ) < d := by exact_mod_cast hd
  -- All four comparisons are multiplied by the denominator and become comparisons of natural numbers.
  have hlow : ((k : Int) : ℚ) - 1 / 2 ≤ n / d ↔ 2 * (k * d) ≤ 2 * n + d := by
    rw [le_div_iff₀ hpos, ← Nat.cast_le (α := ℚ)]
    push_cast
    constructor <;> intro h <;> linarith
  have hhigh : (n : ℚ) / d ≤ ((k : Int) : ℚ) + 1 / 2 ↔ 2 * n ≤ 2 * (k * d) + d := by
    rw [div_le_iff₀ hpos, ← Nat.cast_le (α := ℚ)]
    push_cast
    constructor <;> intro h <;> linarith
  have hlowTie : (n : ℚ) / d = ((k : Int) : ℚ) - 1 / 2 ↔ 2 * (k * d) = 2 * n + d := by
    rw [div_eq_iff hpos.ne', ← Nat.cast_inj (R := ℚ)]
    push_cast
    constructor <;> intro h <;> linarith
  have hhighTie : (n : ℚ) / d = ((k : Int) : ℚ) + 1 / 2 ↔ 2 * n = 2 * (k * d) + d := by
    rw [div_eq_iff hpos.ne', ← Nat.cast_inj (R := ℚ)]
    push_cast
    constructor <;> intro h <;> linarith
  have heven : (k : Int) % 2 = 0 ↔ k % 2 = 0 := by omega
  rw [← hlow, ← hhigh, ← hlowTie, ← hhighTie, ← heven]
  exact ⟨fun h => ⟨h.low, h.high, h.even⟩, fun h => ⟨h.1, h.2.1, h.2.2⟩⟩

/-- Comparing twice the remainder with the unit is rounding to the nearest integer. -/
theorem nearestInt_div_tenTo (n places : Nat) :
    nearestInt (n / 10 ^ places) = roundQuotient n places := by
  have hsplit := Nat.div_add_mod' n (tenTo places)
  have hrest := Nat.mod_lt n (tenTo_pos places)
  rw [← cast_tenTo, nearestInt_eq_iff, isNearest_div_iff (tenTo_pos places)]
  unfold roundQuotient
  dsimp only
  split
  · rw [Nat.succ_mul (n / tenTo places)]
    omega
  · omega

/-- Also where all digits are dropped at once, the nearest integer is what remains. -/
theorem nearestInt_dropDigits (c places : Nat) :
    nearestInt (c / 10 ^ places) = dropDigits c places := by
  unfold dropDigits
  split
  · next hfew =>
      -- With fewer digits than are dropped, the number is less than a tenth of a unit.
      have hsmall : c * 10 < tenTo places := calc
        c * 10 < tenTo (digitCount c) * 10 :=
          Nat.mul_lt_mul_of_pos_right (lt_tenTo_digitCount c) (by decide)
        _ = tenTo (digitCount c + 1) := rfl
        _ ≤ tenTo places := Nat.pow_le_pow_right (by decide) hfew
      rw [← cast_tenTo, nearestInt_eq_iff, isNearest_div_iff (tenTo_pos places)]
      omega
  · exact nearestInt_div_tenTo c places

/-- A number whose digits are all kept can be held. -/
theorem nearest_magnitude_of_le {c : Nat} {e : Int} (hc : c ≠ 0) (h : lastKept c e ≤ e) :
    nearest (magnitude c e) = magnitude c e := by
  refine nearest_eq_of_units (n := (c * tenTo (e - lastKept c e).toNat : Nat)) ?_
  rw [place_magnitude hc, magnitude_eq_mul_of_le c h]
  push_cast
  rfl

/-- A number with too many digits becomes the one with its last digits dropped. -/
theorem nearest_magnitude_of_lt {c : Nat} {e : Int} (hc : c ≠ 0) (h : e < lastKept c e) :
    nearest (magnitude c e) = magnitude (dropDigits c (lastKept c e - e).toNat) (lastKept c e) := by
  have hscaled : magnitude c e / 10 ^ lastKept c e = c / 10 ^ (lastKept c e - e).toNat := by
    rw [div_eq_div_iff (by positivity) (by positivity), magnitude, mul_assoc, ← zpow_natCast,
      ← zpow_add₀ (by norm_num)]
    congr 2
    omega
  unfold nearest
  rw [place_magnitude hc, hscaled, nearestInt_dropDigits, magnitude, Int.cast_natCast]

/-- What is rounded to the working precision is rounded to the nearest number that can be held. -/
theorem value_round {negative : Bool} {c : Nat} {e : Int} (h : round negative c e = .ok z) :
    z.value = nearest (finite negative c e).value := by
  -- Rounding works on the magnitude and hands the sign on.
  have hsign : ∀ (d : Nat) (f : Int), magnitude d f = nearest (magnitude c e) →
      (finite negative d f).value = nearest (finite negative c e).value := by
    intro d f hmagnitude
    rw [value_finite, value_finite, hmagnitude]
    cases negative <;> simp
  unfold round at h
  dsimp only at h
  split at h
  · next hzero =>
      obtain rfl := Except.ok.inj h
      exact hsign _ _ (by simp [hzero])
  next hc =>
  split at h
  · cases h
  split at h
  · next hshort =>
      obtain rfl := Except.ok.inj h
      exact hsign _ _ (nearest_magnitude_of_le hc hshort).symm
  next hlong =>
  have hnearest := nearest_magnitude_of_lt hc (not_le.1 hlong)
  split at h
  · next hcarry =>
      split at h
      · cases h
      · obtain rfl := Except.ok.inj h
        refine hsign _ _ ?_
        rw [hnearest, hcarry]
        exact (magnitude_mul_tenTo (tenTo (precision - 1)) 1 (lastKept c e)).symm
  · obtain rfl := Except.ok.inj h
    exact hsign _ _ hnearest.symm

/-! ## Numbers that rounding cannot tell apart -/

/-- The number lies strictly between two neighbouring multiples of five units of a place. -/
def Between (gap unit : Int) (q : ℚ) : Prop :=
  5 * (gap : ℚ) * 10 ^ unit < q ∧ q < 5 * ((gap + 1 : Int) : ℚ) * 10 ^ unit

theorem Between.neg (h : Between gap unit q) : Between (-gap - 1) unit (-q) := by
  obtain ⟨hlow, hhigh⟩ := h
  push_cast at hhigh
  constructor
  · push_cast
    linarith
  · push_cast
    linarith

theorem five_mul_le {m n : Int} (h : m ≤ n) (unit : Int) :
    5 * (m : ℚ) * 10 ^ unit ≤ 5 * (n : ℚ) * 10 ^ unit := by
  have hcast : (m : ℚ) ≤ n := by exact_mod_cast h
  have hunit : (0 : ℚ) < 10 ^ unit := by positivity
  exact mul_le_mul_of_nonneg_right (by linarith) hunit.le

/-- No multiple of five units stands apart from the two neighbouring ones. -/
theorem Between.lt_or_gt (h : Between gap unit q) (m : Int) :
    (m ≤ gap ∧ 5 * (m : ℚ) * 10 ^ unit < q) ∨ (gap < m ∧ q < 5 * (m : ℚ) * 10 ^ unit) := by
  rcases le_or_gt m gap with hle | hlt
  · exact .inl ⟨hle, (five_mul_le hle unit).trans_lt h.1⟩
  · exact .inr ⟨hlt, h.2.trans_le (five_mul_le hlt unit)⟩

/-- Half a unit of a higher place is a multiple of five units. -/
theorem exists_half_mul_zpow {k : Int} (h : unit < k) (m : Int) :
    ∃ n : Int, (m : ℚ) / 2 * 10 ^ k = 5 * (n : ℚ) * 10 ^ unit := by
  obtain ⟨more, hmore⟩ := Int.le.dest (Int.add_one_le_iff.2 h)
  refine ⟨m * 10 ^ more, ?_⟩
  rw [← hmore, zpow_add₀ (by norm_num), zpow_add_one₀ (by norm_num), zpow_natCast]
  push_cast
  ring

/-- Two numbers lie between the same two multiples of five units far below their leading digits. -/
structure Alike (unit : Int) (p q : ℚ) : Prop where
  between : ∃ gap, Between gap unit p ∧ Between gap unit q
  /-- Their leading digits stand at least 28 places above the unit. -/
  large : 10 ^ (unit + precision) ≤ |p|

theorem Alike.neg (h : Alike unit p q) : Alike unit (-p) (-q) := by
  obtain ⟨⟨gap, hp, hq⟩, hlarge⟩ := h
  exact ⟨⟨_, hp.neg, hq.neg⟩, by rwa [abs_neg]⟩

/-- Both numbers stand on the same side of half the units of a higher place. -/
theorem Alike.half_iff (h : Alike unit p q) {k : Int} (hk : unit < k) (m : Int) :
    ((m : ℚ) / 2 * 10 ^ k ≤ p ↔ (m : ℚ) / 2 * 10 ^ k ≤ q) ∧
      (p ≤ (m : ℚ) / 2 * 10 ^ k ↔ q ≤ (m : ℚ) / 2 * 10 ^ k) := by
  obtain ⟨gap, hp, hq⟩ := h.between
  obtain ⟨n, hn⟩ := exists_half_mul_zpow hk m
  rw [hn]
  rcases hp.lt_or_gt n with ⟨hle, hlt⟩ | ⟨hgt, hlt⟩
  · have hother := ((hq.lt_or_gt n).resolve_right (fun h => by omega)).2
    exact ⟨iff_of_true hlt.le hother.le, iff_of_false hlt.not_ge hother.not_ge⟩
  · have hother := ((hq.lt_or_gt n).resolve_left (fun h => by omega)).2
    exact ⟨iff_of_false hlt.not_ge hother.not_ge, iff_of_true hlt.le hother.le⟩

/-- Powers of ten above the unit do not fall between the two numbers, since they are multiples of five units.
-/
theorem Alike.zpow_le_iff (h : Alike unit p q) {k : Int} (hk : unit < k) :
    (10 : ℚ) ^ k ≤ |p| ↔ (10 : ℚ) ^ k ≤ |q| := by
  have hhigh := (h.half_iff hk 2).1
  have hlow := (h.half_iff hk (-2)).2
  rw [show ((2 : Int) : ℚ) / 2 * 10 ^ k = 10 ^ k by push_cast; ring] at hhigh
  rw [show ((-2 : Int) : ℚ) / 2 * 10 ^ k = -10 ^ k by push_cast; ring] at hlow
  rw [le_abs, le_abs, le_neg (b := p), le_neg (b := q), hhigh, hlow]

theorem Alike.symm (h : Alike unit p q) : Alike unit q p := by
  obtain ⟨gap, hp, hq⟩ := h.between
  refine ⟨⟨gap, hq, hp⟩, (h.zpow_le_iff ?_).1 h.large⟩
  rw [show precision = 28 from rfl]
  omega

theorem Alike.lt_log (h : Alike unit p q) : unit + precision ≤ Int.log 10 |p| := by
  have hpos : 0 < |p| := lt_of_lt_of_le (by positivity) h.large
  exact (zpow_le_iff_le_log hpos _).1 h.large

theorem Alike.log_le (h : Alike unit p q) : Int.log 10 |p| ≤ Int.log 10 |q| := by
  have hlog := h.lt_log
  have hp : 0 < |p| := lt_of_lt_of_le (by positivity) h.large
  have hq : 0 < |q| := lt_of_lt_of_le (by positivity) h.symm.large
  have hprecision : (precision : Int) = 28 := rfl
  refine (zpow_le_iff_le_log hq _).1 ((h.zpow_le_iff (by omega)).1 ?_)
  exact (zpow_le_iff_le_log hp _).2 le_rfl

/-- The two numbers have as many digits, so they are rounded at one place. -/
theorem Alike.place_eq (h : Alike unit p q) : place p = place q := by
  unfold place
  rw [le_antisymm h.log_le h.symm.log_le]

/-- Neither an integer nor a half of the grid lies between the two numbers. -/
theorem Alike.isNearest (h : Alike unit p q) {k n : Int} (hk : unit < k)
    (hn : IsNearest (p / 10 ^ k) n) : IsNearest (q / 10 ^ k) n := by
  have hpos : (0 : ℚ) < 10 ^ k := by positivity
  have hlow := h.half_iff hk (2 * n - 1)
  have hhigh := h.half_iff hk (2 * n + 1)
  rw [show (((2 * n - 1 : Int) : ℚ)) / 2 = n - 1 / 2 by push_cast; ring, ← le_div_iff₀ hpos,
    ← le_div_iff₀ hpos, ← div_le_iff₀ hpos, ← div_le_iff₀ hpos] at hlow
  rw [show (((2 * n + 1 : Int) : ℚ)) / 2 = n + 1 / 2 by push_cast; ring, ← le_div_iff₀ hpos,
    ← le_div_iff₀ hpos, ← div_le_iff₀ hpos, ← div_le_iff₀ hpos] at hhigh
  refine ⟨hlow.1.1 hn.low, hhigh.2.1 hn.high, fun htie => hn.even (htie.imp ?_ ?_)⟩
  · exact fun heq => le_antisymm (hlow.2.2 heq.le) (hlow.1.2 heq.ge)
  · exact fun heq => le_antisymm (hhigh.2.2 heq.le) (hhigh.1.2 heq.ge)

/-- A mark for what has been cut off is as good as the digits themselves. -/
theorem Alike.nearest_eq (h : Alike unit p q) : nearest p = nearest q := by
  have hplace : unit < place q := by
    have hlog := h.symm.lt_log
    have hprecision : (precision : Int) = 28 := rfl
    unfold place
    omega
  unfold nearest
  rw [h.place_eq, nearestInt_eq_iff.2 (h.symm.isNearest hplace (isNearest_nearestInt _))]

/-- Rounding cannot tell the numbers apart. -/
def Indistinct (p q : ℚ) : Prop :=
  p = q ∨ ∃ unit, Alike unit p q

/-- Numbers that cannot be told apart are rounded to one number. -/
theorem Indistinct.nearest_eq (h : Indistinct p q) : nearest p = nearest q := by
  rcases h with rfl | ⟨unit, halike⟩
  · rfl
  · exact halike.nearest_eq

theorem Indistinct.neg (h : Indistinct p q) : Indistinct (-p) (-q) :=
  h.imp (congrArg _) fun ⟨unit, halike⟩ => ⟨unit, halike.neg⟩

/-- Numbers that rounding cannot tell apart have their leading digits at the same place. -/
theorem Indistinct.zpow_le_iff (h : Indistinct p q) (k : Int) :
    (10 : ℚ) ^ k ≤ |p| ↔ (10 : ℚ) ^ k ≤ |q| := by
  rcases h with rfl | ⟨unit, halike⟩
  · rfl
  rcases lt_or_ge unit k with hk | hk
  · exact halike.zpow_le_iff hk
  · have hbelow : (10 : ℚ) ^ k ≤ 10 ^ (unit + precision) :=
      zpow_le_zpow_right₀ (by norm_num) (by omega)
    exact iff_of_true (hbelow.trans halike.large) (hbelow.trans halike.symm.large)

/-! ## What an operation rounds to -/

/-- The answer is the exact number, rounded once. -/
def RoundsTo (answer : Except Signal Decimal) (q : ℚ) : Prop :=
  ∃ negative coefficient exponent, answer = round negative coefficient exponent ∧
    Indistinct (finite negative coefficient exponent).value q

/-- Every result that there is, is the exact number rounded once. -/
theorem RoundsTo.of_ok {answer : Except Signal Decimal} (h : RoundsTo answer q)
    (hz : answer = .ok z) : z.isFinite = true ∧ z.value = nearest q := by
  obtain ⟨negative, coefficient, exponent, hround, hindistinct⟩ := h
  rw [hround] at hz
  exact ⟨round_isFinite hz, (value_round hz).trans hindistinct.nearest_eq⟩

/-- An exact number in the range of exponents has an answer. -/
theorem RoundsTo.exists_ok {answer : Except Signal Decimal} (h : RoundsTo answer q)
    (hq : |q| < 10 ^ maxExponent) :
    ∃ z, answer = .ok z ∧ z.isFinite = true ∧ z.value = nearest q := by
  have hreturns : Returns answer := by
    obtain ⟨negative, coefficient, exponent, rfl, hindistinct⟩ := h
    have hrange := (hindistinct.zpow_le_iff maxExponent).not.2 hq.not_ge
    rw [abs_value_finite, not_le] at hrange
    exact (round_returns_iff ..).2 (hrange.trans lt_overflowThreshold)
  obtain ⟨z, hz⟩ := hreturns
  exact ⟨z, hz, h.of_ok hz⟩

/-! ## Products -/

theorem value_mul_finite (s : Bool) (c : Nat) (e : Int) (t : Bool) (d : Nat) (f : Int) :
    (finite (s ^^ t) (c * d) (e + f)).value = (finite s c e).value * (finite t d f).value := by
  have hmagnitude : magnitude (c * d) (e + f) = magnitude c e * magnitude d f := by
    unfold magnitude
    rw [zpow_add₀ (by norm_num)]
    push_cast
    ring
  rw [value_finite, value_finite, value_finite, hmagnitude]
  cases s <;> cases t <;> simp

/-- A product is computed exactly and then rounded. -/
theorem roundsTo_mul (hx : x.isFinite = true) (hy : y.isFinite = true) :
    RoundsTo (x.mul y) (x.value * y.value) := by
  unfold Decimal.mul
  rw [undefinedOperand?_eq_none hx hy]
  obtain ⟨s, c, e, rfl⟩ := exists_finite hx
  obtain ⟨t, d, f, rfl⟩ := exists_finite hy
  exact ⟨s ^^ t, c * d, e + f, rfl, .inl (value_mul_finite s c e t d f)⟩

/-! ## Sums and differences -/

theorem value_of_sign_natAbs (n : Int) (e : Int) :
    (finite (decide (n < 0)) n.natAbs e).value = n * 10 ^ e := by
  have hsigned : signed (decide (n < 0)) n.natAbs = n := by
    unfold signed
    by_cases hneg : n < 0
    · simp only [hneg, decide_true, if_true]
      omega
    · simp only [hneg, decide_false, Bool.false_eq_true, if_false]
      omega
  rw [value, hsigned]

theorem zpow_split (e f : Int) (h : f ≤ e) : (10 : ℚ) ^ e = tenTo (e - f).toNat * 10 ^ f := by
  rw [cast_tenTo, ← zpow_natCast, ← zpow_add₀ (by norm_num)]
  congr 1
  omega

theorem tenTo_le_abs {n : Int} (h : n ≠ 0) (e : Int) :
    (10 : ℚ) ^ (digitCount n.natAbs + e - 1) ≤ |(n : ℚ) * 10 ^ e| := by
  have hlow := le_magnitude (Int.natAbs_ne_zero.2 h) e
  rw [abs_mul, abs_of_pos (show (0 : ℚ) < 10 ^ e by positivity), ← Int.cast_abs,
    Int.abs_eq_natAbs]
  exact hlow

theorem abs_lt_of_digits {low : Int} {f least : Int} (h : digitCount low.natAbs + f - 1 < least) :
    |(low : ℚ) * 10 ^ f| < 10 ^ least := by
  have hlt := magnitude_lt low.natAbs f
  rw [abs_mul, abs_of_pos (show (0 : ℚ) < 10 ^ f by positivity), ← Int.cast_abs, Int.abs_eq_natAbs]
  exact hlt.trans_le (zpow_le_zpow_right₀ (by norm_num) (by omega))

/-- A part that lies below the unit of ten others decides on which side of them the sum lies; one unit of its
sign decides it in the same way. -/
theorem between_sign (tens : Int) {low : Int} {part : ℚ} (hlow : low ≠ 0)
    (hsign : 0 < part ↔ 0 < low) (hpart : part ≠ 0) (hsmall : |part| < 10 ^ unit) :
    ∃ gap, Between gap unit (((tens * 10 + low.sign : Int) : ℚ) * 10 ^ unit) ∧
      Between gap unit (((tens * 10 : Int) : ℚ) * 10 ^ unit + part) := by
  have hunit : (0 : ℚ) < 10 ^ unit := by positivity
  obtain ⟨hbelow, habove⟩ := abs_lt.1 hsmall
  unfold Between
  rcases lt_or_gt_of_ne hlow with hneg | hpos
  · have hpartNeg : part < 0 := lt_of_le_of_ne (not_lt.1 (mt hsign.1 (by omega))) hpart
    rw [Int.sign_eq_neg_one_of_neg hneg]
    refine ⟨tens * 2 - 1, ⟨?_, ?_⟩, ?_, ?_⟩ <;> push_cast <;> linarith
  · have hpartPos : 0 < part := hsign.2 hpos
    rw [Int.sign_eq_one_of_pos hpos]
    refine ⟨tens * 2, ⟨?_, ?_⟩, ?_, ?_⟩ <;> push_cast <;> linarith

/-- A part of at most one unit takes no more than one of its 29 digits away from a number. -/
theorem zpow_le_abs_add {whole part : ℚ} (hwhole : 10 ^ (unit + precision + 1) ≤ |whole|)
    (hpart : |part| ≤ 10 ^ unit) : 10 ^ (unit + precision) ≤ |whole + part| := by
  have hunit : (0 : ℚ) < 10 ^ unit := by positivity
  have htriangle := abs_sub_abs_le_abs_sub whole (-part)
  rw [abs_neg, sub_neg_eq_add] at htriangle
  rw [zpow_add_one₀ (by norm_num), zpow_add₀ (by norm_num), zpow_natCast] at hwhole
  rw [zpow_add₀ (by norm_num), zpow_natCast]
  have hprecision : (10 : ℚ) ^ unit ≤ 10 ^ unit * 10 ^ precision :=
    le_mul_of_one_le_right hunit.le (one_le_pow₀ (by norm_num))
  linarith

/-- A second part that no kept digit of the first one reaches counts as one unit of its sign. -/
theorem indistinct_of_far {high low e f least : Int} (hhigh : high ≠ 0) (hlow : low ≠ 0)
    (hbelow : least + 1 ≤ e) (hlarge : least + precision + 1 ≤ digitCount high.natAbs + e - 1)
    (hfar : digitCount low.natAbs + f - 1 < least) :
    Indistinct (((high * tenTo (e - least).toNat + low.sign : Int) : ℚ) * 10 ^ least)
      (high * 10 ^ e + low * 10 ^ f) := by
  -- The first part is a multiple of ten in units of the place that the second part does not reach.
  obtain ⟨shift, hshift⟩ := Int.le.dest hbelow
  have htens : high * tenTo (e - least).toNat = high * tenTo shift * 10 := by
    rw [show (e - least).toNat = shift + 1 by omega, show tenTo (shift + 1) = tenTo shift * 10 from rfl]
    push_cast
    ring
  have hsame : (high : ℚ) * 10 ^ e = ((high * tenTo shift * 10 : Int) : ℚ) * 10 ^ least := by
    rw [← htens, zpow_split e least (by omega)]
    push_cast
    ring
  have hunit : (0 : ℚ) < 10 ^ f := by positivity
  have hpart : (low : ℚ) * 10 ^ f ≠ 0 := mul_ne_zero (by exact_mod_cast hlow) hunit.ne'
  have hpartSign : 0 < (low : ℚ) * 10 ^ f ↔ 0 < low := by
    rw [mul_pos_iff_of_pos_right hunit]
    exact_mod_cast Iff.rfl
  have hwhole : (10 : ℚ) ^ (least + precision + 1) ≤ |(high : ℚ) * 10 ^ e| :=
    (zpow_le_zpow_right₀ (by norm_num) hlarge).trans (tenTo_le_abs hhigh e)
  have hsign : |(low.sign : ℚ) * 10 ^ least| ≤ 10 ^ least := by
    rw [abs_mul, abs_of_pos (show (0 : ℚ) < 10 ^ least by positivity), ← Int.cast_abs,
      Int.abs_sign_of_ne_zero hlow]
    simp
  rw [htens, hsame]
  refine .inr ⟨least, between_sign _ hlow hpartSign hpart (abs_lt_of_digits hfar), ?_⟩
  rw [Int.cast_add, add_mul, ← hsame]
  exact zpow_le_abs_add hwhole hsign

/-- The smaller summand is either added exactly or replaced by a mark that rounds as it would. -/
theorem sumAligned_indistinct (high low : Int) {e f : Int} (hle : f ≤ e) :
    Indistinct ((sumAligned high e low f).1 * 10 ^ (sumAligned high e low f).2)
      (high * 10 ^ e + low * 10 ^ f) := by
  unfold sumAligned
  dsimp only
  by_cases hzero : high = 0
  · exact .inl (by simp [hzero])
  rw [if_neg hzero]
  obtain ⟨least, hleast⟩ : ∃ least : Int,
      least = e + min (-1) ((digitCount high.natAbs : Int) - precision - 2) := ⟨_, rfl⟩
  rw [← hleast]
  -- Whether the smaller summand lies wholly below what can have an influence on the rounded sum.
  by_cases hfar : digitCount low.natAbs + f - 1 < least
  · rw [if_pos hfar]
    by_cases hlowZero : low = 0
    · rw [hlowZero, Int.sign_zero, zpow_split e least (by omega)]
      exact .inl (by push_cast; ring)
    · exact indistinct_of_far hzero hlowZero (by omega) (by omega) hfar
  · rw [if_neg hfar, zpow_split e f hle]
    exact .inl (by push_cast; ring)

theorem roundsTo_total {total : Int × Int} (h : Indistinct (total.1 * 10 ^ total.2) q)
    (negativeZero : Bool) :
    RoundsTo (if total.1 = 0 then round negativeZero 0 total.2
      else round (decide (total.1 < 0)) total.1.natAbs total.2) q := by
  by_cases hzero : total.1 = 0
  · refine ⟨negativeZero, 0, total.2, if_pos hzero, ?_⟩
    rw [hzero, Int.cast_zero, zero_mul] at h
    simpa [value_finite] using h
  · refine ⟨_, _, _, if_neg hzero, ?_⟩
    rwa [value_of_sign_natAbs]

/-- A sum of finite numbers is the exact sum, rounded once. -/
theorem roundsTo_add (hx : x.isFinite = true) (hy : y.isFinite = true) :
    RoundsTo (x.add y) (x.value + y.value) := by
  unfold Decimal.add
  rw [undefinedOperand?_eq_none hx hy]
  obtain ⟨s, c, e, rfl⟩ := exists_finite hx
  obtain ⟨t, d, f, rfl⟩ := exists_finite hy
  refine roundsTo_total ?_ (s && t)
  -- Whichever number has the larger exponent comes first.
  by_cases hle : f ≤ e
  · rw [if_pos hle]
    exact sumAligned_indistinct _ _ hle
  · rw [if_neg hle, add_comm]
    exact sumAligned_indistinct _ _ (by omega)

/-- To subtract is to add the negative number, and negation is exact. -/
theorem roundsTo_sub (hx : x.isFinite = true) (hy : y.isFinite = true) :
    RoundsTo (x.sub y) (x.value - y.value) := by
  unfold Decimal.sub
  rw [undefinedOperand?_eq_none hx hy, sub_eq_add_neg, ← value_negate]
  exact roundsTo_add hx ((isFinite_negate y).trans hy)

/-! ## Quotients -/

/-- A quotient is carried far enough for all the digits that are kept. -/
theorem tenTo_le_quotient {c d : Nat} (hc : c ≠ 0) (hd : d ≠ 0) {shift : Int}
    (hshift : shift = (digitCount d : Int) - digitCount c + precision + 1) :
    tenTo precision ≤ c * tenTo shift.toNat / (d * tenTo (-shift).toNat) := by
  have hdigits := Text.digitCount_pos c
  rw [Nat.le_div_iff_mul_le (Nat.mul_pos (Nat.pos_of_ne_zero hd) (tenTo_pos _))]
  calc tenTo precision * (d * tenTo (-shift).toNat)
      ≤ tenTo precision * (tenTo (digitCount d) * tenTo (-shift).toNat) :=
        Nat.mul_le_mul_left _ (Nat.mul_le_mul_right _ (lt_tenTo_digitCount d).le)
    _ = tenTo (digitCount c - 1) * tenTo shift.toNat := by
        rw [← tenTo_add, ← tenTo_add, ← tenTo_add]
        congr 1
        omega
    _ ≤ c * tenTo shift.toNat := Nat.mul_le_mul_right _ (tenTo_le_of_ne_zero hc)

/-- The quotient of two magnitudes is the quotient of the scaled coefficients, in units of a lower place. -/
theorem magnitude_div {d : Nat} (hd : d ≠ 0) (c : Nat) (e f shift : Int) :
    magnitude c e / magnitude d f =
      ((c * tenTo shift.toNat : Nat) : ℚ) / (d * tenTo (-shift).toNat : Nat) * 10 ^ (e - f - shift) := by
  have hdivisor : (d : ℚ) ≠ 0 := by exact_mod_cast hd
  have hpowers : (10 : ℚ) ^ e * 10 ^ (-shift).toNat =
      10 ^ shift.toNat * 10 ^ (e - f - shift) * 10 ^ f := by
    rw [← zpow_natCast, ← zpow_natCast, ← zpow_add₀ (by norm_num), ← zpow_add₀ (by norm_num),
      ← zpow_add₀ (by norm_num)]
    congr 1
    omega
  unfold magnitude
  push_cast
  rw [cast_tenTo, cast_tenTo, div_mul_eq_mul_div, div_eq_div_iff (by positivity) (by positivity)]
  linear_combination (c : ℚ) * d * hpowers

/-- A quotient that does not come out even and its marked digits lie between the same multiples of five. -/
theorem between_quotient {n m : Nat} (hm : 0 < m) (hrest : n % m ≠ 0) (unit : Int) :
    ∃ gap, Between gap unit ((if n / m % 5 = 0 then n / m + 1 else n / m : Nat) * 10 ^ unit) ∧
      Between gap unit ((n : ℚ) / m * 10 ^ unit) := by
  have hunit : (0 : ℚ) < 10 ^ unit := by positivity
  have hpos : (0 : ℚ) < m := by exact_mod_cast hm
  have hsplit := Nat.div_add_mod' n m
  have hsmall := Nat.mod_lt n hm
  obtain ⟨digits, hdigits⟩ : ∃ digits, digits = n / m := ⟨_, rfl⟩
  rw [← hdigits] at hsplit ⊢
  have hlow : (digits : ℚ) < n / m := by
    rw [lt_div_iff₀ hpos]
    exact_mod_cast (by omega : digits * m < n)
  have hhigh : (n : ℚ) / m < digits + 1 := by
    rw [div_lt_iff₀ hpos]
    have hnext : n < (digits + 1) * m := by
      rw [Nat.succ_mul]
      omega
    exact_mod_cast hnext
  have hfloor : 5 * ((digits / 5 : Nat) : ℚ) ≤ digits := by exact_mod_cast (by omega)
  have hceil : (digits : ℚ) + 1 ≤ 5 * (((digits / 5 : Nat) : ℚ) + 1) := by exact_mod_cast (by omega)
  -- The mark moves the digits off a multiple of five, but not beyond the next one.
  have hmarked : 5 * ((digits / 5 : Nat) : ℚ) < (if digits % 5 = 0 then digits + 1 else digits : Nat) ∧
      ((if digits % 5 = 0 then digits + 1 else digits : Nat) : ℚ) < 5 * (((digits / 5 : Nat) : ℚ) + 1) := by
    split <;> constructor <;> exact_mod_cast (by omega)
  refine ⟨(digits / 5 : Nat), ?_, ?_⟩ <;> unfold Between <;>
    rw [Int.cast_add, Int.cast_one, Int.cast_natCast]
  · exact ⟨mul_lt_mul_of_pos_right hmarked.1 hunit, mul_lt_mul_of_pos_right hmarked.2 hunit⟩
  · exact ⟨mul_lt_mul_of_pos_right (hfloor.trans_lt hlow) hunit,
      mul_lt_mul_of_pos_right (hhigh.trans_le hceil) hunit⟩

/-- The digits of a quotient end after a mark for the remainder, which rounds as all further digits would. -/
theorem quotientDigits_indistinct {c d : Nat} (hc : c ≠ 0) (hd : d ≠ 0) (e f : Int) :
    Indistinct (magnitude (quotientDigits c e d f).1 (quotientDigits c e d f).2)
      (magnitude c e / magnitude d f) := by
  obtain ⟨shift, hshift⟩ : ∃ shift : Int,
      shift = (digitCount d : Int) - digitCount c + precision + 1 := ⟨_, rfl⟩
  have hlarge := tenTo_le_quotient hc hd hshift
  have hdivisor : 0 < d * tenTo (-shift).toNat :=
    Nat.mul_pos (Nat.pos_of_ne_zero hd) (tenTo_pos _)
  rw [magnitude_div hd c e f shift]
  unfold quotientDigits
  dsimp only
  rw [← hshift]
  -- Without a remainder the quotient is exact, and only zeros are taken off its end.
  by_cases hexact : c * tenTo shift.toNat % (d * tenTo (-shift).toNat) = 0
  · rw [if_pos hexact, magnitude_stripZeros, magnitude,
      Nat.cast_div (Nat.dvd_of_mod_eq_zero hexact) (by exact_mod_cast hdivisor.ne')]
    exact .inl rfl
  · rw [if_neg hexact]
    refine .inr ⟨e - f - shift, between_quotient hdivisor hexact _, ?_⟩
    have hmarked : tenTo precision ≤ (if c * tenTo shift.toNat / (d * tenTo (-shift).toNat) % 5 = 0 then
        c * tenTo shift.toNat / (d * tenTo (-shift).toNat) + 1
        else c * tenTo shift.toNat / (d * tenTo (-shift).toNat)) := by
      split <;> omega
    rw [abs_of_pos (magnitude_pos (by have := tenTo_pos precision; omega) _), magnitude, add_comm,
      zpow_add₀ (by norm_num), zpow_natCast, ← cast_tenTo]
    exact mul_le_mul_of_nonneg_right (by exact_mod_cast hmarked) (by positivity)

/-- A quotient of finite numbers is the exact quotient, rounded once. -/
theorem roundsTo_div (hx : x.isFinite = true) (hy : y.isFinite = true) (hnonzero : y.value ≠ 0) :
    RoundsTo (x.div y) (x.value / y.value) := by
  unfold Decimal.div
  rw [undefinedOperand?_eq_none hx hy]
  obtain ⟨s, c, e, rfl⟩ := exists_finite hx
  obtain ⟨t, d, f, rfl⟩ := exists_finite hy
  have hd : d ≠ 0 := by
    rintro rfl
    simp [value_finite] at hnonzero
  dsimp only
  rw [if_neg hd]
  by_cases hc : c = 0
  · exact ⟨_, _, _, if_pos hc, .inl (by simp [hc, value_finite])⟩
  · refine ⟨_, _, _, if_neg hc, ?_⟩
    have hmagnitude := quotientDigits_indistinct hc hd e f
    rw [value_finite, value_finite, value_finite]
    -- The sign of the quotient is that of its parts; the digits are the same in all four cases.
    cases s <;> cases t
    · exact hmagnitude
    · simpa [div_neg] using hmagnitude.neg
    · simpa [neg_div] using hmagnitude.neg
    · simpa [neg_div_neg_eq] using hmagnitude

end Decimal
end Appraisal
