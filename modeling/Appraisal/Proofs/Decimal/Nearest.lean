import Appraisal.Proofs.Decimal.Value
import Mathlib.Data.Int.Log
import Mathlib.Data.Rat.Floor
import Mathlib.Tactic.FieldSimp

/-!
# The nearest number that can be held

Rounding is a function of the exact value: it takes a rational number to the nearest number of the working
precision, and a half to the even neighbour.  This function never decreases and leaves every number that can
be held where it is, so a bound that can be held is a bound of the rounded number too.
-/

namespace Appraisal
namespace Decimal

open Text (digitCount)

variable {p q r : ℚ} {n m : Int}

/-! ## The nearest integer -/

/-- No integer is nearer, and of two that are equally near this is the even one. -/
structure IsNearest (q : ℚ) (n : Int) : Prop where
  low : (n : ℚ) - 1 / 2 ≤ q
  high : q ≤ n + 1 / 2
  /-- Half a unit away from it, the integer is even. -/
  even : q = n - 1 / 2 ∨ q = n + 1 / 2 → n % 2 = 0

/-- The nearest integer, of two the even one. -/
def nearestInt (q : ℚ) : Int :=
  if 1 / 2 < Int.fract q ∨ Int.fract q = 1 / 2 ∧ ⌊q⌋ % 2 = 1 then ⌊q⌋ + 1 else ⌊q⌋

/-- The three conditions describe the function; that they determine it is `IsNearest.unique`. -/
theorem isNearest_nearestInt (q : ℚ) : IsNearest q (nearestInt q) := by
  have hsplit := Int.floor_add_fract q
  have hnonneg := Int.fract_nonneg q
  have hlt := Int.fract_lt_one q
  unfold nearestInt
  split
  · next hup =>
      have hhalf : 1 / 2 ≤ Int.fract q := by
        rcases hup with hup | ⟨hup, -⟩
        · exact hup.le
        · exact hup.ge
      -- A tie above the floor is rounded up from an odd floor only, so to an even number.
      refine ⟨by push_cast; linarith, by push_cast; linarith, ?_⟩
      push_cast
      rintro (htie | htie)
      · have hfract : Int.fract q = 1 / 2 := by linarith
        rcases hup with hup | ⟨-, hodd⟩
        · linarith
        · omega
      · linarith
  · next hdown =>
      rw [not_or, not_lt, not_and] at hdown
      refine ⟨by linarith, by linarith [hdown.1], ?_⟩
      rintro (htie | htie)
      · linarith
      · have hfract : Int.fract q = 1 / 2 := by linarith
        have := hdown.2 hfract
        omega

/-- There is one nearest integer, thanks to the rule for halves. -/
theorem IsNearest.unique (h : IsNearest q n) (hm : IsNearest q m) : n = m := by
  -- Two integers with one number half a unit from each are neighbours, and not both are even.
  wlog hlt : n < m generalizing n m
  · rcases lt_trichotomy n m with hless | heq | hgreater
    · exact this h hm hless
    · exact heq
    · exact (this hm h hgreater).symm
  have hstep : (n : ℚ) + 1 ≤ m := by exact_mod_cast hlt
  have hlow := hm.low
  have hhigh := h.high
  have hnext : m = n + 1 := by
    have hcast : (m : ℚ) = n + 1 := by linarith
    exact_mod_cast hcast
  have hn := h.even (.inr (by linarith))
  have hmEven := hm.even (.inl (by linarith))
  omega

theorem nearestInt_eq_iff : nearestInt q = n ↔ IsNearest q n :=
  ⟨fun h => h ▸ isNearest_nearestInt q, fun h => (isNearest_nearestInt q).unique h⟩

@[simp] theorem nearestInt_intCast (n : Int) : nearestInt n = n :=
  nearestInt_eq_iff.2 ⟨by linarith, by linarith, by rintro (h | h) <;> linarith⟩

/-- Rounding a half to the even neighbour does not prefer one direction. -/
theorem nearestInt_neg (q : ℚ) : nearestInt (-q) = -nearestInt q := by
  have h := isNearest_nearestInt q
  refine nearestInt_eq_iff.2 ⟨?_, ?_, fun htie => ?_⟩
  · have := h.high
    push_cast
    linarith
  · have := h.low
    push_cast
    linarith
  · push_cast at htie
    have := h.even (htie.symm.imp (fun _ => by linarith) (fun _ => by linarith))
    omega

/-- A larger number is never rounded to a smaller integer. -/
theorem nearestInt_mono (h : p ≤ q) : nearestInt p ≤ nearestInt q := by
  -- Both integers would be half a unit from one number, and then they are the same.
  by_contra hlt
  rw [not_le] at hlt
  have hstep : (nearestInt q : ℚ) + 1 ≤ nearestInt p := by exact_mod_cast hlt
  have hlow := (isNearest_nearestInt p).low
  have hhigh := (isNearest_nearestInt q).high
  have heq : p = q := by linarith
  rw [heq] at hlt
  exact lt_irrefl _ hlt

/-! ## The nearest number of the working precision -/

/-- The place of the last digit that a number may keep. -/
def place (q : ℚ) : Int :=
  max (Int.log 10 |q| + 1 - precision) leastExponent

/-- The nearest number that can be held, of two the one whose last digit is even. -/
def nearest (q : ℚ) : ℚ :=
  nearestInt (q / 10 ^ place q) * 10 ^ place q

/-- The number can be held: it has at most 28 digits, and none below the least exponent. -/
def Held (q : ℚ) : Prop :=
  ∃ (n : Int) (k : Int), n.natAbs < tenTo precision ∧ leastExponent ≤ k ∧ q = n * 10 ^ k

theorem zpow_le_iff_le_log (h : 0 < q) (k : Int) : (10 : ℚ) ^ k ≤ q ↔ k ≤ Int.log 10 q := by
  have hlog := Int.zpow_le_iff_le_log (b := 10) (x := k) (by decide) h
  exact_mod_cast hlog

/-- Counted in units of the last place that may be kept, a number has at most the digits of the precision. -/
theorem lt_zpow_place (q : ℚ) : |q| < 10 ^ (place q + precision) := by
  have hlog := Int.lt_zpow_succ_log_self (b := 10) (by decide) |q|
  push_cast at hlog
  exact hlog.trans_le (zpow_le_zpow_right₀ (by norm_num) (by unfold place; omega))

/-- Unless the least exponent cuts it short, a number uses all digits of the precision. -/
theorem zpow_place_le (hq : q ≠ 0) (h : leastExponent < place q) :
    10 ^ (place q + precision - 1) ≤ |q| := by
  rw [zpow_le_iff_le_log (abs_pos.2 hq)]
  unfold place at h ⊢
  omega

theorem place_le (hq : q ≠ 0) {k : Int} (hk : leastExponent ≤ k) (h : |q| < 10 ^ (k + precision)) :
    place q ≤ k := by
  have hlog := (zpow_le_iff_le_log (abs_pos.2 hq) (k + precision)).not.1 (not_le.2 h)
  unfold place
  omega

/-- The larger the number, the coarser its last place. -/
theorem place_mono (hp : p ≠ 0) (h : |p| ≤ |q|) : place p ≤ place q := by
  have hlog := Int.log_mono_right (b := 10) (abs_pos.2 hp) h
  unfold place
  omega

@[simp] theorem place_neg (q : ℚ) : place (-q) = place q := by
  rw [place, abs_neg, place]

@[simp] theorem nearest_neg (q : ℚ) : nearest (-q) = -nearest q := by
  unfold nearest
  rw [place_neg, neg_div, nearestInt_neg]
  push_cast
  ring

@[simp] theorem nearest_zero : nearest 0 = 0 := by
  have hzero := nearestInt_intCast 0
  rw [Int.cast_zero] at hzero
  simp [nearest, hzero]

/-- A bound on the grid of the number bounds what it is rounded to. -/
theorem le_nearest_of_units (h : n * 10 ^ place q ≤ q) : n * 10 ^ place q ≤ nearest q := by
  have hunit : (0 : ℚ) < 10 ^ place q := by positivity
  have hmono := nearestInt_mono ((le_div_iff₀ hunit).2 h)
  rw [nearestInt_intCast] at hmono
  exact mul_le_mul_of_nonneg_right (by exact_mod_cast hmono) hunit.le

theorem nearest_le_of_units (h : q ≤ n * 10 ^ place q) : nearest q ≤ n * 10 ^ place q := by
  have hneg := le_nearest_of_units (q := -q) (n := -n) (by rw [place_neg]; push_cast; linarith)
  rw [place_neg, nearest_neg] at hneg
  push_cast at hneg
  linarith

/-- A whole number of units of the last place that may be kept is not rounded. -/
theorem nearest_eq_of_units (h : q = n * 10 ^ place q) : nearest q = q := by
  have hlow := le_nearest_of_units h.ge
  have hhigh := nearest_le_of_units h.le
  linarith

/-- Numbers that can be held are the fixed points of rounding. -/
theorem Held.nearest_eq (h : Held q) : nearest q = q := by
  obtain ⟨n, k, hn, hk, hq⟩ := h
  by_cases hzero : q = 0
  · rw [hzero, nearest_zero]
  -- The last digit that may be kept lies at or below the last digit that there is.
  have hplace : place q ≤ k := by
    refine place_le hzero hk ?_
    rw [hq, abs_mul, abs_of_pos (show (0 : ℚ) < 10 ^ k by positivity), add_comm,
      zpow_add₀ (by norm_num), zpow_natCast, ← cast_tenTo, ← Int.cast_abs, Int.abs_eq_natAbs]
    exact mul_lt_mul_of_pos_right (by exact_mod_cast hn) (by positivity)
  obtain ⟨more, hmore⟩ := Int.le.dest hplace
  refine nearest_eq_of_units (n := n * 10 ^ more) ?_
  rw [← hmore, zpow_add₀ (by norm_num), zpow_natCast] at hq
  push_cast
  linarith

/-! ## Order -/

theorem nearest_nonneg (h : 0 ≤ q) : 0 ≤ nearest q := by
  have hzero := le_nearest_of_units (q := q) (n := 0) (by simpa using h)
  simpa using hzero

/-- What is rounded at a lower place lies below a power of ten that the other number reaches. -/
theorem nearest_le_of_place_lt (hp : 0 ≤ p) (hq : 0 < q) (h : place p < place q) :
    nearest p ≤ nearest q := by
  have hlow : leastExponent ≤ place p := le_max_right _ _
  have hhigh : nearest p ≤ ((10 ^ precision : Int) : ℚ) * 10 ^ place p := by
    refine nearest_le_of_units ?_
    have hlt := lt_zpow_place p
    rw [abs_of_nonneg hp, add_comm, zpow_add₀ (by norm_num), zpow_natCast] at hlt
    exact_mod_cast hlt.le
  have hreached : ((10 ^ (precision - 1) : Int) : ℚ) * 10 ^ place q ≤ nearest q := by
    refine le_nearest_of_units ?_
    have hle := zpow_place_le hq.ne' (by omega)
    rw [abs_of_pos hq, show place q + (precision : Int) - 1 = (precision - 1 : Nat) + place q by
      rw [show precision = 28 from rfl]; omega, zpow_add₀ (by norm_num), zpow_natCast] at hle
    exact_mod_cast hle
  -- The largest number with the lower place is the smallest one with the place above it.
  refine hhigh.trans (le_trans ?_ hreached)
  push_cast
  rw [← zpow_natCast, ← zpow_natCast, ← zpow_add₀ (by norm_num), ← zpow_add₀ (by norm_num)]
  refine zpow_le_zpow_right₀ (by norm_num) ?_
  rw [show precision = 28 from rfl]
  omega

/-- Numbers with a common last place are compared on one grid, the others by a power of ten between them. -/
theorem nearest_le_nearest_of_nonneg (hp : 0 ≤ p) (h : p ≤ q) : nearest p ≤ nearest q := by
  rcases hp.eq_or_lt with rfl | hpos
  · rw [nearest_zero]
    exact nearest_nonneg h
  have habs : |p| ≤ |q| := by rwa [abs_of_pos hpos, abs_of_pos (hpos.trans_le h)]
  rcases (place_mono hpos.ne' habs).eq_or_lt with heq | hlt
  · have hunit : (0 : ℚ) < 10 ^ place q := by positivity
    have hmono := nearestInt_mono (div_le_div_of_nonneg_right h hunit.le)
    unfold nearest
    rw [heq]
    exact mul_le_mul_of_nonneg_right (by exact_mod_cast hmono) hunit.le
  · exact nearest_le_of_place_lt hp (hpos.trans_le h) hlt

/-- Rounding never decreases. -/
theorem nearest_mono : Monotone nearest := by
  intro p q h
  -- Rounding is symmetric, so the case of two numbers that are not negative settles the others.
  rcases le_total 0 p with hp | hp
  · exact nearest_le_nearest_of_nonneg hp h
  · rcases le_total 0 q with hq | hq
    · have hneg := nearest_nonneg (neg_nonneg.2 hp)
      rw [nearest_neg] at hneg
      linarith [nearest_nonneg hq]
    · have hneg := nearest_le_nearest_of_nonneg (neg_nonneg.2 hq) (neg_le_neg h)
      rw [nearest_neg, nearest_neg] at hneg
      linarith

/-- A lower bound that can be held survives rounding. -/
theorem Held.le_nearest (h : Held r) (hle : r ≤ q) : r ≤ nearest q :=
  h.nearest_eq.symm.le.trans (nearest_mono hle)

/-- An upper bound that can be held survives rounding. -/
theorem Held.nearest_le (h : Held r) (hle : q ≤ r) : nearest q ≤ r :=
  (nearest_mono hle).trans h.nearest_eq.le

/-- Far less than half a unit above a power of ten, a number is rounded down to it. -/
theorem nearest_le_zpow {k : Int} (hk : leastExponent + precision ≤ k)
    (h : q ≤ 10 ^ k + 10 ^ (k - precision - 1)) : nearest q ≤ 10 ^ k := by
  have hprecision : (precision : Int) = 28 := rfl
  refine (nearest_mono h).trans (le_of_eq ?_)
  -- All powers of ten in units of the small part.
  obtain ⟨unit, hunit⟩ : ∃ unit : ℚ, unit = 10 ^ (k - precision - 1) := ⟨_, rfl⟩
  have hpos : 0 < unit := hunit ▸ by positivity
  have hpower : ∀ more : Nat, (10 : ℚ) ^ (k - precision - 1 + more) = 10 ^ more * unit := fun more => by
    rw [zpow_add₀ (by norm_num), zpow_natCast, ← hunit, mul_comm]
  have htop := hpower 29
  have hlast := hpower 2
  rw [show k - precision - 1 + (29 : Nat) = k by omega] at htop
  have hplace : place (10 ^ k + unit) = k - precision - 1 + (2 : Nat) := by
    have habove : 0 < (10 : ℚ) ^ k + unit := by positivity
    have hlow := (zpow_le_iff_le_log habove k).1 (by linarith)
    have hhigh := (zpow_le_iff_le_log habove (k + 1)).not.1 (by
      rw [zpow_add_one₀ (by norm_num), htop]
      linarith)
    unfold place
    rw [abs_of_pos habove]
    omega
  have hnearest : nearestInt ((10 ^ k + unit) / (10 ^ 2 * unit)) = 10 ^ 27 := by
    rw [nearestInt_eq_iff, htop, show (10 ^ 29 * unit + unit) / (10 ^ 2 * unit) = 10 ^ 27 + 1 / 100 by
      field_simp
      norm_num]
    exact ⟨by norm_num, by norm_num, by norm_num⟩
  rw [← hunit, nearest, hplace, hlast, hnearest, htop]
  push_cast
  ring

/-! ## Numbers that can be held -/

theorem held_zero : Held 0 :=
  ⟨0, 0, by decide, by decide, by simp⟩

theorem held_zpow {k : Int} (hk : leastExponent ≤ k) : Held (10 ^ k) :=
  ⟨1, k, by decide, hk, by simp⟩

theorem held_intCast (h : n.natAbs < tenTo precision) : Held n :=
  ⟨n, 0, h, by decide, by simp⟩

theorem held_one : Held 1 := by
  simpa using held_zpow (show leastExponent ≤ 0 by decide)

theorem Held.neg (h : Held q) : Held (-q) := by
  obtain ⟨n, k, hn, hk, rfl⟩ := h
  exact ⟨-n, k, by rwa [Int.natAbs_neg], hk, by push_cast; ring⟩

/-- A bound on the magnitude that can be held survives rounding. -/
theorem Held.abs_nearest_le (h : Held r) (hle : |q| ≤ r) : |nearest q| ≤ r := by
  obtain ⟨hlow, hhigh⟩ := abs_le.1 hle
  exact abs_le.2 ⟨h.neg.le_nearest hlow, h.nearest_le hhigh⟩

/-- A number keeps its sign unless it is too small to be held. -/
theorem nearest_neg_iff {k : Int} (hk : leastExponent ≤ k) (h : q < 0 → q ≤ -10 ^ k) :
    nearest q < 0 ↔ q < 0 := by
  have hpos : (0 : ℚ) < 10 ^ k := by positivity
  refine ⟨fun hneg => ?_, fun hneg => ?_⟩
  · by_contra hnonneg
    exact hneg.not_ge (nearest_nonneg (not_lt.1 hnonneg))
  · have hle := (held_zpow hk).neg.nearest_le (h hneg)
    linarith

/-- The coefficient stays below the power of ten or reaches it by a carry, and then a digit less does as well.
-/
theorem held_nearest_of_nonneg (h : 0 ≤ q) : Held (nearest q) := by
  have hunit : (0 : ℚ) < 10 ^ place q := by positivity
  have hleast : leastExponent ≤ place q := le_max_right _ _
  have hnonneg : 0 ≤ nearestInt (q / 10 ^ place q) := by
    have hmono := nearestInt_mono (div_nonneg h hunit.le)
    rwa [show (0 : ℚ) = ((0 : Int) : ℚ) by simp, nearestInt_intCast] at hmono
  have hmost : nearestInt (q / 10 ^ place q) ≤ tenTo precision := by
    have hlt := lt_zpow_place q
    rw [abs_of_nonneg h, add_comm, zpow_add₀ (by norm_num), zpow_natCast, ← div_lt_iff₀ hunit] at hlt
    have hmono := nearestInt_mono hlt.le
    rwa [show (10 : ℚ) ^ precision = ((tenTo precision : Int) : ℚ) by push_cast; rw [cast_tenTo],
      nearestInt_intCast] at hmono
  rcases hmost.eq_or_lt with hcarry | hlt
  · -- The carry into one digit more leaves a power of ten.
    refine ⟨tenTo (precision - 1), place q + 1, by decide, by omega, ?_⟩
    unfold nearest
    rw [hcarry, zpow_add_one₀ (by norm_num), show tenTo precision = tenTo (precision - 1) * 10 from rfl]
    push_cast
    ring
  · exact ⟨_, _, by omega, hleast, rfl⟩

/-- What has been rounded can be held. -/
theorem held_nearest (q : ℚ) : Held (nearest q) := by
  rcases le_total 0 q with hq | hq
  · exact held_nearest_of_nonneg hq
  · have hneg := (held_nearest_of_nonneg (neg_nonneg.2 hq)).neg
    rwa [nearest_neg, neg_neg] at hneg

end Decimal
end Appraisal
