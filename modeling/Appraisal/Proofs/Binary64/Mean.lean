import Appraisal.Proofs.Schema.Writing
import Appraisal.UserInput.Basic
import Mathlib.Tactic.Ring

/-!
# The mean of shares

Rounding never passes a number that can be represented: what lies at or below it stays there, and so does
what lies within half a unit above it when its significand is even.  A count of ones can be represented up
to `2 ^ 53`, where adding one more changes nothing; so a sum of shares never exceeds their count, and their
mean is a share again.
-/

namespace Appraisal
namespace Binary64

/-! ## Rounding below a number -/

theorem twoTo_add (m n : Nat) : twoTo (m + n) = twoTo m * twoTo n :=
  Nat.pow_add 2 m n

/-- A quotient is not rounded beyond a whole number that it does not exceed, nor beyond an even one that it
exceeds by at most a half. -/
theorem nearestQuotient_le {n d most : Nat} (hd : 0 < d)
    (h : n ≤ most * d ∨ most % 2 = 0 ∧ 2 * n ≤ (2 * most + 1) * d) :
    nearestQuotient n d ≤ most := by
  have hn : d * (n / d) + n % d = n := Nat.div_add_mod n d
  have htwice : 2 * n ≤ (2 * most + 1) * d := by
    rcases h with h | ⟨-, h⟩
    · rw [Nat.add_mul, Nat.mul_assoc]
      omega
    · exact h
  -- Rounded down, the quotient does not exceed the bound.
  have hquotient : n / d ≤ most := by
    refine Nat.le_of_lt_succ ((Nat.div_lt_iff_lt_mul hd).2 ?_)
    rw [Nat.succ_mul]
    rw [Nat.add_mul, Nat.mul_assoc] at htwice
    omega
  unfold nearestQuotient
  dsimp only
  split
  · next hup =>
      rcases Nat.lt_or_eq_of_le hquotient with hlt | heq
      · exact hlt
      · -- The remainder is none, or at most a half above an even number.
        exfalso
        rw [heq, Nat.mul_comm] at hn
        rw [Nat.add_mul, Nat.mul_assoc] at htwice
        rcases h with h | ⟨heven, -⟩
        · omega
        · omega
  · exact hquotient

/-- The scale of a rounded number. -/
def scaleOf (quotient : Nat) : Nat :=
  if quotient < twoTo 53 then 0 else Nat.log2 quotient - 52

theorem scaleOf_le {quotient scale : Nat} (h : quotient < twoTo 53 * twoTo scale) :
    scaleOf quotient ≤ scale := by
  unfold scaleOf
  split
  · exact Nat.zero_le scale
  · next hlarge =>
      have hne : quotient ≠ 0 := by
        have := twoTo_pos 53
        omega
      have hlog : Nat.log2 quotient < 53 + scale := by
        rw [Nat.log2_lt hne]
        rwa [← twoTo_add] at h
      omega

theorem le_scaleOf {quotient scale : Nat} (h : twoTo 52 * twoTo scale ≤ quotient) :
    scale ≤ scaleOf quotient := by
  rw [← twoTo_add] at h
  have hne : quotient ≠ 0 := by
    have := twoTo_pos (52 + scale)
    omega
  have hlog : 52 + scale ≤ Nat.log2 quotient := (Nat.le_log2 hne).2 h
  unfold scaleOf
  split
  · next hsmall =>
      have : 52 + scale < 53 := (Nat.pow_lt_pow_iff_right (by decide)).1 (Nat.lt_of_le_of_lt h hsmall)
      omega
  · omega

/-- The quotient lies at or below a number, or at most half a unit above one whose significand is full and
even. -/
def RoundsBelow (n d significand scale : Nat) : Prop :=
  n ≤ significand * twoTo scale * d ∨ twoTo 52 ≤ significand ∧ significand % 2 = 0 ∧
    2 * n ≤ (2 * significand + 1) * twoTo scale * d

section RoundsBelow

variable {n d significand scale : Nat}

theorem RoundsBelow.scaleOf_le (h : RoundsBelow n d significand scale) (hd : 0 < d)
    (hsignificand : significand < twoTo 53) : scaleOf (n / d) ≤ scale := by
  have hunit : 0 < twoTo scale * d := Nat.mul_pos (twoTo_pos scale) hd
  have hbelow : n < twoTo 53 * twoTo scale * d := by
    have hnext : (significand + 1) * (twoTo scale * d) ≤ twoTo 53 * (twoTo scale * d) :=
      Nat.mul_le_mul_right _ hsignificand
    unfold RoundsBelow at h
    rw [Nat.mul_assoc] at h ⊢
    rw [Nat.mul_assoc (2 * significand + 1)] at h
    rw [Nat.succ_mul] at hnext
    -- At or below the number, or at most half a unit above it.
    rcases h with h | ⟨-, -, h⟩
    · omega
    · rw [Nat.add_mul, Nat.mul_assoc 2] at h
      omega
  exact Binary64.scaleOf_le ((Nat.div_lt_iff_lt_mul hd).2 hbelow)

/-- In its own scale the quotient is rounded to a number that, put back, stays below the bound. -/
theorem RoundsBelow.nearestQuotient_le (h : RoundsBelow n d significand scale) (hd : 0 < d)
    (hplace : scaleOf (n / d) ≤ scale) :
    nearestQuotient n (d * twoTo (scaleOf (n / d))) * twoTo (scaleOf (n / d)) ≤
      significand * twoTo scale := by
  -- In the scale of the quotient the bound is a whole number, and rounding stays below it.
  have hsplit : significand * twoTo (scale - scaleOf (n / d)) * twoTo (scaleOf (n / d)) =
      significand * twoTo scale := by
    rw [Nat.mul_assoc, ← twoTo_add, Nat.sub_add_cancel hplace]
  rw [← hsplit]
  refine Nat.mul_le_mul_right _ (Binary64.nearestQuotient_le (Nat.mul_pos hd (twoTo_pos _)) ?_)
  have hproduct : significand * twoTo (scale - scaleOf (n / d)) * (d * twoTo (scaleOf (n / d))) =
      significand * twoTo scale * d := by
    rw [← hsplit]
    ring
  by_cases hexact : n ≤ significand * twoTo scale * d
  · exact .inl (hproduct ▸ hexact)
  · -- Above the bound the significand is full, so the quotient has the scale of the bound.
    obtain ⟨hleast, heven, hhalf⟩ := h.resolve_left hexact
    have hquotient : twoTo 52 * twoTo scale ≤ n / d := by
      refine (Nat.le_div_iff_mul_le hd).2 (Nat.le_trans ?_ (Nat.le_of_lt (Nat.lt_of_not_le hexact)))
      exact Nat.mul_le_mul_right d (Nat.mul_le_mul_right _ hleast)
    have hsame : scaleOf (n / d) = scale := Nat.le_antisymm hplace (le_scaleOf hquotient)
    rw [hsame, Nat.sub_self, twoTo_zero, Nat.mul_one]
    refine .inr ⟨heven, ?_⟩
    rwa [Nat.mul_assoc, Nat.mul_comm (twoTo scale) d] at hhalf

theorem ofUnits_eq (negative : Bool) (n d : Nat) :
    ofUnits negative n d =
      let significand := nearestQuotient n (d * twoTo (scaleOf (n / d)))
      let carried := decide (significand = twoTo 53)
      let scale := if carried then scaleOf (n / d) + 1 else scaleOf (n / d)
      if maxScale < scale then infinite negative
      else finite negative (if carried then twoTo 52 else significand) scale := rfl

/-- What lies at or below a number, or at most half a unit above an even one, is rounded to a number at or
below it. -/
theorem RoundsBelow.ofUnits_le (h : RoundsBelow n d significand scale) (negative : Bool) (hd : 0 < d)
    (hsignificand : significand < twoTo 53) (hscale : scale ≤ maxScale) :
    ∃ kept place, ofUnits negative n d = finite negative kept place ∧
      kept * twoTo place ≤ significand * twoTo scale := by
  have hplace := h.scaleOf_le hd hsignificand
  have hvalue := h.nearestQuotient_le hd hplace
  rw [ofUnits_eq]
  by_cases hcarried : nearestQuotient n (d * twoTo (scaleOf (n / d))) = twoTo 53
  · -- A carry moves to the next scale, which still lies within that of the bound.
    rw [hcarried] at hvalue
    have hlt : twoTo (scaleOf (n / d)) < twoTo scale := by
      have hstrict : significand * twoTo scale < twoTo 53 * twoTo scale :=
        Nat.mul_lt_mul_of_pos_right hsignificand (twoTo_pos scale)
      exact Nat.lt_of_mul_lt_mul_left (Nat.lt_of_le_of_lt hvalue hstrict)
    have hnext : scaleOf (n / d) < scale := (Nat.pow_lt_pow_iff_right (by decide)).1 hlt
    simp only [hcarried, decide_true, if_true]
    rw [if_neg (by omega)]
    refine ⟨twoTo 52, scaleOf (n / d) + 1, rfl, ?_⟩
    have hsum : 52 + (scaleOf (n / d) + 1) = 53 + scaleOf (n / d) := by omega
    rwa [← twoTo_add, hsum, twoTo_add]
  · simp only [hcarried, decide_false, Bool.false_eq_true, if_false]
    rw [if_neg (by omega)]
    exact ⟨_, _, rfl, hvalue⟩

end RoundsBelow

/-! ## Sums and quotients -/

/-- The number is not negative and has at most so many units. -/
def AtMostUnits (most : Nat) (x : Binary64) : Prop :=
  ∃ negative significand scale, x = finite negative significand scale ∧
    significand * twoTo scale ≤ most ∧ (negative = true → significand = 0)

/-- A zero may be negative; nothing else counted here is. -/
theorem units_of_nonneg {negative : Bool} {significand : Nat}
    (h : negative = true → significand = 0) (scale : Nat) :
    units negative significand scale = (significand * twoTo scale : Nat) := by
  unfold units
  cases negative with
  | false => rfl
  | true => simp [h rfl]

theorem AtMostUnits.mono {x : Binary64} {most more : Nat} (h : AtMostUnits most x)
    (hle : most ≤ more) : AtMostUnits more x := by
  obtain ⟨negative, significand, scale, hx, hmost, hnegative⟩ := h
  exact ⟨negative, significand, scale, hx, hmost.trans hle, hnegative⟩

/-- One more share adds at most one; from `2 ^ 53` on it adds nothing. -/
theorem AtMostUnits.add {x y : Binary64} {count : Nat}
    (hx : AtMostUnits (min count (twoTo 53) * unitsPerOne) x) (hy : AtMostUnits unitsPerOne y) :
    AtMostUnits (min (count + 1) (twoTo 53) * unitsPerOne) (x.add y) := by
  obtain ⟨s, m, p, rfl, hm, hs⟩ := hx
  obtain ⟨t, n, q, rfl, hn, ht⟩ := hy
  unfold Binary64.add
  dsimp only
  rw [units_of_nonneg hs, units_of_nonneg ht, ← Nat.cast_add]
  generalize htotal : m * twoTo p + n * twoTo q = total
  split
  · exact ⟨s && t, 0, 0, rfl, by simp, fun _ => rfl⟩
  · rw [decide_eq_false (by omega), Int.natAbs_natCast]
    have hone : unitsPerOne = twoTo 1074 := rfl
    have htwo : twoTo 1075 = twoTo 1074 * 2 := twoTo_succ 1074
    have hmost : twoTo 53 = twoTo 52 * 2 := twoTo_succ 52
    rw [hone] at hm hn ⊢
    by_cases hcount : count + 1 < twoTo 53
    · rw [Nat.min_eq_left hcount.le] at *
      rw [Nat.min_eq_left (by omega)] at hm
      have hsum : total ≤ (count + 1) * twoTo 1074 * 1 := by
        rw [Nat.mul_one, Nat.succ_mul]
        omega
      have hrounds : RoundsBelow total 1 (count + 1) 1074 := .inl hsum
      obtain ⟨kept, place, hkept, hvalue⟩ := hrounds.ofUnits_le false Nat.one_pos hcount (by decide)
      exact ⟨false, kept, place, hkept, hvalue, nofun⟩
    · -- The sum lies at most half a unit above `2 ^ 53`, whose significand is even.
      have hfull : min (count + 1) (twoTo 53) * twoTo 1074 = twoTo 52 * twoTo 1075 := by
        rw [Nat.min_eq_right (by omega), hmost, htwo]
        ring
      have hbelow : min count (twoTo 53) * twoTo 1074 ≤ twoTo 52 * 2 * twoTo 1074 :=
        Nat.mul_le_mul_right _ (hmost ▸ Nat.min_le_right _ _)
      have hhalf : 2 * total ≤ (2 * twoTo 52 + 1) * twoTo 1075 * 1 := by
        have hexpand : (2 * twoTo 52 + 1) * twoTo 1075 * 1 =
            2 * (twoTo 52 * 2 * twoTo 1074 + twoTo 1074) := by
          rw [htwo]
          ring
        omega
      have hrounds : RoundsBelow total 1 (twoTo 52) 1075 :=
        .inr ⟨Nat.le_refl _, by decide, hhalf⟩
      obtain ⟨kept, place, hkept, hvalue⟩ :=
        hrounds.ofUnits_le false Nat.one_pos (by decide) (by decide)
      exact ⟨false, kept, place, hkept, hvalue.trans_eq hfull.symm, nofun⟩

/-- A sum that does not exceed the count has a mean that does not exceed one. -/
theorem AtMostUnits.divCount {x : Binary64} {count : Nat} (hcount : 0 < count)
    (hx : AtMostUnits (count * unitsPerOne) x) : AtMostUnits unitsPerOne (x.divCount count) := by
  obtain ⟨s, m, p, rfl, hm, hs⟩ := hx
  unfold Binary64.divCount
  cases s with
  | false =>
      have hunits : m * twoTo p ≤ 1 * twoTo 1074 * count := by
        rw [Nat.one_mul, Nat.mul_comm (twoTo 1074)]
        exact hm
      have hrounds : RoundsBelow (m * twoTo p) count 1 1074 := .inl hunits
      obtain ⟨kept, place, hkept, hvalue⟩ :=
        hrounds.ofUnits_le false hcount (by decide) (by decide)
      exact ⟨false, kept, place, hkept, by rwa [Nat.one_mul] at hvalue, nofun⟩
  | true =>
      -- A negative zero stays one.
      obtain rfl := hs rfl
      have hnone : 0 * twoTo p = 0 * twoTo 0 * count := by simp
      have hrounds : RoundsBelow (0 * twoTo p) count 0 0 := .inl (Nat.le_of_eq hnone)
      obtain ⟨kept, place, hkept, hvalue⟩ :=
        hrounds.ofUnits_le true hcount (by decide) (by decide)
      rw [Nat.zero_mul, Nat.le_zero, Nat.mul_eq_zero] at hvalue
      obtain rfl := hvalue.resolve_right (twoTo_pos place).ne'
      exact ⟨true, 0, place, hkept, by simp, fun _ => rfl⟩

end Binary64

/-! ## Confidence -/

namespace Schema

end Schema

namespace UserInput

end UserInput
end Appraisal
