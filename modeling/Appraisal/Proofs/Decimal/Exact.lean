import Appraisal.Proofs.Decimal.Correct
import Mathlib.Algebra.BigOperators.Ring.List
import Mathlib.Algebra.Order.BigOperators.Group.List

/-!
# Arithmetic that does not round

Two ways of saying that numbers lie on a common grid, by a power of ten and by a number of decimal places.  Results
that stay small against the grid are exact.
-/

namespace Appraisal

/-!
## Sums of multiples of a power of ten

Whole multiples of one power of ten add up to a whole multiple of it.  As long as the magnitudes add up to less
than 10^28 of these units, every sum on the way can be held and nothing is rounded, in whatever order the numbers
are added.
-/

namespace Decimal

variable {x y z : Decimal} {xs : List Decimal} {exponent : Int}

/-- The number is finite and a whole multiple of a power of ten. -/
def MultipleOf (x : Decimal) (exponent : Int) : Prop :=
  x.isFinite = true ∧ ∃ units : Int, x.value = units * 10 ^ exponent

theorem multipleOf_zero (exponent : Int) : zero.MultipleOf exponent :=
  ⟨rfl, 0, by simp⟩

/-- Fewer than 10^28 units can be held. -/
theorem held_of_units {q : ℚ} (hleast : leastExponent ≤ exponent)
    (hunits : ∃ units : Int, q = units * 10 ^ exponent) (hfew : |q| < 10 ^ (precision + exponent)) :
    Held q := by
  obtain ⟨units, rfl⟩ := hunits
  refine ⟨units, exponent, ?_, hleast, rfl⟩
  have hunit : (0 : ℚ) < 10 ^ exponent := by positivity
  rw [abs_mul, abs_of_pos hunit, zpow_add₀ (by norm_num), zpow_natCast] at hfew
  have hless := lt_of_mul_lt_mul_right hfew hunit.le
  rw [← Int.cast_abs, Int.abs_eq_natAbs, ← cast_tenTo] at hless
  exact_mod_cast hless

/-- The grid is closed under addition. -/
theorem MultipleOf.add_units (hx : x.MultipleOf exponent) (hy : y.MultipleOf exponent) :
    ∃ units : Int, x.value + y.value = units * 10 ^ exponent := by
  obtain ⟨units, hunits⟩ := hx.2
  obtain ⟨others, hothers⟩ := hy.2
  exact ⟨units + others, by rw [hunits, hothers, Int.cast_add, add_mul]⟩

/-- A sum of few units is not rounded. -/
theorem MultipleOf.add_exact (hx : x.MultipleOf exponent) (hy : y.MultipleOf exponent)
    (hleast : leastExponent ≤ exponent) (hfew : |x.value + y.value| < 10 ^ (precision + exponent))
    (hz : x.add y = .ok z) : z.MultipleOf exponent ∧ z.value = x.value + y.value := by
  have hunits := hx.add_units hy
  obtain ⟨hfinite, hvalue⟩ := (roundsTo_add hx.1 hy.1).of_ok hz
  rw [(held_of_units hleast hunits hfew).nearest_eq] at hvalue
  exact ⟨⟨hfinite, hvalue ▸ hunits⟩, hvalue⟩

/-! ### Sums of lists -/

theorem abs_sum_le (values : List ℚ) : |values.sum| ≤ (values.map abs).sum :=
  List.le_sum_of_subadditive abs abs_zero.le abs_add_le values

/-- What comes before adds up to no more than the magnitudes of all. -/
theorem abs_sum_le_append (before after : List Decimal) :
    |(before.map value).sum| ≤ ((before ++ after).map fun x => |x.value|).sum := by
  have hafter : 0 ≤ (after.map fun x => |x.value|).sum :=
    List.sum_nonneg (List.forall_mem_map.2 fun x _ => abs_nonneg x.value)
  have hbefore := abs_sum_le (before.map value)
  rw [List.map_map] at hbefore
  rw [List.map_append, List.sum_append]
  exact hbefore.trans (le_add_of_nonneg_right hafter)

/-- The sum so far is exact. -/
def SumsExactly (exponent : Int) (before : List Decimal) (total : Decimal) : Prop :=
  total.MultipleOf exponent ∧ total.value = (before.map value).sum

theorem sumsExactly_nil (exponent : Int) : SumsExactly exponent [] zero :=
  ⟨multipleOf_zero exponent, value_zero⟩

section Sums

variable (hxs : ∀ x ∈ xs, x.MultipleOf exponent) (hleast : leastExponent ≤ exponent)
  (hfew : (xs.map fun x => |x.value|).sum < 10 ^ (precision + exponent))

include hxs hleast hfew

/-- A partial sum on the grid, small by the bound on all magnitudes, is not rounded. -/
theorem SumsExactly.add {before after : List Decimal} {total next : Decimal}
    (hsplit : xs = before ++ x :: after) (htotal : SumsExactly exponent before total)
    (hnext : total.add x = .ok next) : SumsExactly exponent (before ++ [x]) next := by
  have hsum : total.value + x.value = ((before ++ [x]).map value).sum := by
    rw [htotal.2]
    simp
  have hbound : |total.value + x.value| < 10 ^ (precision + exponent) := by
    rw [hsum]
    refine (abs_sum_le_append _ after).trans_lt ?_
    rwa [List.append_assoc, List.singleton_append, ← hsplit]
  obtain ⟨hmultiple, hvalue⟩ :=
    htotal.1.add_exact (hxs x (hsplit ▸ by simp)) hleast hbound hnext
  exact ⟨hmultiple, hvalue.trans hsum⟩

/-- A sum that is found is exact. -/
theorem sumsExactly_sum (h : sum xs = .ok z) : SumsExactly exponent xs z :=
  foldlM_invariant (SumsExactly exponent) (sumsExactly_nil exponent)
    (fun _ _ _ _ _ hsplit htotal hnext => htotal.add hxs hleast hfew hsplit hnext) h

/-- A sum within the range of exponents is found. -/
theorem exists_sum_exact (hrange : (xs.map fun x => |x.value|).sum < 10 ^ maxExponent) :
    ∃ total, sum xs = .ok total ∧ SumsExactly exponent xs total := by
  refine foldlM_exists (SumsExactly exponent) (sumsExactly_nil exponent) ?_
  intro before x after total hsplit htotal
  have hbound : |total.value + x.value| < 10 ^ maxExponent := by
    have hprefix := abs_sum_le_append (before ++ [x]) after
    rw [List.append_assoc, List.singleton_append, ← hsplit] at hprefix
    rw [htotal.2]
    simpa using hprefix.trans_lt hrange
  obtain ⟨next, hnext, -⟩ :=
    (roundsTo_add htotal.1.1 (hxs x (hsplit ▸ by simp)).1).exists_ok hbound
  exact ⟨next, hnext, htotal.add hxs hleast hfew hsplit hnext⟩

end Sums

/-!
## Exact arithmetic

A number that counts units of a fixed decimal place is a whole number of them.  As long as a result counts
fewer than 10^28 units of some place, it can be held and no operation rounds it: sums, differences, products
and quotients then count what the same operations on whole numbers yield, however many zeros the coefficients
end in.
-/

/-- The number is finite and consists of so many units of a decimal place. -/
def Counts (x : Decimal) (places : Nat) (units : Int) : Prop :=
  x.isFinite = true ∧ x.value * 10 ^ places = units

variable {x y : Decimal} {places : Nat} {units others : Int}

/-- The number of units determines the value. -/
theorem Counts.value_eq (h : x.Counts places units) : x.value = units / 10 ^ places := by
  rw [eq_div_iff (by positivity)]
  exact h.2

theorem Counts.value_eq_of_mul {q : ℚ} (h : x.Counts places units) (hq : q * 10 ^ places = units) :
    x.value = q :=
  mul_right_cancel₀ (show (10 : ℚ) ^ places ≠ 0 by positivity) (h.2.trans hq.symm)

theorem Counts.eq_value (h : x.Counts places units) (hy : y.Counts places units) :
    x.value = y.value := by
  rw [h.value_eq, hy.value_eq]

/-- Numbers that count as many units of one place are equal in the order of decimal numbers, however they are
written. -/
theorem Counts.compare?_eq (h : x.Counts places units) (hy : y.Counts places units) :
    x.compare? y = some .eq := by
  rw [Decimal.compare?_eq h.1 hy.1, h.eq_value hy, compare_eq_iff_eq.2 rfl]

/-- The same number in units of a lower place. -/
theorem Counts.refine (h : x.Counts places units) (more : Nat) :
    x.Counts (places + more) (units * 10 ^ more) := by
  refine ⟨h.1, ?_⟩
  rw [pow_add, ← mul_assoc, h.2]
  push_cast
  ring

theorem counts_ofInt (n : Int) : (ofInt n).Counts 0 n := by
  refine ⟨rfl, ?_⟩
  simp

theorem counts_zero (places : Nat) : zero.Counts places 0 :=
  ⟨rfl, by simp⟩

theorem sum_natAbs_eq {α : Type} {amount : α → Decimal} {count : α → Int} {items : List α}
    (hitems : ∀ item ∈ items, (amount item).Counts places (count item)) :
    ((items.map fun item => (count item).natAbs).sum : ℚ) =
      (items.map fun item => |(amount item).value|).sum * 10 ^ places := by
  induction items with
  | nil => simp
  | cons item rest ih =>
      rw [List.forall_mem_cons] at hitems
      have hitem : ((count item).natAbs : ℚ) = |(amount item).value| * 10 ^ places := by
        rw [Nat.cast_natAbs, Int.cast_abs, ← hitems.1.2, abs_mul,
          abs_of_pos (show (0 : ℚ) < 10 ^ places by positivity)]
      rw [List.map_cons, List.map_cons, List.sum_cons, List.sum_cons, Nat.cast_add, hitem,
        ih hitems.2, add_mul]

/-- A sum counts no more units than its summands do together. -/
theorem natAbs_sum_le {α : Type} (count : α → Int) (items : List α) :
    (items.map count).sum.natAbs ≤ (items.map fun item => (count item).natAbs).sum := by
  induction items with
  | nil => simp
  | cons item rest ih =>
      rw [List.map_cons, List.map_cons, List.sum_cons, List.sum_cons]
      have htriangle := Int.natAbs_add_le (count item) (rest.map count).sum
      omega

theorem natAbs_le_sum {α : Type} (count : α → Int) {items : List α} {item : α} (h : item ∈ items) :
    (count item).natAbs ≤ (items.map fun item => (count item).natAbs).sum :=
  List.single_le_sum (by simp) _ (List.mem_map_of_mem h)

/-- A bound on the value as a bound on the number of units. -/
theorem mul_ten_pow_lt {q : ℚ} {digits : Nat} (h : q < 10 ^ ((digits : Int) - places)) :
    q * 10 ^ places < tenTo digits := by
  have hscaled := mul_lt_mul_of_pos_right h (show (0 : ℚ) < 10 ^ places by positivity)
  rwa [← zpow_natCast (10 : ℚ) places, ← zpow_add₀ (by norm_num), sub_add_cancel, zpow_natCast,
    zpow_natCast, ← cast_tenTo digits] at hscaled

/-- A number with few digits above the unit counts few units. -/
theorem Counts.natAbs_lt (hx : x.Counts places units) {digits : Nat}
    (h : |x.value| < 10 ^ ((digits : Int) - places)) : units.natAbs < tenTo digits := by
  have hscaled := mul_ten_pow_lt h
  rw [← abs_of_pos (show (0 : ℚ) < 10 ^ places by positivity), ← abs_mul, hx.2, ← Int.cast_abs,
    Int.abs_eq_natAbs] at hscaled
  exact_mod_cast hscaled

/-- Amounts of which every share with so many more places can be held, together and each. -/
theorem sum_natAbs_mul_lt {α : Type} {amount : α → Decimal} {count : α → Int} {items : List α}
    (hitems : ∀ item ∈ items, (amount item).Counts places (count item)) {more : Nat}
    (h : (items.map fun item => |(amount item).value|).sum < 10 ^ ((28 : Int) - places - more)) :
    (items.map fun item => (count item).natAbs).sum * 10 ^ more < tenTo precision := by
  rw [sub_sub, ← Nat.cast_add] at h
  have hscaled := mul_ten_pow_lt (show _ < (10 : ℚ) ^ ((precision : Int) - _) from h)
  rw [pow_add, ← mul_assoc, ← sum_natAbs_eq hitems] at hscaled
  exact_mod_cast hscaled

/-! ### Operations -/

/-- Fewer than 10^28 units of any place can be held, as long as the place is no smaller than the least
exponent. -/
theorem held_of_counts {q : ℚ} (hplaces : places ≤ 1000026) (h : q * 10 ^ places = units)
    (hunits : units.natAbs < tenTo precision) : Held q := by
  refine ⟨units, -places, hunits, by show (-1000026 : Int) ≤ _; omega, ?_⟩
  rw [zpow_neg, zpow_natCast, ← div_eq_mul_inv, eq_div_iff (by positivity)]
  exact h

theorem abs_cast_lt (hunits : units.natAbs < tenTo precision) : |(units : ℚ)| < 10 ^ precision := by
  rw [← Int.cast_abs, Int.abs_eq_natAbs, ← cast_tenTo]
  exact_mod_cast hunits

theorem abs_lt_of_counts {q : ℚ} (h : q * 10 ^ places = units)
    (hunits : units.natAbs < tenTo precision) : |q| < 10 ^ precision := by
  have hone : (1 : ℚ) ≤ 10 ^ places := one_le_pow₀ (by norm_num)
  have hcast := abs_cast_lt hunits
  rw [← h, abs_mul, abs_of_pos (one_pos.trans_le hone)] at hcast
  exact (le_mul_of_one_le_right (abs_nonneg q) hone).trans_lt hcast

theorem ten_pow_lt_maxExponent {n : Nat} (h : n < 999999) : (10 : ℚ) ^ n < 10 ^ maxExponent := by
  rw [← zpow_natCast]
  exact zpow_lt_zpow_right₀ (by norm_num) (by show _ < (999999 : Int); omega)

/-- What counts fewer than 10^28 units is not rounded. -/
theorem RoundsTo.counts {answer : Except Signal Decimal} {q : ℚ} (h : RoundsTo answer q)
    (hplaces : places ≤ 1000026) (hq : q * 10 ^ places = units)
    (hunits : units.natAbs < tenTo precision) : ∃ z, answer = .ok z ∧ z.Counts places units := by
  obtain ⟨z, hz, hfinite, hvalue⟩ :=
    h.exists_ok ((abs_lt_of_counts hq hunits).trans (ten_pow_lt_maxExponent (by decide)))
  rw [(held_of_counts hplaces hq hunits).nearest_eq] at hvalue
  exact ⟨z, hz, hfinite, hvalue ▸ hq⟩

/-- Numbers on one grid are added unit by unit. -/
theorem Counts.add (hplaces : places ≤ 1000026) (hx : x.Counts places units)
    (hy : y.Counts places others) (hsum : (units + others).natAbs < tenTo precision) :
    ∃ z, x.add y = .ok z ∧ z.Counts places (units + others) := by
  refine (roundsTo_add hx.1 hy.1).counts hplaces ?_ hsum
  rw [add_mul, hx.2, hy.2, Int.cast_add]

/-- Numbers on one grid are subtracted unit by unit. -/
theorem Counts.sub (hplaces : places ≤ 1000026) (hx : x.Counts places units)
    (hy : y.Counts places others) (hdifference : (units - others).natAbs < tenTo precision) :
    ∃ z, x.sub y = .ok z ∧ z.Counts places (units - others) := by
  refine (roundsTo_sub hx.1 hy.1).counts hplaces ?_ hdifference
  rw [sub_mul, hx.2, hy.2, Int.cast_sub]

/-- The sum of one number is that number, as far as it can be held. -/
theorem Counts.sum_singleton (hx : x.Counts places units) (hplaces : places ≤ 1000026)
    (hunits : units.natAbs < tenTo precision) :
    ∃ total, Decimal.sum [x] = .ok total ∧ total.Counts places units := by
  obtain ⟨total, htotal, hcounts⟩ := (counts_zero places).add hplaces hx (by rwa [zero_add])
  rw [zero_add] at hcounts
  exact ⟨total, bind_eq_ok.2 ⟨total, htotal, rfl⟩, hcounts⟩

/-- Numbers that count units are added up exactly when the sum of their magnitudes can be held. -/
theorem counts_foldlM {α : Type} (hplaces : places ≤ 1000026) {amount : α → Decimal}
    {count : α → Int} {items : List α} (hitems : ∀ item ∈ items, (amount item).Counts places (count item))
    (hx : x.Counts places units)
    (hsum : units.natAbs + (items.map fun item => (count item).natAbs).sum < tenTo precision) :
    ∃ z, (items.map amount).foldlM Decimal.add x = .ok z ∧
      z.Counts places (units + (items.map count).sum) := by
  induction items generalizing x units with
  | nil => exact ⟨x, rfl, by simpa using hx⟩
  | cons item rest ih =>
      rw [List.forall_mem_cons] at hitems
      rw [List.map_cons, List.sum_cons] at hsum
      have htriangle := Int.natAbs_add_le units (count item)
      obtain ⟨next, hnext, hcounts⟩ := hx.add hplaces hitems.1 (by omega)
      obtain ⟨z, hz, hfinal⟩ := ih hitems.2 hcounts (by omega)
      refine ⟨z, ?_, ?_⟩
      · rw [List.map_cons, List.foldlM_cons, hnext]
        exact hz
      · rwa [List.map_cons, List.sum_cons, ← add_assoc]

/-- Counting units turns a decimal sum into a sum of rational numbers. -/
theorem Counts.value_eq_sum {α : Type} {amount : α → Decimal} {count : α → Int} {items : List α}
    (hitems : ∀ item ∈ items, (amount item).Counts places (count item))
    (hx : x.Counts places (items.map count).sum) :
    x.value = (items.map fun item => (amount item).value).sum := by
  refine hx.value_eq_of_mul ?_
  have hcast := map_list_sum (Int.castRingHom ℚ) (items.map count)
  rw [List.map_map] at hcast
  rw [← List.sum_map_mul_right]
  refine Eq.trans ?_ hcast.symm
  exact congrArg _ (List.map_congr_left fun item hitem => (hitems item hitem).2)

/-- A sum of any length is exact when the units of all summands together are few enough, in whatever order
they come. -/
theorem counts_sum {α : Type} (hplaces : places ≤ 1000026) {amount : α → Decimal} {count : α → Int}
    {items : List α} (hitems : ∀ item ∈ items, (amount item).Counts places (count item))
    (hsum : (items.map fun item => (count item).natAbs).sum < tenTo precision) :
    ∃ z, Decimal.sum (items.map amount) = .ok z ∧ z.Counts places (items.map count).sum := by
  obtain ⟨z, hz, hcounts⟩ := counts_foldlM hplaces hitems (counts_zero places)
    (by simpa using hsum)
  exact ⟨z, hz, by simpa using hcounts⟩

/-- A product lives on the product of both grids. -/
theorem Counts.mul {more : Nat} (hplaces : places + more ≤ 1000026) (hx : x.Counts places units)
    (hy : y.Counts more others) (hproduct : (units * others).natAbs < tenTo precision) :
    ∃ z, x.mul y = .ok z ∧ z.Counts (places + more) (units * others) := by
  refine (roundsTo_mul hx.1 hy.1).counts hplaces ?_ hproduct
  rw [pow_add, Int.cast_mul, ← hx.2, ← hy.2]
  ring

/-- A quotient that counts units is exact. -/
theorem Counts.div (hplaces : places ≤ 1000026) (hx : x.Counts places (units * others))
    (hy : y.Counts 0 others) (hothers : others ≠ 0) (hunits : units.natAbs < tenTo precision) :
    ∃ z, x.div y = .ok z ∧ z.Counts places units := by
  have hcast : (others : ℚ) ≠ 0 := by exact_mod_cast hothers
  have hvalue : y.value = others := by simpa using hy.2
  refine (roundsTo_div hx.1 hy.1 (hvalue ▸ hcast)).counts hplaces ?_ hunits
  rw [hvalue, div_mul_eq_mul_div, hx.2, Int.cast_mul, mul_div_assoc, div_self hcast, mul_one]

/-- A quotient of whole units is no larger than the number of units that are divided. -/
theorem Counts.abs_div_lt (hx : x.Counts places units) (hy : y.Counts places others)
    (hothers : others ≠ 0) (hunits : units.natAbs < tenTo precision) :
    |x.value / y.value| < 10 ^ precision := by
  have hone : (1 : ℚ) ≤ |(others : ℚ)| := by exact_mod_cast Int.one_le_abs hothers
  rw [hx.value_eq, hy.value_eq, div_div_div_cancel_right₀ (by positivity), abs_div]
  exact (div_le_self (abs_nonneg _) hone).trans_lt (abs_cast_lt hunits)

/-- A negative number of units is at least one unit below zero, so its quotients are not next to zero. -/
theorem Counts.div_le (hx : x.Counts places units) {divisor : ℚ} (hpos : 0 < divisor) {k : Nat}
    (hlimit : divisor * 10 ^ places ≤ 10 ^ k) (hneg : x.value / divisor < 0) :
    x.value / divisor ≤ -10 ^ (-(k : Int)) := by
  have hscale : (0 : ℚ) < 10 ^ places := by positivity
  have hpower : (0 : ℚ) < 10 ^ k := by positivity
  have hunit : x.value * 10 ^ places ≤ -1 := by
    have hbelow := mul_neg_of_neg_of_pos
      ((div_neg_iff.1 hneg).resolve_left fun h => hpos.not_gt h.2).1 hscale
    rw [hx.2] at hbelow ⊢
    have hunits : units < 0 := by exact_mod_cast hbelow
    exact_mod_cast (by omega : units ≤ -1)
  have hshare : (10 ^ k)⁻¹ * (divisor * 10 ^ places) ≤ 1 := by
    rwa [inv_mul_le_iff₀ hpower, mul_one]
  rw [zpow_neg, zpow_natCast, div_le_iff₀ hpos, ← mul_le_mul_iff_left₀ hscale]
  linarith

/-- A number that counts units can be divided by any whole number, exactly or not. -/
theorem Counts.returns_div_ofInt (hx : x.Counts places units)
    (hunits : units.natAbs < tenTo precision) {n : Int} (hn : n ≠ 0) :
    Returns (x.div (ofInt n)) := by
  have hcast : (n : ℚ) ≠ 0 := by exact_mod_cast hn
  have hquotient : |x.value / (ofInt n).value| < 10 ^ maxExponent := by
    have hone : (1 : ℚ) ≤ |(n : ℚ)| := by exact_mod_cast Int.one_le_abs hn
    rw [value_ofInt, abs_div]
    calc |x.value| / |(n : ℚ)| ≤ |x.value| := div_le_self (abs_nonneg _) hone
      _ < 10 ^ precision := abs_lt_of_counts hx.2 hunits
      _ < 10 ^ maxExponent := ten_pow_lt_maxExponent (by decide)
  obtain ⟨z, hz, -⟩ :=
    (roundsTo_div hx.1 (isFinite_ofInt n) (by rwa [value_ofInt])).exists_ok hquotient
  exact ⟨z, hz⟩

end Decimal

end Appraisal
