import Appraisal.Proofs.Decimal.Exact
import Appraisal.Proofs.Evaluation.MissingValues

/-!
# The flags of a negative income

The expense ratio, the net operating income, its margin and the property value are each judged on their own:
a quotient that has been rounded twice against a hundred, an exact difference and rounded quotients against
zero.  As long as income and expenses count whole units of a few places, rounding leaves every quotient on its
side of the bound, because the next smaller or larger quotient can be held.  So the flags never contradict
each other.
-/

namespace Appraisal

/-! ## Findings -/

namespace Rule

variable {rule : Rule} {number : Decimal}

/-- The bounds are finite. -/
def FiniteBounds (rule : Rule) : Prop :=
  (∀ bound, rule.minValue = some bound → bound.isFinite = true) ∧
    ∀ bound, rule.maxValue = some bound → bound.isFinite = true

/-- The number lies outside of the bounds. -/
def Breaks (number : Decimal) (rule : Rule) : Prop :=
  (∃ bound, rule.minValue = some bound ∧ number.value < bound.value) ∨
    ∃ bound, rule.maxValue = some bound ∧ bound.value < number.value

/-- A comparison with a finite bound has an answer; without a bound nothing lies below it. -/
theorem below_eq_ok (hnumber : number.isFinite = true) {bound : Option Decimal}
    (hbound : ∀ least, bound = some least → least.isFinite = true) :
    ∃ answer, below number bound = .ok answer ∧
      (answer = true ↔ ∃ least, bound = some least ∧ number.value < least.value) := by
  cases bound with
  | none => exact ⟨false, rfl, by simp⟩
  | some least => exact ⟨_, Decimal.lt?_eq_ok hnumber (hbound least rfl), by simp⟩

theorem above_eq_ok (hnumber : number.isFinite = true) {bound : Option Decimal}
    (hbound : ∀ most, bound = some most → most.isFinite = true) :
    ∃ answer, above number bound = .ok answer ∧
      (answer = true ↔ ∃ most, bound = some most ∧ most.value < number.value) := by
  cases bound with
  | none => exact ⟨false, rfl, by simp⟩
  | some most => exact ⟨_, Decimal.lt?_eq_ok (hbound most rfl) hnumber, by simp⟩

/-- A rule with finite bounds finds exactly the numbers beyond them. -/
theorem check_eq_ok (hnumber : number.isFinite = true) (hbounds : rule.FiniteBounds) :
    (rule.Breaks number → rule.check (some number) = .ok (some rule.finding)) ∧
      (¬ rule.Breaks number → rule.check (some number) = .ok none) := by
  obtain ⟨isBelow, hbelow, hbelowIff⟩ := below_eq_ok hnumber hbounds.1
  obtain ⟨isAbove, habove, haboveIff⟩ := above_eq_ok hnumber hbounds.2
  have hcheck : rule.check (some number) =
      if isBelow || isAbove then .ok (some rule.finding) else .ok none := by
    rw [check, hbelow, habove]
    rfl
  have hbreaks : (isBelow || isAbove) = true ↔ rule.Breaks number := by
    rw [Bool.or_eq_true, hbelowIff, haboveIff, Breaks]
  rw [hcheck, ← hbreaks]
  exact ⟨fun h => if_pos h, fun h => if_neg h⟩

/-- The first rule that is broken is reported, and later rules have no say in it. -/
theorem firstFinding_cons (rest : List Rule) (hnumber : number.isFinite = true)
    (hbounds : rule.FiniteBounds) :
    (rule.Breaks number → firstFinding (rule :: rest) (some number) = .ok rule.finding) ∧
      (¬ rule.Breaks number →
        firstFinding (rule :: rest) (some number) = firstFinding rest (some number)) := by
  obtain ⟨hbroken, hkept⟩ := check_eq_ok hnumber hbounds
  refine ⟨fun h => ?_, fun h => ?_⟩
  · rw [firstFinding, hbroken h]
    rfl
  · rw [firstFinding, hkept h]
    rfl

end Rule

namespace Evaluation

variable {settings : Settings} {clock : Clock} {now modelId : String} {formula : Formula} {inputs raw : Inputs}
  {functions : Dictionary CustomFunction} {record : CalculationResult} {registry : Registry}
  {values : String → Option Decimal} {number : Decimal} {rule : Rule}

/-- The value of a formula whose computation succeeds is among the results. -/
theorem get?_results_of_compute (hregistry : registry.Consistent) {trail : AuditTrail}
    (h : evaluate settings clock modelId registry raw = .ok trail) (hmem : formula ∈ registry.formulas)
    {value : Option Decimal}
    (hcompute : formula.compute (overlaid raw (valuesOf trail.results) formula.dependencies)
      registry.functions = .ok value) : trail.results.get? formula.id = some value := by
  have hid : formula.id ∈ trail.results.keys :=
    (keys_perm_of_evaluate hregistry h).mem_iff.2 (List.mem_map_of_mem hmem)
  have houtcome := (solved_of_evaluate hregistry h).2 formula hmem
  rw [Formula.outcome, hcompute] at houtcome
  exact (get?_eq_some_valuesOf hid).trans (congrArg some houtcome)

/-- What the record of a number says follows from the finding of the rules. -/
theorem verdict_of_evaluateFormula
    (h : evaluateFormula settings now formula inputs functions = .ok record)
    (hcompute : formula.compute inputs functions = .ok (some number)) :
    ∃ finding, Rule.firstFinding formula.rules (some number) = .ok finding ∧
      record.value = some number ∧ (record.isValid = false ↔ finding.severity = .error) ∧
      (record.warning ≠ none ↔ finding.severity = .warning ∧ finding.message ≠ none) := by
  obtain ⟨_, _, _, _, found, _, -, -, -, -, hfound, -, rfl⟩ := evaluateFormula_eq_ok_iff.1 h
  rw [hcompute] at hfound
  obtain ⟨finding, hfinding, hfound⟩ := bind_eq_ok.1 hfound
  obtain rfl := pure_eq_ok.1 hfound
  refine ⟨finding, hfinding, value_verdictOf _ _, ?_, ?_⟩ <;> unfold verdictOf <;>
    cases finding.severity <;> simp

/-- A number is refused exactly if it breaks the one rule that is an error, the first. -/
theorem isValid_eq_false_iff (h : evaluateFormula settings now formula inputs functions = .ok record)
    (hcompute : formula.compute inputs functions = .ok (some number))
    (hnumber : number.isFinite = true) {rest : List Rule} (hrules : formula.rules = rule :: rest)
    (hseverity : rule.severity = .error) (hbounds : rule.FiniteBounds)
    (hrest : ∀ other ∈ rest, other.severity ≠ .error) :
    record.isValid = false ↔ rule.Breaks number := by
  obtain ⟨found, hfound, -, hvalid, -⟩ := verdict_of_evaluateFormula h hcompute
  obtain ⟨hbroken, hkept⟩ := Rule.firstFinding_cons rest hnumber hbounds
  rw [hvalid]
  rw [hrules] at hfound
  constructor
  · intro herror
    by_contra hinside
    rw [hkept hinside] at hfound
    -- Only the first rule has this severity, so an error can be no one else's.
    rcases Rule.finding_of_firstFinding hfound with rfl | ⟨other, hmem, rfl⟩
    · cases herror
    · exact hrest other hmem herror
  · intro hbreaks
    rw [hbroken hbreaks] at hfound
    obtain rfl := Except.ok.inj hfound
    exact hseverity

/-- A number carries a warning exactly if it breaks the only rule, which is a warning. -/
theorem warning_ne_none_iff (h : evaluateFormula settings now formula inputs functions = .ok record)
    (hcompute : formula.compute inputs functions = .ok (some number))
    (hnumber : number.isFinite = true) (hrules : formula.rules = [rule])
    (hseverity : rule.severity = .warning) (hbounds : rule.FiniteBounds) :
    record.warning ≠ none ↔ rule.Breaks number := by
  obtain ⟨found, hfound, -, -, hwarning⟩ := verdict_of_evaluateFormula h hcompute
  obtain ⟨hbroken, hkept⟩ := Rule.firstFinding_cons [] hnumber hbounds
  rw [hwarning]
  rw [hrules] at hfound
  constructor
  · rintro ⟨hwarned, -⟩
    by_contra hinside
    obtain rfl := Except.ok.inj ((hkept hinside).symm.trans hfound)
    cases hwarned
  · intro hbreaks
    obtain rfl := Except.ok.inj ((hbroken hbreaks).symm.trans hfound)
    exact ⟨hseverity, by simp [Rule.finding]⟩

end Evaluation

/-! ## Quotients -/

/-- A positive number passes the check for one. -/
theorem Operand.taken_of_pos {operand : Operand} {inputs : Inputs} {number : Decimal}
    (hfound : Formula.found inputs operand = some number) (hfinite : number.isFinite = true)
    (hpos : 0 < number.value) (hunweighted : operand.coefficient = none) : operand.Taken inputs := by
  refine ⟨?_, hunweighted⟩
  have hlarge : number.le? .zero = .ok false := by
    rw [Decimal.le?_eq_ok hfinite rfl, Decimal.value_zero, decide_eq_false hpos.not_ge]
  rw [hfound]
  unfold Formula.found at hfound
  unfold Operand.resolve Operand.ifPositive
  rw [hfound]
  dsimp only
  rw [hlarge]
  cases operand.positive <;> rfl

namespace Formula

open Decimal (nearest maxExponent precision)

variable {formula : Formula} {inputs : Inputs} {functions : Dictionary CustomFunction}
  {dividend divisor : Operand} {x y quotient : Decimal} {value : Option Decimal}

/-- The formula divides one operand by another one of its own key. -/
structure IsQuotient (formula : Formula) (dividend divisor : Operand) : Prop where
  operation : formula.operation = .divide
  operands : formula.operands = [dividend, divisor]
  keys : dividend.key ≠ divisor.key
  plain : dividend.Plain
  unweighted : divisor.coefficient = none

/-- The value of a quotient is that of the division, with its scale. -/
theorem IsQuotient.compute (h : formula.IsQuotient dividend divisor)
    (hx : found inputs dividend = some x) (hy : found inputs divisor = some y)
    (hfinite : y.isFinite = true) (hpos : 0 < y.value) (hquotient : x.div y = .ok quotient)
    (hscaled : formula.scaled quotient = .ok value) :
    formula.compute inputs functions = .ok value := by
  have happly : formula.operation.apply [x, y] = .ok (some quotient) := by
    rw [h.operation]
    exact bind_eq_ok.2 ⟨false, Decimal.isZero?_of_pos hfinite hpos, bind_eq_ok.2 ⟨quotient, hquotient, rfl⟩⟩
  refine compute_of_taken [x, y] (by rw [h.operation]; decide) ?_ ?_ ?_ happly hscaled
  · rw [h.operands]
    simp only [List.forall_mem_cons]
    exact ⟨h.plain.taken inputs, Operand.taken_of_pos hy hfinite hpos h.unweighted, by simp⟩
  · simpa [h.operands] using h.keys
  · simp [h.operands, hx, hy]

/-- A quotient in the range of exponents is computed, and rounded once. -/
theorem IsQuotient.exists_compute (functions : Dictionary CustomFunction)
    (h : formula.IsQuotient dividend divisor) (hscale : formula.scale = none)
    (hx : found inputs dividend = some x) (hy : found inputs divisor = some y)
    (hxFinite : x.isFinite = true) (hyFinite : y.isFinite = true) (hpos : 0 < y.value)
    (hrange : |x.value / y.value| < 10 ^ maxExponent) :
    ∃ z, formula.compute inputs functions = .ok (some z) ∧ z.isFinite = true ∧
      z.value = nearest (x.value / y.value) := by
  obtain ⟨z, hz, hfinite, hvalue⟩ := (Decimal.roundsTo_div hxFinite hyFinite hpos.ne').exists_ok hrange
  exact ⟨z, h.compute hx hy hyFinite hpos hz (scaled_of_isFinite hscale hfinite), hfinite, hvalue⟩

/-- What rounding makes of a share in percent: the quotient is rounded, and so is its hundredfold. -/
def roundedPercentage (share : ℚ) : ℚ :=
  nearest (nearest share * 100)

/-- A moderate quotient is computed in percent, and rounded twice. -/
theorem IsQuotient.exists_compute_percentage (functions : Dictionary CustomFunction)
    (h : formula.IsQuotient dividend divisor)
    (hscale : formula.scale = some DirectCap.hundred) (hx : found inputs dividend = some x)
    (hy : found inputs divisor = some y) (hxFinite : x.isFinite = true) (hyFinite : y.isFinite = true)
    (hpos : 0 < y.value) (hmoderate : |x.value / y.value| < 10 ^ precision) :
    ∃ z, formula.compute inputs functions = .ok (some z) ∧ z.isFinite = true ∧
      z.value = roundedPercentage (x.value / y.value) := by
  have hhundred : DirectCap.hundred.value = 100 := by simp [DirectCap.hundred]
  obtain ⟨quotient, hquotient, hquotientFinite, hquotientValue⟩ :=
    (Decimal.roundsTo_div hxFinite hyFinite hpos.ne').exists_ok
      (hmoderate.trans (Decimal.ten_pow_lt_maxExponent (by decide)))
  -- Rounding keeps the bound on the quotient, and a hundred times the bound is still far from overflow.
  have hquotientLe : |quotient.value| ≤ 10 ^ (28 : Int) := by
    rw [hquotientValue]
    exact (Decimal.held_zpow (by decide)).abs_nearest_le hmoderate.le
  have hproduct : |quotient.value * DirectCap.hundred.value| < 10 ^ maxExponent := by
    refine lt_of_le_of_lt ?_ (Decimal.ten_pow_lt_maxExponent (show 30 < 999999 by decide))
    rw [hhundred, abs_mul, show (10 : ℚ) ^ 30 = 10 ^ (28 : Int) * |100| by norm_num]
    exact mul_le_mul_of_nonneg_right hquotientLe (abs_nonneg _)
  obtain ⟨z, hz, hfinite, hvalue⟩ :=
    (Decimal.roundsTo_mul hquotientFinite (show DirectCap.hundred.isFinite = true from rfl)).exists_ok
      hproduct
  refine ⟨z, h.compute hx hy hyFinite hpos hquotient ?_, hfinite, ?_⟩
  · unfold scaled Payload.finiteOnly
    rw [hscale]
    exact bind_eq_ok.2 ⟨z, hz, by rw [if_pos hfinite]; rfl⟩
  · rw [hvalue, hquotientValue, hhundred, roundedPercentage]

/-- Rounding a percentage keeps its sign, unless the share is next to zero. -/
theorem roundedPercentage_neg_iff {share : ℚ} (h : share < 0 → share ≤ -10 ^ (-27 : Int)) :
    roundedPercentage share < 0 ↔ share < 0 := by
  have hfirst : nearest share < 0 ↔ share < 0 := Decimal.nearest_neg_iff (by decide) h
  -- The first rounding does not come closer to zero than the bound, which can be held.
  have hscaled : nearest share * 100 < 0 → nearest share * 100 ≤ -10 ^ (-27 : Int) := by
    intro hneg
    have hle := (Decimal.held_zpow (show Decimal.leastExponent ≤ -27 by decide)).neg.nearest_le
      (h (hfirst.1 (by linarith)))
    linarith
  rw [roundedPercentage, Decimal.nearest_neg_iff (by decide) hscaled, ← hfirst]
  exact ⟨fun hneg => by linarith, fun hneg => by linarith⟩

/-- Rounding a percentage keeps it on its side of a hundred, unless the share is next to one. -/
theorem hundred_lt_roundedPercentage_iff {share : ℚ} (h : 1 < share → 1 + 10 ^ (-27 : Int) ≤ share) :
    100 < roundedPercentage share ↔ 1 < share := by
  unfold roundedPercentage
  constructor
  · intro hlarge
    by_contra hsmall
    have hshare : nearest share ≤ 1 := Decimal.held_one.nearest_le (not_lt.1 hsmall)
    have hhundred : Decimal.Held 100 := Decimal.held_intCast (show (100 : Int).natAbs < _ by decide)
    exact hlarge.not_ge (hhundred.nearest_le (by linarith))
  · intro hlarge
    -- One unit of the last place above one, and above a hundred, can be held.
    have hnext : Decimal.Held (1 + 10 ^ (-27 : Int)) :=
      ⟨10 ^ 27 + 1, -27, by decide, by decide, by norm_num⟩
    have habove : Decimal.Held (100 + 10 ^ (-25 : Int)) :=
      ⟨10 ^ 27 + 1, -25, by decide, by decide, by norm_num⟩
    have hshare := hnext.le_nearest (h hlarge)
    have hproduct := habove.le_nearest (show 100 + 10 ^ (-25 : Int) ≤ nearest share * 100 by
      rw [show (10 : ℚ) ^ (-25 : Int) = 10 ^ (-27 : Int) * 100 by norm_num]
      linarith)
    have hpos : (0 : ℚ) < 10 ^ (-25 : Int) := by positivity
    linarith

end Formula

/-! ## Direct capitalization -/

/-- The number is found to be negative. -/
def Decimal.IsNegative (x : Decimal) : Prop :=
  x.lt? .zero = .ok true

/-- The sign as the tests of the program see it is the sign of the value. -/
theorem Decimal.isNegative_iff {x : Decimal} (h : x.isFinite = true) : x.IsNegative ↔ x.value < 0 := by
  rw [IsNegative, lt?_eq_true_iff h rfl, value_zero]

/-- The number is a multiple of a unit of so many places, and its digits above the unit leave room for one
more. -/
def Decimal.FewPlaces (places : Nat) (x : Decimal) : Prop :=
  (∃ units, x.Counts places units) ∧ |x.value| < 10 ^ ((27 : Int) - places)

/-- Numbers with few places count units with room for one more digit. -/
theorem Decimal.FewPlaces.exists_units {places : Nat} {x : Decimal} (h : x.FewPlaces places) :
    ∃ units, x.Counts places units ∧ units.natAbs < tenTo 27 := by
  obtain ⟨⟨units, hunits⟩, hlt⟩ := h
  exact ⟨units, hunits, hunits.natAbs_lt hlt⟩

namespace DirectCap

open Evaluation
open Decimal (nearest precision maxExponent)

/-- An income and expenses in whole units, few enough for their difference to be exact. -/
structure Balance (effective total net : Decimal) (places : Nat) (earned spent : Int) : Prop where
  effectiveCounts : effective.Counts places earned
  totalCounts : total.Counts places spent
  netCounts : net.Counts places (earned - spent)
  earned_lt : earned.natAbs < tenTo 27
  spent_lt : spent.natAbs < tenTo 27
  pos : 0 < effective.value

variable {rate : Decimal} {raw : Inputs} {values : String → Option Decimal}
  {effective expenses total net : Decimal} {places : Nat} {earned spent : Int}

namespace Balance

variable (h : Balance effective total net places earned spent)
include h

theorem earned_pos : 0 < earned := by
  have hscaled := mul_pos h.pos (show (0 : ℚ) < 10 ^ places by positivity)
  rw [h.effectiveCounts.2] at hscaled
  exact_mod_cast hscaled

theorem net_value : net.value = effective.value - total.value :=
  h.netCounts.value_eq_of_mul (by rw [sub_mul, h.effectiveCounts.2, h.totalCounts.2, Int.cast_sub])

theorem difference_lt : (earned - spent).natAbs < tenTo precision := by
  have hprecision : tenTo precision = 10 * tenTo 27 := rfl
  have hearned := h.earned_lt
  have hspent := h.spent_lt
  omega

theorem abs_share_lt : |total.value / effective.value| < 10 ^ precision :=
  h.totalCounts.abs_div_lt h.effectiveCounts h.earned_pos.ne' (h.spent_lt.trans (by decide))

theorem abs_margin_lt : |net.value / effective.value| < 10 ^ precision :=
  h.netCounts.abs_div_lt h.effectiveCounts h.earned_pos.ne' h.difference_lt

/-- The income is positive, so a quotient by it has the sign of its dividend. -/
theorem margin_neg_iff : net.value / effective.value < 0 ↔ net.value < 0 := by
  rw [div_lt_iff₀ h.pos, zero_mul]

/-- Expenses exceed the income exactly when nothing is left. -/
theorem one_lt_share_iff : 1 < total.value / effective.value ↔ net.value < 0 := by
  rw [one_lt_div h.pos, h.net_value, sub_neg]

/-- A loss is at least a unit, and a unit is not next to nothing of the income. -/
theorem margin_le (hneg : net.value / effective.value < 0) :
    net.value / effective.value ≤ -10 ^ (-27 : Int) := by
  refine h.netCounts.div_le h.pos ?_ hneg
  have hearned := h.earned_lt
  rw [h.effectiveCounts.2, ← Decimal.cast_tenTo]
  exact_mod_cast (by omega : earned ≤ (tenTo 27 : Int))

/-- Expenses that exceed the income do so visibly: their share is the next number after one, or larger. -/
theorem share_le (hover : 1 < total.value / effective.value) :
    1 + 10 ^ (-27 : Int) ≤ total.value / effective.value := by
  have hmargin := h.margin_le (h.margin_neg_iff.2 (h.one_lt_share_iff.1 hover))
  rw [h.net_value, sub_div, div_self h.pos.ne'] at hmargin
  linarith

/-- A loss over any rate that is not extreme is within the range of exponents. -/
theorem abs_value_lt {capRate : ℚ} (hleast : 10 ^ (-1000 : Int) ≤ capRate) :
    |net.value / capRate| < 10 ^ maxExponent := by
  have hpos : 0 < capRate := lt_of_lt_of_le (by positivity) hleast
  rw [abs_div, abs_of_pos hpos, div_lt_iff₀ hpos]
  calc |net.value| < 10 ^ precision := Decimal.abs_lt_of_counts h.netCounts.2 h.difference_lt
    _ = 10 ^ (1028 : Int) * 10 ^ (-1000 : Int) := by
        rw [← zpow_natCast, ← zpow_add₀ (by norm_num)]
        rfl
    _ ≤ 10 ^ maxExponent * capRate :=
        mul_le_mul (zpow_le_zpow_right₀ (by norm_num) (by decide)) hleast (by positivity) (by positivity)

/-- A loss over any rate that is not extreme can be told from nothing. -/
theorem value_le (hplaces : places ≤ 20) {capRate : ℚ} (hleast : 10 ^ (-1000 : Int) ≤ capRate)
    (hmost : capRate ≤ 10 ^ (1000 : Int)) (hneg : net.value / capRate < 0) :
    net.value / capRate ≤ -10 ^ (-1020 : Int) := by
  refine h.netCounts.div_le (lt_of_lt_of_le (by positivity) hleast) (k := 1020) ?_ hneg
  calc capRate * 10 ^ places ≤ 10 ^ (1000 : Int) * 10 ^ 20 :=
        mul_le_mul hmost (pow_le_pow_right₀ (by norm_num) hplaces) (by positivity) (by positivity)
    _ = 10 ^ 1020 := by rw [show (1000 : Int) = (1000 : Nat) from rfl, zpow_natCast, ← pow_add]

end Balance

/-! ### The formulas -/

/-- A dependency is read from the results. -/
theorem found_of_dependency {operand : Operand} (dependencies : List String) {x : Decimal}
    (hmem : operand.key ∈ dependencies) (h : values operand.key = some x) :
    Formula.found (overlaid raw values dependencies) operand = some x := by
  simp [Formula.found, overlaid, hmem, h]

/-- What is no dependency is read from the raw inputs. -/
theorem found_of_entry {operand : Operand} (dependencies : List String) {x : Decimal}
    (hmem : operand.key ∉ dependencies) (h : raw operand.key = some x) :
    Formula.found (overlaid raw values dependencies) operand = some x := by
  simp [Formula.found, overlaid, hmem, h]

/-- The total of the expenses is their one entry. -/
theorem exists_totalOperatingExpenses (functions : Dictionary CustomFunction)
    (hexpenses : raw "totalExpenses" = some expenses) (hcounts : expenses.Counts places spent)
    (hplaces : places ≤ 20) (hspent : spent.natAbs < tenTo 27) :
    ∃ total, totalOperatingExpenses.compute
        (overlaid raw values totalOperatingExpenses.dependencies) functions = .ok (some total) ∧
      total.Counts places spent := by
  obtain ⟨total, htotal, htotalCounts⟩ := hcounts.sum_singleton (by omega)
    (hspent.trans (by decide))
  refine ⟨total, Formula.compute_of_taken [expenses] (by decide) ?_ (by decide) ?_
    (bind_eq_ok.2 ⟨total, htotal, rfl⟩) (Formula.scaled_of_isFinite rfl htotalCounts.1), htotalCounts⟩
  · simp only [totalOperatingExpenses, List.forall_mem_cons]
    exact ⟨Operand.Plain.taken ⟨rfl, rfl⟩ _, by simp⟩
  · simp [totalOperatingExpenses, Formula.found, entry, overlaid, hexpenses]

/-- The net operating income is the exact difference of the effective income and the expenses. -/
theorem exists_netOperatingIncome (functions : Dictionary CustomFunction)
    (heffective : values "effectiveGrossIncome" = some effective)
    (htotal : values "totalOperatingExpenses" = some total)
    (heffectiveCounts : effective.Counts places earned) (htotalCounts : total.Counts places spent)
    (hplaces : places ≤ 20) (hearned : earned.natAbs < tenTo 27) (hspent : spent.natAbs < tenTo 27) :
    ∃ net, netOperatingIncome.compute
        (overlaid raw values netOperatingIncome.dependencies) functions = .ok (some net) ∧
      net.Counts places (earned - spent) := by
  have hprecision : tenTo precision = 10 * tenTo 27 := rfl
  obtain ⟨loss, hloss, hlossCounts⟩ := htotalCounts.sum_singleton (by omega) (by omega)
  obtain ⟨net, hnet, hnetCounts⟩ := heffectiveCounts.sub (by omega) hlossCounts (by omega)
  refine ⟨net, Formula.compute_of_taken [effective, total] (by decide) ?_ (by decide) ?_
    (bind_eq_ok.2 ⟨loss, hloss, bind_eq_ok.2 ⟨net, hnet, rfl⟩⟩)
    (Formula.scaled_of_isFinite rfl hnetCounts.1), hnetCounts⟩
  · simp only [netOperatingIncome, List.forall_mem_cons]
    exact ⟨Operand.Plain.taken ⟨rfl, rfl⟩ _, Operand.Plain.taken ⟨rfl, rfl⟩ _, by simp⟩
  · simp [netOperatingIncome, Formula.found, DirectCap.result, entry, overlaid, heffective, htotal]

theorem isQuotient_expenseRatio : expenseRatio.IsQuotient
    (DirectCap.result "totalOperatingExpenses" "Total Expenses" none false)
    (DirectCap.result "effectiveGrossIncome" "EGI" none true) :=
  ⟨rfl, rfl, by decide, ⟨rfl, rfl⟩, rfl⟩

theorem isQuotient_noiMargin : noiMargin.IsQuotient
    (DirectCap.result "netOperatingIncome" "NOI" none false)
    (DirectCap.result "effectiveGrossIncome" "EGI" none true) :=
  ⟨rfl, rfl, by decide, ⟨rfl, rfl⟩, rfl⟩

theorem isQuotient_propertyValue : propertyValue.IsQuotient
    (DirectCap.result "netOperatingIncome" "Net Operating Income" none false)
    (entry "capRate" "Capitalization Rate" "userInput.valuationInputs.capRate"
      (some "Market cap rate as decimal (e.g., 0.065 for 6.5%)") none true) :=
  ⟨rfl, rfl, by decide, ⟨rfl, rfl⟩, rfl⟩

theorem breaks_most {severity : Severity} {message : String} {most number : Decimal} :
    (bound severity message none (some most)).Breaks number ↔ most.value < number.value := by
  simp [Rule.Breaks, bound]

theorem breaks_least {severity : Severity} {message : String} {least number : Decimal} :
    (bound severity message (some least) none).Breaks number ↔ number.value < least.value := by
  simp [Rule.Breaks, bound]

/-! ### Flags of a run -/

/-- All flags of a run say whether the net operating income is negative. -/
structure FlagsAgree (raw : Inputs) (trail : AuditTrail) (net : Decimal) : Prop where
  expenseRatio : ∃ record, trail.get? "expenseRatio" = some record ∧
    (record.isValid = false ↔ net.IsNegative)
  netOperatingIncome : ∃ record, trail.get? "netOperatingIncome" = some record ∧
    (record.warning ≠ none ↔ net.IsNegative)
  noiMargin : ∃ margin, trail.results.get? "noiMargin" = some (some margin) ∧
    (margin.IsNegative ↔ net.IsNegative)
  /-- The value of the property is refused, unless the rate is extreme. -/
  propertyValue : ∀ capRate, raw "capRate" = some capRate → 10 ^ (-1000 : Int) ≤ capRate.value →
    capRate.value ≤ 10 ^ (1000 : Int) → ∃ record, trail.get? "propertyValue" = some record ∧
      (record.isValid = false ↔ net.IsNegative)

section Run

variable {settings : Settings} {clock : Clock} {now modelId : String} {trail : AuditTrail}
  (hrun : evaluate settings clock modelId (capitalization rate) raw = .ok trail)
  (hbalance : Balance effective total net places earned spent)
include hrun hbalance

/-- The ratio is rounded twice and still exceeds 100 only if the expenses exceed the income: the nearest ratio
below one is far enough from it. -/
theorem expenseRatio_refused_iff
    (heffective : valuesOf trail.results "effectiveGrossIncome" = some effective)
    (htotal : valuesOf trail.results "totalOperatingExpenses" = some total) :
    ∃ record, trail.get? "expenseRatio" = some record ∧
      (record.isValid = false ↔ net.IsNegative) := by
  obtain ⟨record, hrecord, hevaluate⟩ := get?_of_evaluate (reached_capitalization rate).consistent hrun
    (show expenseRatio ∈ (capitalization rate).formulas by simp [capitalization, formulas])
  obtain ⟨ratio, hcompute, hfinite, hvalue⟩ :=
    isQuotient_expenseRatio.exists_compute_percentage (capitalization rate).functions rfl
      (found_of_dependency expenseRatio.dependencies (by decide) htotal)
      (found_of_dependency expenseRatio.dependencies (by decide) heffective)
      hbalance.totalCounts.1 hbalance.effectiveCounts.1 hbalance.pos hbalance.abs_share_lt
  have hrefused := isValid_eq_false_iff hevaluate hcompute hfinite rfl rfl
    ⟨by rintro _ ⟨⟩, by rintro _ ⟨⟩; rfl⟩ (by simp [bound])
  -- The ratio exceeds a hundred percent where the expenses exceed the income.
  have hhundred : hundred.value = 100 := by simp [hundred]
  refine ⟨record, hrecord, ?_⟩
  rw [hrefused, breaks_most, hhundred, hvalue,
    Formula.hundred_lt_roundedPercentage_iff hbalance.share_le, hbalance.one_lt_share_iff,
    Decimal.isNegative_iff hbalance.netCounts.1]

/-- The warning stands or falls with the sign of what is left. -/
theorem netOperatingIncome_warned_iff
    (hcompute : netOperatingIncome.compute
      (overlaid raw (valuesOf trail.results) netOperatingIncome.dependencies)
      (capitalization rate).functions = .ok (some net)) :
    ∃ record, trail.get? "netOperatingIncome" = some record ∧
      (record.warning ≠ none ↔ net.IsNegative) := by
  obtain ⟨record, hrecord, hevaluate⟩ := get?_of_evaluate (reached_capitalization rate).consistent hrun
    (show netOperatingIncome ∈ (capitalization rate).formulas by simp [capitalization, formulas])
  have hwarned := warning_ne_none_iff hevaluate hcompute hbalance.netCounts.1 rfl rfl
    ⟨by rintro _ ⟨⟩; rfl, by rintro _ ⟨⟩⟩
  refine ⟨record, hrecord, ?_⟩
  rw [hwarned, breaks_least, Decimal.value_zero, Decimal.isNegative_iff hbalance.netCounts.1]

/-- Rounding does not change the sign of the margin. -/
theorem noiMargin_isNegative_iff
    (heffective : valuesOf trail.results "effectiveGrossIncome" = some effective)
    (hnet : valuesOf trail.results "netOperatingIncome" = some net) :
    ∃ margin, trail.results.get? "noiMargin" = some (some margin) ∧
      (margin.IsNegative ↔ net.IsNegative) := by
  obtain ⟨margin, hcompute, hfinite, hvalue⟩ :=
    isQuotient_noiMargin.exists_compute_percentage (capitalization rate).functions rfl
      (found_of_dependency noiMargin.dependencies (by decide) hnet)
      (found_of_dependency noiMargin.dependencies (by decide) heffective)
      hbalance.netCounts.1 hbalance.effectiveCounts.1 hbalance.pos hbalance.abs_margin_lt
  refine ⟨margin, get?_results_of_compute (reached_capitalization rate).consistent hrun
    (show noiMargin ∈ (capitalization rate).formulas by simp [capitalization, formulas]) hcompute, ?_⟩
  rw [Decimal.isNegative_iff hfinite, hvalue, Formula.roundedPercentage_neg_iff hbalance.margin_le,
    hbalance.margin_neg_iff, Decimal.isNegative_iff hbalance.netCounts.1]

/-- A rate that is not extreme cannot make a negative value vanish. -/
theorem propertyValue_refused_iff (hplaces : places ≤ 20)
    (hnet : valuesOf trail.results "netOperatingIncome" = some net) {capRate : Decimal}
    (hcapRate : raw "capRate" = some capRate) (hfinite : capRate.isFinite = true)
    (hleast : 10 ^ (-1000 : Int) ≤ capRate.value) (hmost : capRate.value ≤ 10 ^ (1000 : Int)) :
    ∃ record, trail.get? "propertyValue" = some record ∧
      (record.isValid = false ↔ net.IsNegative) := by
  have hpos : 0 < capRate.value := lt_of_lt_of_le (by positivity) hleast
  obtain ⟨record, hrecord, hevaluate⟩ := get?_of_evaluate (reached_capitalization rate).consistent hrun
    (show propertyValue ∈ (capitalization rate).formulas by simp [capitalization, formulas])
  obtain ⟨worth, hcompute, hworthFinite, hvalue⟩ :=
    isQuotient_propertyValue.exists_compute (capitalization rate).functions rfl
      (found_of_dependency propertyValue.dependencies (by decide) hnet)
      (found_of_entry propertyValue.dependencies (by decide) hcapRate)
      hbalance.netCounts.1 hfinite hpos (hbalance.abs_value_lt hleast)
  have hrefused := isValid_eq_false_iff hevaluate hcompute hworthFinite rfl rfl
    ⟨by rintro _ ⟨⟩; rfl, by rintro _ ⟨⟩⟩ (by simp)
  -- A negative quotient is too far from zero to be rounded to it.
  have hsign : nearest (net.value / capRate.value) < 0 ↔ net.value / capRate.value < 0 :=
    Decimal.nearest_neg_iff (by decide) (hbalance.value_le hplaces hleast hmost)
  refine ⟨record, hrecord, ?_⟩
  rw [hrefused, breaks_least, Decimal.value_zero, hvalue, hsign, div_lt_iff₀ hpos, zero_mul,
    Decimal.isNegative_iff hbalance.netCounts.1]

end Run

/-- In a run of direct capitalization with an effective income, the expense ratio, the net operating income,
its margin and the property value carry their flags together, for all amounts of few places: exactly if the
expenses exceed the income. -/
theorem flags_agree {rate : Decimal} {registry : Registry}
    (hregistry : DirectCap.registry rate = .ok registry) {settings : Settings} {clock : Clock} {modelId : String}
    {entries : Dictionary Payload} {trail : AuditTrail}
    (h : evaluate settings clock modelId registry (rawInputs entries) = .ok trail)
    {effective expenses : Decimal}
    (heffective : trail.results.get? "effectiveGrossIncome" = some (some effective))
    (hpositive : Decimal.zero.lt? effective = .ok true)
    (hexpenses : rawInputs entries "totalExpenses" = some expenses) {places : Nat}
    (hplaces : places ≤ 20) (hearned : effective.FewPlaces places) (hspent : expenses.FewPlaces places) :
    ∃ net, trail.results.get? "netOperatingIncome" = some (some net) ∧
      FlagsAgree (rawInputs entries) trail net := by
  obtain rfl := Except.ok.inj (hregistry.symm.trans (registry_eq rate))
  have hconsistent := (reached_capitalization rate).consistent
  have hvalue : ∀ {id x}, trail.results.get? id = some (some x) → valuesOf trail.results id = some x :=
    fun hget => by rw [valuesOf, hget]; rfl
  obtain ⟨earned, hearnedCounts, hearnedLt⟩ := hearned.exists_units
  obtain ⟨spent, hspentCounts, hspentLt⟩ := hspent.exists_units
  have hpos : 0 < effective.value := by
    rwa [Decimal.lt?_eq_true_iff rfl hearnedCounts.1, Decimal.value_zero] at hpositive
  -- Nothing is rounded up to the net operating income; from there on each flag is a rounded quotient.
  obtain ⟨total, htotalCompute, htotalCounts⟩ :=
    exists_totalOperatingExpenses (capitalization rate).functions hexpenses hspentCounts hplaces hspentLt
  have htotal := hvalue (get?_results_of_compute hconsistent h
    (show totalOperatingExpenses ∈ (capitalization rate).formulas by simp [capitalization, formulas])
    htotalCompute)
  obtain ⟨net, hnetCompute, hnetCounts⟩ :=
    exists_netOperatingIncome (capitalization rate).functions (hvalue heffective) htotal hearnedCounts
      htotalCounts hplaces hearnedLt hspentLt
  have hnet := get?_results_of_compute hconsistent h
    (show netOperatingIncome ∈ (capitalization rate).formulas by simp [capitalization, formulas])
    hnetCompute
  have hbalance : Balance effective total net places earned spent :=
    ⟨hearnedCounts, htotalCounts, hnetCounts, hearnedLt, hspentLt, hpos⟩
  refine ⟨net, hnet, ?_⟩
  constructor
  · exact expenseRatio_refused_iff h hbalance (hvalue heffective) htotal
  · exact netOperatingIncome_warned_iff h hbalance hnetCompute
  · exact noiMargin_isNegative_iff h hbalance (hvalue heffective) (hvalue hnet)
  · exact fun capRate hcapRate hleast hmost => propertyValue_refused_iff h hbalance hplaces (hvalue hnet)
      hcapRate (isFinite_rawInputs entries _ _ hcapRate) hleast hmost

/-- Entries with the least loss on a large income. -/
def overdrawn : Dictionary Payload :=
  [("totalRevenue", .int 999999999999999999999999998), ("vacancyRate", .int 0),
    ("totalExpenses", .int 999999999999999999999999999), ("capRate", .text "0.05")]

/-- The share of the expenses is the first number above one that can be held, and all four flags are up. -/
theorem flags_agree_overdrawn :
    ∃ registry trail,
      DirectCap.registry defaultVacancyRate = .ok registry ∧
      evaluate .usual "monday" "a" registry (rawInputs overdrawn) = .ok trail ∧
      trail.results.get? "netOperatingIncome" = some (some (.ofInt (-1))) ∧
      FlagsAgree (rawInputs overdrawn) trail (.ofInt (-1)) ∧
      (trail.get? "expenseRatio").map CalculationResult.isValid = some false ∧
      (trail.get? "propertyValue").map CalculationResult.isValid = some false := by
  have hrun : ((evaluate .usual "monday" "a" (capitalization defaultVacancyRate)
      (rawInputs overdrawn)).toOption.map fun trail =>
        (trail.results.get? "effectiveGrossIncome", trail.results.get? "netOperatingIncome",
          (trail.get? "expenseRatio").map CalculationResult.isValid,
          (trail.get? "propertyValue").map CalculationResult.isValid)) =
        some (some (some (.ofInt 999999999999999999999999998)), some (some (.ofInt (-1))),
          some false, some false) := by decide +kernel
  obtain ⟨trail, htrail, hresults⟩ := Option.map_eq_some_iff.1 hrun
  rw [toOption_eq_some] at htrail
  simp only [Prod.mk.injEq] at hresults
  obtain ⟨heffective, hincome, hratio, hworth⟩ := hresults
  obtain ⟨net, hnet, hflags⟩ := flags_agree (registry_eq _) htrail heffective (by decide +kernel)
    (show rawInputs overdrawn "totalExpenses" = some (.ofInt 999999999999999999999999999) by
      decide +kernel)
    (show 0 ≤ 20 by decide) ⟨⟨_, Decimal.counts_ofInt _⟩, by norm_num⟩
    ⟨⟨_, Decimal.counts_ofInt _⟩, by norm_num⟩
  obtain rfl : net = .ofInt (-1) := Option.some.inj (Option.some.inj (hnet.symm.trans hincome))
  exact ⟨_, trail, registry_eq _, htrail, hincome, hflags, hratio, hworth⟩

end DirectCap
end Appraisal
