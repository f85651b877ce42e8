import Appraisal.Proofs.Decimal.Finite
import Appraisal.Proofs.Evaluation.DirectCapitalization
import Appraisal.Proofs.Evaluation.Explanation

/-!
# What a formula needs

A formula has a value only if its operands are usable.  Operands are found by their keys, so of several with
one key only the last decides; one that lacks its number or has one that should be positive and is not keeps
the formula from having a value.  Constants are not checked: an infinite default can be divided by, and an
undefined one cannot be compared.
-/

namespace Appraisal

open Decimal (OverflowOr FiniteOrOverflow overflowOr_ok overflowOr_mapM)

/-! ## Operations -/

namespace Operation

variable {operation : Operation} {value result : Decimal} {values weights : List Decimal}

/-- A finite result comes from finite numbers; only denominators may be infinite. -/
theorem Computes.origin (h : operation.Computes weights result) (hresult : result.isFinite = true) :
    ∃ first rest, weights = first :: rest ∧ first.isFinite = true ∧
      ∀ weight ∈ rest,
        weight.isFinite = true ∨ operation = .divide ∧ ∃ negative, weight = .infinite negative := by
  cases h with
  | add htotal | sum htotal =>
      obtain ⟨hfirst, hrest⟩ := List.forall_mem_cons.1 (Decimal.isFinite_of_sum htotal hresult)
      exact ⟨_, _, rfl, hfirst, fun weight hweight => .inl (hrest weight hweight)⟩
  | multiply hproduct =>
      obtain ⟨hfirst, hrest⟩ := List.forall_mem_cons.1 (Decimal.isFinite_of_product hproduct hresult)
      exact ⟨_, _, rfl, hfirst, fun weight hweight => .inl (hrest weight hweight)⟩
  | subtract hloss hdifference =>
      obtain ⟨hfirst, hlossFinite⟩ := Decimal.isFinite_of_sub hdifference hresult
      exact ⟨_, _, rfl, hfirst, fun weight hweight =>
        .inl (Decimal.isFinite_of_sum hloss hlossFinite weight hweight)⟩
  -- Here alone a weight may be infinite: dividing by it makes zero, which is finite.
  | divide hnonzero hquotient =>
      obtain ⟨hfirst, hrest⟩ := foldlM_origin (fun state => state.isFinite = true)
        (fun weight => weight.isFinite = true ∨ ∃ negative, weight = .infinite negative)
        (fun _ _ _ hnext hfinite => Decimal.isFinite_of_div hnext hfinite) hquotient hresult
      exact ⟨_, _, rfl, hfirst, fun weight hweight =>
        (hrest weight hweight).imp_right fun hinfinite => ⟨rfl, hinfinite⟩⟩

/-- A quotient that has a number was not divided by zero. -/
theorem Computes.nonzero (h : operation.Computes weights result) (hdivide : operation = .divide) :
    ∀ weight ∈ weights.tail, weight.isZero? = .ok false := by
  subst hdivide
  cases h with
  | divide hnonzero _ => exact hnonzero

/-- The number, if there is one, is finite. -/
def FiniteIfAny (found : Option Decimal) : Prop :=
  ∀ number, found = some number → number.isFinite = true

theorem finiteIfAny_some {number : Decimal} (h : number.isFinite = true) :
    FiniteIfAny (some number) :=
  fun _ heq => Option.some.inj heq ▸ h

theorem finiteIfAny_none : FiniteIfAny none :=
  fun _ heq => by cases heq

/-- Dividing finite numbers, one meets a zero, an overflow, or a finite quotient. -/
theorem overflowOr_quotient (hvalue : value.isFinite = true)
    (hvalues : ∀ x ∈ values, x.isFinite = true) :
    OverflowOr FiniteIfAny (quotient value values) := by
  induction values generalizing value with
  | nil => exact overflowOr_ok (finiteIfAny_some hvalue)
  | cons denominator rest ih =>
      rw [List.forall_mem_cons] at hvalues
      -- Finite numbers can always be tested for zero.
      obtain ⟨isZero, hzero⟩ : ∃ isZero, denominator.isZero? = .ok isZero := by
        obtain ⟨s, c, e, rfl⟩ := Decimal.exists_finite hvalues.1
        exact ⟨_, rfl⟩
      rw [quotient, hzero, ok_bind]
      cases isZero with
      | true => exact overflowOr_ok finiteIfAny_none
      | false =>
          exact (Decimal.finiteOrOverflow_div hvalue hvalues.1 hzero).bind fun next hnext =>
            ih hnext hvalues.2

/-- An operation on finite numbers fails only by an overflow. -/
theorem overflowOr_apply (operation : Operation) (hvalues : ∀ x ∈ values, x.isFinite = true) :
    OverflowOr FiniteIfAny (operation.apply values) := by
  -- Without operands there is no result; otherwise the first one is told apart from those behind it.
  cases values with
  | nil => cases operation <;> exact overflowOr_ok finiteIfAny_none
  | cons first rest =>
      have hparts := List.forall_mem_cons.1 hvalues
      cases operation with
      | custom => exact overflowOr_ok finiteIfAny_none
      | divide => exact overflowOr_quotient hparts.1 hparts.2
      | subtract =>
          refine (Decimal.finiteOrOverflow_sum hparts.2).bind fun loss hloss => ?_
          exact (Decimal.finiteOrOverflow_sub hparts.1 hloss).bind fun difference hdifference =>
            overflowOr_ok (finiteIfAny_some hdifference)
      | multiply =>
          exact (Decimal.finiteOrOverflow_product hvalues).bind fun product hproduct =>
            overflowOr_ok (finiteIfAny_some hproduct)
      | add | sum =>
          exact (Decimal.finiteOrOverflow_sum hvalues).bind fun total htotal =>
            overflowOr_ok (finiteIfAny_some htotal)

/-- A quotient with a zero among its denominators has no value, unless a division before it fails. -/
theorem quotient_of_zero {front back : List Decimal} {zero : Decimal} (value : Decimal)
    (hfront : ∀ denominator ∈ front, denominator.isZero? = .ok false)
    (hzero : zero.isZero? = .ok true) :
    quotient value (front ++ zero :: back) = (front.foldlM Decimal.div value).map fun _ => none := by
  induction front generalizing value with
  | nil =>
      rw [List.nil_append, quotient, hzero]
      rfl
  | cons denominator rest ih =>
      rw [List.forall_mem_cons] at hfront
      rw [List.cons_append, quotient, hfront.1, ok_bind, List.foldlM_cons]
      cases hnext : value.div denominator with
      | error signal => rfl
      | ok next => exact ih next hfront.2

end Operation

/-! ## Operands -/

namespace Operand

variable {operand : Operand} {inputs : Inputs} {number weight : Decimal} {negative : Bool}

/-- Why an operand, taken on its own, has no number. -/
inductive Lacks (operand : Operand) (inputs : Inputs) : Prop
  | missing (hmissing : Formula.found inputs operand = none)
  | notPositive {number : Decimal} (hnumber : Formula.found inputs operand = some number)
      (hrequired : operand.positive = true) (hsmall : number.le? .zero = .ok true)

/-- An operand lacks its number by what is supplied and by the sign, not by a failure. -/
theorem Lacks.resolve (h : operand.Lacks inputs) : operand.resolve inputs = .ok none := by
  unfold Operand.resolve
  cases h with
  | missing hmissing =>
      unfold Formula.found at hmissing
      rw [hmissing]
  | notPositive hnumber hrequired hsmall =>
      unfold Formula.found at hnumber
      rw [hnumber]
      simp only [ifPositive, hrequired, hsmall]
      rfl

/-- A coefficient cannot make an infinite number finite. -/
theorem isFinite_of_weighted (h : operand.weighted number = .ok weight)
    (hweight : weight.isFinite = true) : number.isFinite = true := by
  unfold weighted at h
  split at h
  · exact (Decimal.isFinite_of_mul h hweight).1
  · rwa [Except.ok.inj h]

theorem infinite_of_weighted (h : operand.weighted number = .ok (.infinite negative)) :
    number.isFinite = true ∨ ∃ sign, number = .infinite sign := by
  unfold weighted at h
  split at h
  · exact Decimal.infinite_of_mul h
  · exact .inr ⟨negative, Except.ok.inj h⟩

end Operand

/-! ## Formulas -/

namespace Formula

variable {formula : Formula} {inputs : Inputs} {functions : Dictionary CustomFunction}
  {resolved : Resolved} {operands : List Operand} {weights : List Decimal} {result : Decimal}

/-- Every number that should be positive has a place in the order of all numbers. -/
def Comparable (formula : Formula) (inputs : Inputs) : Prop :=
  ∀ operand ∈ formula.operands, operand.positive = true →
    ∀ number, found inputs operand = some number → number.Ordered

/-- The constants of the formula are finite. -/
structure FiniteConstants (formula : Formula) : Prop where
  defaults : formula.AllDefaults fun number => number.isFinite = true
  coefficients : ∀ operand ∈ formula.operands, ∀ coefficient,
    operand.coefficient = some coefficient → coefficient.isFinite = true
  scale : ∀ scale, formula.scale = some scale → scale.isFinite = true

/-- A formula with an operand that lacks its number has no value; the only thing that can go wrong is the
comparison of another number. -/
theorem compute_of_lacks (hoperation : formula.operation ≠ .custom) {operand : Operand}
    (hdecides : Decides formula.operands operand) (hlacks : operand.Lacks inputs) :
    formula.compute inputs functions = .ok none ↔ formula.Comparable inputs := by
  have hreturns := formula.resolve_returns_iff inputs
  constructor
  · intro h
    obtain ⟨resolved, hresolved, -⟩ := bind_eq_ok.1 h
    exact hreturns.1 ⟨resolved, ofDecimal_eq_ok.1 hresolved⟩
  · intro hcomparable
    obtain ⟨resolved, hresolved⟩ := hreturns.2 hcomparable
    -- The last operand of a key decides what is found under it.
    have hmissing : none = resolvedValue resolved operand :=
      Except.ok.inj (hlacks.resolve.symm.trans (resolve_of_decides hresolved operand hdecides))
    obtain ⟨before, after, hsplit, -⟩ := hdecides
    have hmem : operand ∈ formula.operands := hsplit ▸ List.mem_append_right _ List.mem_cons_self
    refine (compute_eq_ok_iff hresolved).2 (.inl ⟨?_, rfl⟩)
    exact (rawResult_eq_ok_iff hoperation).2 (.inl ⟨List.mem_map.2 ⟨operand, hmem, hmissing.symm⟩, rfl⟩)

/-- What the operands of a formula with a value have been weighted to. -/
theorem weights_of_compute (hoperation : formula.operation ≠ .custom)
    (hresolved : formula.resolve inputs = .ok resolved)
    (h : formula.compute inputs functions = .ok (some result)) :
    ∃ weights outcome, formula.operation.Computes weights outcome ∧ outcome.isFinite = true ∧
      Weighs formula.operands (formula.operands.map (resolvedValue resolved)) weights := by
  cases yields_of_compute hoperation hresolved h with
  | @computed weights outcome _ hweights houtcome hscaled hfinite =>
      refine ⟨weights, outcome, houtcome, ?_, hweights⟩
      unfold timesScale at hscaled
      split at hscaled
      · exact (Decimal.isFinite_of_mul hscaled hfinite).1
      · rwa [Except.ok.inj hscaled]

/-- What a formula with a value has found for an operand: a number whose weight is finite, unless it is an
infinite denominator, and no denominator is zero. -/
theorem weight_of_compute (hoperation : formula.operation ≠ .custom)
    (h : formula.compute inputs functions = .ok (some result)) {operand : Operand}
    (hdecides : Decides formula.operands operand) :
    ∃ number weight, operand.resolve inputs = .ok (some number) ∧
      operand.weighted number = .ok weight ∧
      (weight.isFinite = true ∨ formula.operation = .divide ∧ operand ∈ formula.operands.tail ∧
        ∃ negative, weight = .infinite negative) ∧
      (formula.operation = .divide → operand ∈ formula.operands.tail →
        weight.isZero? = .ok false) := by
  obtain ⟨resolved, hresolved, -⟩ := bind_eq_ok.1 h
  rw [ofDecimal_eq_ok] at hresolved
  have hresolve := resolve_of_decides hresolved operand hdecides
  obtain ⟨weights, outcome, hcomputes, hfinite, hweights⟩ := weights_of_compute hoperation hresolved h
  have hnonzero := hcomputes.nonzero
  obtain ⟨first, rest, rfl, hfirst, hrest⟩ := hcomputes.origin hfinite
  rw [weighs_iff_forall₂] at hweights
  obtain ⟨head, tail, ⟨number, hnumber, hweight⟩, htail, hsplit⟩ :=
    List.forall₂_cons_right_iff.1 hweights
  rw [hsplit, List.tail_cons]
  -- An operand that stands first and again behind has the same weight in both places.
  by_cases hbehind : operand ∈ tail
  · obtain ⟨weight, hmem, other, hother, hothers⟩ := exists_of_mem_left htail hbehind
    refine ⟨other, weight, hresolve.trans (congrArg _ hother), hothers, ?_, fun hdivide _ =>
      hnonzero hdivide weight hmem⟩
    exact (hrest weight hmem).imp_right fun hinfinite => ⟨hinfinite.1, hbehind, hinfinite.2⟩
  · obtain ⟨before, after, hsplitAt, -⟩ := hdecides
    have hmem : operand ∈ head :: tail := hsplit ▸ hsplitAt ▸ List.mem_append_right _ List.mem_cons_self
    obtain rfl := (List.mem_cons.1 hmem).resolve_right hbehind
    exact ⟨number, first, hresolve.trans (congrArg _ hnumber), hweight, .inl hfirst,
      fun _ hmem => absurd hmem hbehind⟩

/-- A number that is not finite has a part in a value only as an infinite denominator. -/
theorem infinite_of_compute (hoperation : formula.operation ≠ .custom)
    (h : formula.compute inputs functions = .ok (some result)) {operand : Operand} {number : Decimal}
    (hdecides : Decides formula.operands operand) (hnumber : found inputs operand = some number)
    (hinfinite : number.isFinite = false) :
    formula.operation = .divide ∧ operand ∈ formula.operands.tail ∧
      ∃ negative, number = .infinite negative := by
  obtain ⟨other, weight, hresolve, hweighted, horigin, -⟩ := weight_of_compute hoperation h hdecides
  obtain rfl := Option.some.inj ((Operand.resolve_eq_some hresolve).symm.trans hnumber)
  rcases horigin with hfinite | ⟨hdivide, hbehind, negative, rfl⟩
  · simp [Operand.isFinite_of_weighted hweighted hfinite] at hinfinite
  · refine ⟨hdivide, hbehind, (Operand.infinite_of_weighted hweighted).resolve_left ?_⟩
    simp [hinfinite]

/-- A formula with a value has not been divided by any weight of zero. -/
theorem isZero?_of_compute (hoperation : formula.operation ≠ .custom)
    (h : formula.compute inputs functions = .ok (some result)) {operand : Operand}
    {number weight : Decimal} (hdecides : Decides formula.operands operand)
    (hdivide : formula.operation = .divide) (hbehind : operand ∈ formula.operands.tail)
    (hresolve : operand.resolve inputs = .ok (some number))
    (hweighted : operand.weighted number = .ok weight) : weight.isZero? = .ok false := by
  obtain ⟨other, otherWeight, hother, hotherWeighted, -, hnonzero⟩ :=
    weight_of_compute hoperation h hdecides
  obtain rfl : other = number := by simpa using hother.symm.trans hresolve
  obtain rfl := Except.ok.inj (hotherWeighted.symm.trans hweighted)
  exact hnonzero hdivide hbehind

/-- Weights of finite numbers with finite coefficients are finite, unless one of them overflows. -/
theorem overflowOr_weightedOperands
    (hfound : ∀ operand ∈ operands, Operation.FiniteIfAny (resolvedValue resolved operand))
    (hcoefficients : ∀ operand ∈ operands, ∀ coefficient,
      operand.coefficient = some coefficient → coefficient.isFinite = true) :
    OverflowOr (fun found => ∀ weights, found = some weights → ∀ weight ∈ weights,
      weight.isFinite = true) (weightedOperands operands resolved) := by
  unfold weightedOperands
  cases hnumbers : operands.mapM (resolvedValue resolved) with
  | none => exact overflowOr_ok fun _ heq => by cases heq
  | some numbers =>
      -- Only a coefficient multiplies, and a product of finite numbers is finite or overflows.
      refine (overflowOr_mapM fun pair hpair => ?_).bind fun weights hweights =>
        overflowOr_ok fun _ heq => Option.some.inj heq ▸ hweights
      have hmem := List.of_mem_zip hpair
      obtain ⟨operand, hoperand, hnumber⟩ := exists_of_mem_mapM_resolvedValue hnumbers hmem.2
      have hfinite : pair.2.isFinite = true := hfound operand hoperand pair.2 hnumber
      unfold Operand.weighted
      cases hcoefficient : pair.1.coefficient with
      | none => exact overflowOr_ok hfinite
      | some coefficient =>
          exact Decimal.finiteOrOverflow_mul hfinite
            (hcoefficients pair.1 hmem.1 coefficient hcoefficient)

/-- A finite scale keeps a finite result finite or makes it overflow. -/
theorem FiniteConstants.finiteOrOverflow_timesScale (h : formula.FiniteConstants)
    (hresult : result.isFinite = true) : FiniteOrOverflow (formula.timesScale result) := by
  unfold timesScale
  cases hscale : formula.scale with
  | none => exact overflowOr_ok hresult
  | some scale => exact Decimal.finiteOrOverflow_mul hresult (h.scale scale hscale)

theorem FiniteConstants.overflowOr_scaled (h : formula.FiniteConstants)
    (hresult : result.isFinite = true) : OverflowOr (fun _ => True) (formula.scaled result) := by
  rw [scaled_eq_bind]
  exact (h.finiteOrOverflow_timesScale hresult).bind fun _ _ => overflowOr_ok trivial

/-- Finite defaults and inputs can all be compared with zero. -/
theorem FiniteConstants.comparable (h : formula.FiniteConstants)
    (hinputs : inputs.All fun number => number.isFinite = true) : formula.Comparable inputs :=
  fun _ hoperand _ _ hnumber =>
    Decimal.ordered_of_isFinite (h.defaults.either hinputs hoperand hnumber)

/-- A built-in operation on finite numbers fails by overflow only. -/
theorem FiniteConstants.overflowOr_rawResult (h : formula.FiniteConstants)
    (hoperation : formula.operation ≠ .custom) (functions : Dictionary CustomFunction)
    (hfound : ∀ operand ∈ formula.operands,
      Operation.FiniteIfAny (resolvedValue resolved operand)) :
    ∃ answer, formula.rawResult resolved functions = Failure.ofDecimal answer ∧
      OverflowOr Operation.FiniteIfAny answer := by
  unfold rawResult
  rw [if_neg hoperation]
  refine ⟨_, rfl, (overflowOr_weightedOperands hfound h.coefficients).bind fun found hweights => ?_⟩
  cases found with
  | none => exact overflowOr_ok Operation.finiteIfAny_none
  | some weights => exact formula.operation.overflowOr_apply (hweights weights rfl)

/-- A formula with finite constants fails on finite inputs only by an overflow. -/
theorem FiniteConstants.eq_overflow (h : formula.FiniteConstants)
    (hoperation : formula.operation ≠ .custom)
    (hinputs : inputs.All fun number => number.isFinite = true) {failure : Failure}
    (hfailure : formula.compute inputs functions = .error failure) :
    failure = .arithmetic .overflow := by
  obtain ⟨resolved, hresolved⟩ := (formula.resolve_returns_iff inputs).2 (h.comparable hinputs)
  obtain ⟨answer, hraw, hanswer⟩ := h.overflowOr_rawResult hoperation functions
    fun operand _ number hnumber => h.defaults.found hinputs hresolved hnumber
  unfold compute at hfailure
  rw [hresolved, Failure.ofDecimal, ok_bind, hraw] at hfailure
  -- The failure is one of the operation, or one of the scale.
  rcases hanswer with ⟨found, rfl, hfinite⟩ | rfl
  · cases found with
    | none => cases hfailure
    | some result =>
        change Failure.ofDecimal (formula.scaled result) = .error failure at hfailure
        rcases h.overflowOr_scaled (hfinite result rfl) with ⟨value, hvalue, -⟩ | hoverflow
        · rw [hvalue] at hfailure
          cases hfailure
        · rw [hoverflow] at hfailure
          cases hfailure
          rfl
  · cases hfailure
    rfl

theorem compute_of_zero (hdivide : formula.operation = .divide)
    (hresolved : formula.resolve inputs = .ok resolved) {first zero : Decimal}
    {front back : List Decimal}
    (hweights : Weighs formula.operands (formula.operands.map (resolvedValue resolved))
      (first :: (front ++ zero :: back)))
    (hfront : ∀ denominator ∈ front, denominator.isZero? = .ok false)
    (hzero : zero.isZero? = .ok true) :
    formula.compute inputs functions =
      Failure.ofDecimal ((front.foldlM Decimal.div first).map fun _ => none) := by
  have hraw : formula.rawResult resolved functions =
      Failure.ofDecimal ((front.foldlM Decimal.div first).map fun _ => none) := by
    unfold rawResult
    rw [if_neg (by simp [hdivide]), weightedOperands_eq_some_iff.2 hweights, ok_bind, hdivide]
    exact congrArg Failure.ofDecimal (Operation.quotient_of_zero first hfront hzero)
  unfold compute
  rw [hresolved, Failure.ofDecimal, ok_bind, hraw]
  cases front.foldlM Decimal.div first <;> rfl

/-- When a formula has a value, when it has none, and when its computation fails.

A value is finite.  An operand that decides and lacks its number keeps the formula from having a value, unless
another number cannot be compared; one with a number that is not finite does so as well, but for an infinite
denominator; and so does a denominator that is zero.  With finite constants the only failure is an overflow,
and where a denominator is zero it comes from a product with a coefficient or a division before it. -/
theorem null_propagation {formula : Formula} (hoperation : formula.operation ≠ .custom)
    (entries : Dictionary Payload) (functions : Dictionary CustomFunction) :
    let inputs := Evaluation.rawInputs entries
    let value := formula.compute inputs functions
    (∀ number, value = .ok (some number) → number.isFinite = true) ∧
      (∀ operand, Decides formula.operands operand → operand.Lacks inputs →
        (value = .ok none ↔ formula.Comparable inputs)) ∧
      (∀ operand number, Decides formula.operands operand → found inputs operand = some number →
        number.isFinite = false → ∀ result, value = .ok (some result) →
          formula.operation = .divide ∧ operand ∈ formula.operands.tail ∧
            ∃ negative, number = .infinite negative) ∧
      (formula.operation = .divide → ∀ operand ∈ formula.operands.tail,
        Decides formula.operands operand → ∀ number weight,
          operand.resolve inputs = .ok (some number) → operand.weighted number = .ok weight →
            weight.isZero? = .ok true → ∀ result, value ≠ .ok (some result)) ∧
      (formula.operation = .divide → ∀ resolved first zero front back,
        formula.resolve inputs = .ok resolved →
          Weighs formula.operands (formula.operands.map (resolvedValue resolved))
            (first :: (front ++ zero :: back)) →
          (∀ denominator ∈ front, denominator.isZero? = .ok false) → zero.isZero? = .ok true →
            value = Failure.ofDecimal ((front.foldlM Decimal.div first).map fun _ => none)) ∧
      (formula.FiniteConstants → formula.Comparable inputs ∧
        ∀ failure, value = .error failure → failure = .arithmetic .overflow) := by
  intro inputs value
  refine ⟨fun number h => isFinite_of_compute h, fun operand hdecides hlacks =>
    compute_of_lacks hoperation hdecides hlacks, ?_, ?_, ?_, ?_⟩
  · intro operand number hdecides hnumber hinfinite result h
    exact infinite_of_compute hoperation h hdecides hnumber hinfinite
  -- A number would have been divided by this weight, and no division by zero gives one.
  · intro hdivide operand hbehind hdecides number weight hresolve hweighted hzero result h
    have hnonzero := isZero?_of_compute hoperation h hdecides hdivide hbehind hresolve hweighted
    cases hnonzero.symm.trans hzero
  · intro hdivide resolved first zero front back hresolved hweights hfront hzero
    exact compute_of_zero hdivide hresolved hweights hfront hzero
  · intro hconstants
    have hinputs := Evaluation.isFinite_rawInputs entries
    exact ⟨hconstants.comparable hinputs, fun failure hfailure =>
      hconstants.eq_overflow hoperation hinputs hfailure⟩

open DirectCap

theorem finiteConstants_noiPerSqFt : noiPerSqFt.FiniteConstants := by
  constructor <;> simp [AllDefaults, noiPerSqFt, squareFootage, entry, DirectCap.result]

/-- A negative square footage leaves the income per square foot without a value. -/
theorem null_propagation_noiPerSqFt :
    noiPerSqFt.operation ≠ .custom ∧ Decides noiPerSqFt.operands squareFootage ∧
      squareFootage.Lacks (Evaluation.rawInputs
        [("netOperatingIncome", .int 1000), ("squareFootage", .int (-5))]) ∧
      noiPerSqFt.compute (Evaluation.rawInputs
        [("netOperatingIncome", .int 1000), ("squareFootage", .int (-5))]) [] = .ok none := by
  have hoperation : noiPerSqFt.operation ≠ .custom := by decide
  have hdecides : Decides noiPerSqFt.operands squareFootage :=
    decides_of_nodup (by decide) (by decide)
  have hlacks : squareFootage.Lacks (Evaluation.rawInputs
      [("netOperatingIncome", .int 1000), ("squareFootage", .int (-5))]) :=
    .notPositive (show found _ _ = some (.finite true 5 0) by decide +kernel) rfl
      (toOption_eq_some.1 (by decide +kernel))
  obtain ⟨-, hlacking, -, -, -, hconstants⟩ := null_propagation hoperation
    [("netOperatingIncome", .int 1000), ("squareFootage", .int (-5))] []
  exact ⟨hoperation, hdecides, hlacks,
    (hlacking squareFootage hdecides hlacks).2 (hconstants finiteConstants_noiPerSqFt).1⟩

/-- A sum of two operands with one key, of which only the first asks for a positive number. -/
def sharedRevenue : Formula :=
  { grossPotentialIncome with
    operands :=
      [entry "totalRevenue" "Net" "" none none true, entry "totalRevenue" "Gross" "" none none false] }

/-- Income per square foot where an infinite area stands in for a missing one. -/
def boundlessArea : Formula :=
  { noiPerSqFt with
    operands :=
      [entry "netOperatingIncome" "Income" "" none none false,
        entry "squareFootage" "Area" "" none (some (.infinite false)) false] }

/-- Income per square foot and unit. -/
def perAreaAndUnit : Formula :=
  { noiPerSqFt with
    operands :=
      [entry "netOperatingIncome" "Income" "" none none false,
        entry "squareFootage" "Area" "" none none false, entry "units" "Units" "" none none false] }

/-- A number that is not positive counts when a later operand shares the key; an infinite default is divided
by; and a denominator of zero does not help when a division before it overflows. -/
theorem compute_despite_unusable :
    (entry "totalRevenue" "Net" "" none none true ∈ sharedRevenue.operands ∧
        (entry "totalRevenue" "Net" "" none none true).Lacks
          (Evaluation.rawInputs [("totalRevenue", .int (-5))]) ∧
        sharedRevenue.compute (Evaluation.rawInputs [("totalRevenue", .int (-5))]) [] =
          .ok (some (.finite true 10 0))) ∧
      boundlessArea.compute (Evaluation.rawInputs [("netOperatingIncome", .int 10)]) [] =
        .ok (some (.finite false 0 (-1000026))) ∧
      perAreaAndUnit.compute (Evaluation.rawInputs
          [("netOperatingIncome", .text "1e999999"), ("squareFootage", .text "1e-999"),
            ("units", .int 0)]) [] =
        .error (.arithmetic .overflow) := by
  have hlacks : (entry "totalRevenue" "Net" "" none none true).Lacks
      (Evaluation.rawInputs [("totalRevenue", .int (-5))]) :=
    .notPositive (show found _ _ = some (.finite true 5 0) by decide +kernel) rfl
      (toOption_eq_some.1 (by decide +kernel))
  exact ⟨⟨List.mem_cons_self, hlacks, toOption_eq_some.1 (by decide +kernel)⟩,
    toOption_eq_some.1 (by decide +kernel),
    Evaluation.eq_overflow_of_overflows (by decide +kernel)⟩

end Formula
end Appraisal
