import Appraisal.Proofs.Evaluation.Coherence

/-!
# How a record explains its value

The steps of a record show the numbers of the operands.  The operation, the coefficients and the scale of
the formula lead from these numbers to the value and to no other one, and the numbers of dependencies are
those of earlier records of the same trail.  So a reader can check a record by hand.
-/

namespace Appraisal

/-! ## The number of an operand -/

/-- What an operand shows when a number is given for it, or none: a default stands in for a missing number,
and a number that should be positive and is not is dropped. -/
inductive Operand.Shows (operand : Operand) (given : Option Decimal) : Option Decimal → Prop
  | missing (hmissing : given.or operand.fallback = none) : Shows operand given none
  | dropped {number : Decimal} (hnumber : given.or operand.fallback = some number)
      (hrequired : operand.positive = true) (hsmall : number.le? .zero = .ok true) :
      Shows operand given none
  | taken {number : Decimal} (hnumber : given.or operand.fallback = some number)
      (hpositive : operand.positive = true → number.le? .zero = .ok false) :
      Shows operand given (some number)

/-- What is found for an operand is explained by the number supplied and the default. -/
theorem Operand.shows_of_resolve {operand : Operand} {inputs : Inputs} {shown : Option Decimal}
    (h : operand.resolve inputs = .ok shown) : operand.Shows (inputs operand.key) shown := by
  unfold resolve at h
  split at h
  · next number hnumber =>
      rcases ifPositive_eq_ok h with ⟨rfl, hrequired, hsmall⟩ | ⟨rfl, hpositive⟩
      · exact .dropped hnumber hrequired hsmall
      · exact .taken hnumber hpositive
  · next hmissing =>
      obtain rfl := Except.ok.inj h
      exact .missing hmissing

/-! ## The result of an operation -/

namespace Operation

/-- What an operation makes of numbers.  It needs at least one, and a quotient needs denominators that are
not zero. -/
inductive Computes : Operation → List Decimal → Decimal → Prop
  | add {first total : Decimal} {rest : List Decimal}
      (htotal : Decimal.sum (first :: rest) = .ok total) : Computes .add (first :: rest) total
  | sum {first total : Decimal} {rest : List Decimal}
      (htotal : Decimal.sum (first :: rest) = .ok total) : Computes .sum (first :: rest) total
  | subtract {first loss difference : Decimal} {rest : List Decimal}
      (hloss : Decimal.sum rest = .ok loss) (hdifference : first.sub loss = .ok difference) :
      Computes .subtract (first :: rest) difference
  | multiply {first product : Decimal} {rest : List Decimal}
      (hproduct : Decimal.product (first :: rest) = .ok product) :
      Computes .multiply (first :: rest) product
  | divide {first quotient : Decimal} {rest : List Decimal}
      (hnonzero : ∀ denominator ∈ rest, denominator.isZero? = .ok false)
      (hquotient : rest.foldlM Decimal.div first = .ok quotient) :
      Computes .divide (first :: rest) quotient

/-- A quotient has a number exactly when no denominator is zero, and then it is divided by one after the
other. -/
theorem quotient_eq_some_iff {value result : Decimal} {denominators : List Decimal} :
    quotient value denominators = .ok (some result) ↔
      (∀ denominator ∈ denominators, denominator.isZero? = .ok false) ∧
        denominators.foldlM Decimal.div value = .ok result := by
  -- Each denominator is tested before it divides what the earlier ones have left.
  induction denominators generalizing value with
  | nil => simp [quotient, pure_eq_ok]
  | cons denominator rest ih =>
      rw [quotient, bind_eq_ok, List.forall_mem_cons, List.foldlM_cons]
      constructor
      · rintro ⟨isZero, hzero, h⟩
        cases isZero with
        | true => cases h
        | false =>
            obtain ⟨next, hnext, h⟩ := bind_eq_ok.1 h
            obtain ⟨hnonzero, hresult⟩ := ih.1 h
            exact ⟨⟨hzero, hnonzero⟩, bind_eq_ok.2 ⟨next, hnext, hresult⟩⟩
      · rintro ⟨⟨hzero, hnonzero⟩, h⟩
        obtain ⟨next, hnext, hresult⟩ := bind_eq_ok.1 h
        exact ⟨false, hzero, bind_eq_ok.2 ⟨next, hnext, ih.2 ⟨hnonzero, hresult⟩⟩⟩

/-- Only a zero among the denominators leaves a quotient without a number. -/
theorem exists_zero_of_quotient {value : Decimal} {denominators : List Decimal}
    (h : quotient value denominators = .ok none) :
    ∃ denominator ∈ denominators, denominator.isZero? = .ok true := by
  induction denominators generalizing value with
  | nil => cases h
  | cons denominator rest ih =>
      obtain ⟨isZero, hzero, h⟩ := bind_eq_ok.1 h
      cases isZero with
      | true => exact ⟨denominator, List.mem_cons_self .., hzero⟩
      | false =>
          obtain ⟨next, -, h⟩ := bind_eq_ok.1 h
          obtain ⟨other, hother, hzero⟩ := ih h
          exact ⟨other, List.mem_cons_of_mem _ hother, hzero⟩

/-- What an operation makes of weights is the relation that the explanation is stated with. -/
theorem apply_eq_some_iff {operation : Operation} {values : List Decimal} {result : Decimal} :
    operation.apply values = .ok (some result) ↔ operation.Computes values result := by
  constructor
  · intro h
    cases values with
    | nil => cases operation <;> cases h
    | cons first rest =>
        cases operation with
        | custom => cases h
        | divide =>
            obtain ⟨hnonzero, hquotient⟩ := quotient_eq_some_iff.1 h
            exact .divide hnonzero hquotient
        | subtract =>
            obtain ⟨loss, hloss, h⟩ := bind_eq_ok.1 h
            obtain ⟨difference, hdifference, h⟩ := bind_eq_ok.1 h
            obtain rfl := Option.some.inj (pure_eq_ok.1 h)
            exact .subtract hloss hdifference
        | _ =>
            obtain ⟨total, htotal, h⟩ := bind_eq_ok.1 h
            obtain rfl := Option.some.inj (pure_eq_ok.1 h)
            constructor
            exact htotal
  · intro h
    cases h with
    -- Backwards every operation is its own sequence of steps.
    | divide hnonzero hquotient => exact quotient_eq_some_iff.2 ⟨hnonzero, hquotient⟩
    | subtract hloss hdifference =>
        exact bind_eq_ok.2 ⟨_, hloss, bind_eq_ok.2 ⟨_, hdifference, rfl⟩⟩
    | _ htotal => exact bind_eq_ok.2 ⟨_, htotal, rfl⟩

/-- An operation on numbers has no result only if one divides by zero. -/
theorem divides_by_zero_of_apply {operation : Operation} {first : Decimal} {rest : List Decimal}
    (hoperation : operation ≠ .custom) (h : operation.apply (first :: rest) = .ok none) :
    operation = .divide ∧ ∃ denominator ∈ rest, denominator.isZero? = .ok true := by
  cases operation with
  | custom => exact absurd rfl hoperation
  | divide => exact ⟨rfl, exists_zero_of_quotient h⟩
  | subtract =>
      obtain ⟨loss, -, h⟩ := bind_eq_ok.1 h
      obtain ⟨difference, -, h⟩ := bind_eq_ok.1 h
      cases h
  | _ =>
      obtain ⟨total, -, h⟩ := bind_eq_ok.1 h
      cases h

end Operation

/-! ## The value of a formula -/

namespace Formula

variable {formula : Formula} {inputs : Inputs} {functions : Dictionary CustomFunction}
  {resolved : Resolved} {operands : List Operand} {found : List (Option Decimal)}
  {weights : List Decimal} {value : Option Decimal}

/-- The numbers found for the operands are all there, and these are they with their coefficients. -/
def Weighs (operands : List Operand) (found : List (Option Decimal)) (weights : List Decimal) : Prop :=
  ∃ values : List Decimal, found = values.map some ∧
    List.Forall₂ (fun entry weight => entry.1.weighted entry.2 = .ok weight) (operands.zip values)
      weights

/-- Weights belong to the operands one by one. -/
theorem weighs_iff_forall₂ {numbers : Operand → Option Decimal} :
    Weighs operands (operands.map numbers) weights ↔
      List.Forall₂ (fun operand weight =>
        ∃ number, numbers operand = some number ∧ operand.weighted number = .ok weight)
        operands weights := by
  -- A missing number would end the weighing, so there is one for each operand.
  induction operands generalizing weights with
  | nil =>
      constructor
      · rintro ⟨values, -, hweights⟩
        cases hweights
        exact .nil
      · rintro ⟨⟩
        exact ⟨[], rfl, .nil⟩
  | cons operand rest ih =>
      constructor
      · rintro ⟨values, hvalues, hweights⟩
        cases values with
        | nil => cases hvalues
        | cons number others =>
            obtain ⟨hnumber, hothers⟩ := List.cons.inj hvalues
            cases hweights with
            | cons hweight hrest =>
                exact .cons ⟨number, hnumber, hweight⟩ (ih.1 ⟨others, hothers, hrest⟩)
      · rintro (_ | ⟨⟨number, hnumber, hweight⟩, hrest⟩)
        obtain ⟨others, hothers, hweights⟩ := ih.2 hrest
        exact ⟨number :: others, congrArg₂ _ hnumber hothers, .cons hweight hweights⟩

/-- A result times the scale, whether it is finite or not. -/
def timesScale (formula : Formula) (result : Decimal) : Except Decimal.Signal Decimal :=
  match formula.scale with
  | some scale => result.mul scale
  | none => .ok result

/-- What the definition of a formula makes of the numbers found for its operands. -/
inductive Yields (formula : Formula) (found : List (Option Decimal)) : Option Decimal → Prop
  | unsupplied (hoperands : formula.operands = []) : Yields formula found none
  | missing (hmissing : none ∈ found) : Yields formula found none
  | undivided {weights : List Decimal} (hweights : Weighs formula.operands found weights)
      (hoperation : formula.operation = .divide)
      (hzero : ∃ denominator ∈ weights.tail, denominator.isZero? = .ok true) :
      Yields formula found none
  | infinite {weights : List Decimal} {result outcome : Decimal}
      (hweights : Weighs formula.operands found weights)
      (hresult : formula.operation.Computes weights result)
      (houtcome : formula.timesScale result = .ok outcome) (hinfinite : outcome.isFinite = false) :
      Yields formula found none
  | computed {weights : List Decimal} {result outcome : Decimal}
      (hweights : Weighs formula.operands found weights)
      (hresult : formula.operation.Computes weights result)
      (houtcome : formula.timesScale result = .ok outcome) (hfinite : outcome.isFinite = true) :
      Yields formula found (some outcome)

theorem weightedOperands_eq_some_iff : weightedOperands operands resolved = .ok (some weights) ↔
    Weighs operands (operands.map (resolvedValue resolved)) weights := by
  unfold weightedOperands Weighs
  simp only [← mapM_eq_some_iff, ← mapM_eq_ok_iff]
  cases operands.mapM (resolvedValue resolved) with
  | none => simp
  | some values =>
      simp only [bind_eq_ok, pure_eq_ok, Option.some.injEq, exists_eq_right, exists_eq_left']

/-- The operands have no weights as soon as one number is missing. -/
theorem weightedOperands_eq_none_iff : weightedOperands operands resolved = .ok none ↔
    none ∈ operands.map (resolvedValue resolved) := by
  unfold weightedOperands
  rw [← mapM_eq_none_iff]
  cases operands.mapM (resolvedValue resolved) with
  | none => simp
  | some values =>
      simp only [bind_eq_ok, pure_eq_ok, reduceCtorEq, and_false, exists_false]

theorem scaled_eq_bind (formula : Formula) (result : Decimal) :
    formula.scaled result =
      (formula.timesScale result >>= fun outcome => pure (Payload.finiteOnly outcome)) := by
  unfold scaled timesScale
  cases formula.scale <;> rfl

/-- An outcome that is not finite is thrown away, without a failure. -/
theorem scaled_eq_ok_iff {result : Decimal} : formula.scaled result = .ok value ↔
    ∃ outcome, formula.timesScale result = .ok outcome ∧ Payload.finiteOnly outcome = value := by
  simp only [scaled_eq_bind, bind_eq_ok, pure_eq_ok]

/-- An operation is applied to all weights or not at all. -/
theorem rawResult_eq_ok_iff (hoperation : formula.operation ≠ .custom) :
    formula.rawResult resolved functions = .ok value ↔
      (none ∈ formula.operands.map (resolvedValue resolved) ∧ value = none) ∨
        ∃ weights, Weighs formula.operands (formula.operands.map (resolvedValue resolved)) weights ∧
          formula.operation.apply weights = .ok value := by
  unfold rawResult
  rw [if_neg hoperation, ofDecimal_eq_ok, bind_eq_ok]
  constructor
  · rintro ⟨weights, hweights, h⟩
    cases weights with
    | none => exact .inl ⟨weightedOperands_eq_none_iff.1 hweights, (pure_eq_ok.1 h).symm⟩
    | some weights => exact .inr ⟨weights, weightedOperands_eq_some_iff.1 hweights, h⟩
  · rintro (⟨hmissing, rfl⟩ | ⟨weights, hweights, h⟩)
    · exact ⟨none, weightedOperands_eq_none_iff.2 hmissing, rfl⟩
    · exact ⟨some weights, weightedOperands_eq_some_iff.2 hweights, h⟩

/-- A computation ends without a value, or with an outcome that is scaled and checked for finiteness. -/
theorem compute_eq_ok_iff (hresolved : formula.resolve inputs = .ok resolved) :
    formula.compute inputs functions = .ok value ↔
      (formula.rawResult resolved functions = .ok none ∧ value = none) ∨
        ∃ result outcome, formula.rawResult resolved functions = .ok (some result) ∧
          formula.timesScale result = .ok outcome ∧ Payload.finiteOnly outcome = value := by
  unfold compute
  rw [hresolved, Failure.ofDecimal, ok_bind]
  constructor
  · intro h
    obtain ⟨answer, hanswer, h⟩ := bind_eq_ok.1 h
    cases answer with
    | none => exact .inl ⟨hanswer, (pure_eq_ok.1 h).symm⟩
    | some result =>
        obtain ⟨outcome, houtcome, hvalue⟩ := scaled_eq_ok_iff.1 (ofDecimal_eq_ok.1 h)
        exact .inr ⟨result, outcome, hanswer, houtcome, hvalue⟩
  · rintro (⟨hanswer, rfl⟩ | ⟨result, outcome, hanswer, houtcome, hvalue⟩)
    · exact bind_eq_ok.2 ⟨none, hanswer, rfl⟩
    · exact bind_eq_ok.2 ⟨some result, hanswer,
        ofDecimal_eq_ok.2 (scaled_eq_ok_iff.2 ⟨outcome, houtcome, hvalue⟩)⟩

theorem operands_eq_nil_of_weighs (h : Weighs operands (operands.map (resolvedValue resolved)) []) :
    operands = [] :=
  List.forall₂_nil_right_iff.1 (weighs_iff_forall₂.1 h)

/-- The value that a formula computes is what its definition makes of the numbers found. -/
theorem yields_of_compute (hoperation : formula.operation ≠ .custom)
    (hresolved : formula.resolve inputs = .ok resolved)
    (h : formula.compute inputs functions = .ok value) :
    formula.Yields (formula.operands.map (resolvedValue resolved)) value := by
  rcases (compute_eq_ok_iff hresolved).1 h with
    ⟨hraw, rfl⟩ | ⟨result, outcome, hraw, houtcome, hvalue⟩
  · rcases (rawResult_eq_ok_iff hoperation).1 hraw with
      ⟨hmissing, -⟩ | ⟨weights, hweights, happly⟩
    · exact .missing hmissing
    -- No number although all weights are there: there are none of them, or a denominator is zero.
    · cases weights with
      | nil => exact .unsupplied (operands_eq_nil_of_weighs hweights)
      | cons first rest =>
          obtain ⟨hdivide, hzero⟩ := Operation.divides_by_zero_of_apply hoperation happly
          exact .undivided hweights hdivide hzero
  · rcases (rawResult_eq_ok_iff hoperation).1 hraw with ⟨-, hnone⟩ | ⟨weights, hweights, happly⟩
    · cases hnone
    · have hresult := Operation.apply_eq_some_iff.1 happly
      unfold Payload.finiteOnly at hvalue
      split at hvalue
      · next hfinite => exact hvalue ▸ .computed hweights hresult houtcome hfinite
      · next hinfinite =>
          exact hvalue ▸ .infinite hweights hresult houtcome (Bool.eq_false_iff.2 hinfinite)

/-- Weighting is a function of the numbers found. -/
theorem Weighs.unique {others : List Decimal}
    (h : Weighs operands (operands.map (resolvedValue resolved)) weights)
    (hothers : Weighs operands (operands.map (resolvedValue resolved)) others) : weights = others :=
  Option.some.inj (Except.ok.inj ((weightedOperands_eq_some_iff.2 h).symm.trans
    (weightedOperands_eq_some_iff.2 hothers)))

/-- The definition of a formula makes nothing else of the numbers found. -/
theorem Yields.eq_of_compute {other : Option Decimal} (hoperation : formula.operation ≠ .custom)
    (hresolved : formula.resolve inputs = .ok resolved)
    (h : formula.compute inputs functions = .ok value)
    (hother : formula.Yields (formula.operands.map (resolvedValue resolved)) other) :
    other = value := by
  have hagain : formula.compute inputs functions = .ok other → other = value := fun hcompute =>
    Except.ok.inj (hcompute.symm.trans h)
  cases hother with
  | unsupplied hoperands =>
      have hraw : formula.rawResult resolved functions = .ok none := by
        refine (rawResult_eq_ok_iff hoperation).2 (.inr ⟨[], ?_, ?_⟩)
        · rw [hoperands]
          exact ⟨[], rfl, .nil⟩
        · cases formula.operation <;> rfl
      exact hagain ((compute_eq_ok_iff hresolved).2 (.inl ⟨hraw, rfl⟩))
  | missing hmissing =>
      have hraw : formula.rawResult resolved functions = .ok none :=
        (rawResult_eq_ok_iff hoperation).2 (.inl ⟨hmissing, rfl⟩)
      exact hagain ((compute_eq_ok_iff hresolved).2 (.inl ⟨hraw, rfl⟩))
  | undivided hweights hdivide hzero =>
      -- A division before the zero might have failed; it has not, because there is a value.
      rcases (compute_eq_ok_iff hresolved).1 h with ⟨-, rfl⟩ | ⟨result, outcome, hraw, -, -⟩
      · rfl
      · rcases (rawResult_eq_ok_iff hoperation).1 hraw with
          ⟨-, hnone⟩ | ⟨others, hothers, happly⟩
        · cases hnone
        · obtain rfl := hweights.unique hothers
          rw [hdivide] at happly
          cases Operation.apply_eq_some_iff.1 happly with
          | divide hnonzero hquotient =>
              obtain ⟨denominator, hmem, hzero⟩ := hzero
              cases (hnonzero denominator hmem).symm.trans hzero
  | @infinite weights result outcome hweights hresult houtcome hinfinite =>
      have hraw : formula.rawResult resolved functions = .ok (some result) :=
        (rawResult_eq_ok_iff hoperation).2
          (.inr ⟨weights, hweights, Operation.apply_eq_some_iff.2 hresult⟩)
      have hnone : Payload.finiteOnly outcome = none := if_neg (ne_true_of_eq_false hinfinite)
      exact hagain ((compute_eq_ok_iff hresolved).2
        (.inr ⟨result, outcome, hraw, houtcome, hnone⟩))
  | @computed weights result outcome hweights hresult houtcome hfinite =>
      have hraw : formula.rawResult resolved functions = .ok (some result) :=
        (rawResult_eq_ok_iff hoperation).2
          (.inr ⟨weights, hweights, Operation.apply_eq_some_iff.2 hresult⟩)
      exact hagain ((compute_eq_ok_iff hresolved).2
        (.inr ⟨result, outcome, hraw, houtcome, if_pos hfinite⟩))

/-- Of the numbers found, the definition of a formula makes the value that is computed. -/
theorem yields_iff_of_compute (hoperation : formula.operation ≠ .custom)
    (hresolved : formula.resolve inputs = .ok resolved)
    (h : formula.compute inputs functions = .ok value) (other : Option Decimal) :
    formula.Yields (formula.operands.map (resolvedValue resolved)) other ↔ other = value := by
  constructor
  · exact Yields.eq_of_compute hoperation hresolved h
  · rintro rfl
    exact yields_of_compute hoperation hresolved h

/-- The operand stands among others, and none behind it has its key. -/
def Decides (operands : List Operand) (operand : Operand) : Prop :=
  ∃ before after, operands = before ++ operand :: after ∧ ∀ later ∈ after, later.key ≠ operand.key

/-- Of operands with one key, the last one decides. -/
theorem decides_concat_iff {operand last : Operand} :
    Decides (operands ++ [last]) operand ↔
      operand = last ∨ Decides operands operand ∧ last.key ≠ operand.key := by
  constructor
  · rintro ⟨before, after, hsplit, hafter⟩
    -- The deciding operand is the last of all, or something else comes behind it.
    rcases List.eq_nil_or_concat after with rfl | ⟨others, other, rfl⟩
    · exact .inl (by simpa using (List.append_inj_right' hsplit rfl).symm)
    · rw [List.concat_eq_append, List.forall_mem_append] at hafter
      rw [List.concat_eq_append, ← List.cons_append, ← List.append_assoc] at hsplit
      obtain ⟨hothers, hlast⟩ := List.append_inj' hsplit rfl
      obtain rfl := List.head_eq_of_cons_eq hlast
      exact .inr ⟨⟨before, others, hothers, hafter.1⟩, hafter.2 last (List.mem_singleton_self _)⟩
  · rintro (rfl | ⟨⟨before, after, rfl, hafter⟩, hkey⟩)
    · exact ⟨operands, [], rfl, by simp⟩
    · refine ⟨before, after ++ [last], by simp, List.forall_mem_append.2 ⟨hafter, by simpa⟩⟩

/-- Where the keys differ, every operand decides about its own. -/
theorem decides_of_nodup {operand : Operand} (hkeys : (operands.map Operand.key).Nodup)
    (hmem : operand ∈ operands) : Decides operands operand := by
  obtain ⟨before, after, rfl⟩ := List.append_of_mem hmem
  rw [List.map_append, List.map_cons, List.nodup_append, List.nodup_cons] at hkeys
  exact ⟨before, after, rfl, fun later hlater heq =>
    hkeys.2.1.1 (heq ▸ List.mem_map_of_mem hlater)⟩

/-- What is found for an operand is what the last operand of its key stands for. -/
theorem resolve_of_decides (h : formula.resolve inputs = .ok resolved) :
    ∀ operand, Decides formula.operands operand →
      operand.resolve inputs = .ok (resolvedValue resolved operand) := by
  refine foldlM_invariant (fun done resolved => ∀ operand, Decides done operand →
    operand.resolve inputs = .ok (resolvedValue resolved operand)) ?_ ?_ h
  · rintro operand ⟨before, after, hsplit, -⟩
    simp at hsplit
  · intro before item after state next _ hbefore hnext operand hdecides
    obtain ⟨shown, hshown, hnext⟩ := bind_eq_ok.1 hnext
    obtain rfl := pure_eq_ok.1 hnext
    rcases decides_concat_iff.1 hdecides with rfl | ⟨hearlier, hkey⟩
    · rw [hshown, resolvedValue, Dictionary.get?_put_self, Option.join_some]
    · rw [hbefore operand hearlier, resolvedValue, resolvedValue,
        Dictionary.get?_put_of_ne _ _ (Ne.symm hkey)]

/-- Where the keys differ, what is found for an operand is what the operand stands for. -/
theorem resolve_operand (hkeys : (formula.operands.map Operand.key).Nodup)
    (h : formula.resolve inputs = .ok resolved) :
    ∀ operand ∈ formula.operands, operand.resolve inputs = .ok (resolvedValue resolved operand) :=
  fun operand hmem => resolve_of_decides h operand (decides_of_nodup hkeys hmem)

end Formula

namespace Evaluation

variable {settings : Settings} {clock : Clock} {now modelId : String} {formula : Formula} {inputs raw : Inputs}
  {functions : Dictionary CustomFunction} {result : CalculationResult} {registry : Registry}
  {before after : List CalculationResult} {values : String → Option Decimal} {trail : AuditTrail}

/-! ## The steps of a record -/

/-- Where a number comes from that stands under a name: from an earlier record, if that is the name of a
dependency, and else from the raw inputs. -/
inductive Supplied (raw : Inputs) (before : List CalculationResult) (dependencies : List String)
    (name : String) : Option Decimal → Prop
  | recorded {earlier : CalculationResult} (hname : name ∈ dependencies) (hearlier : earlier ∈ before)
      (hid : earlier.formulaId = name) : Supplied raw before dependencies name earlier.value
  | entered (hname : name ∉ dependencies) : Supplied raw before dependencies name (raw name)

/-- The steps of a record explain its value.  Some show the numbers of the operands, for which numbers have
been supplied under their keys; the last one shows the value, which is what the definition of the formula
makes of the numbers shown. -/
structure Explains (formula : Formula) (supplied : String → Option Decimal → Prop)
    (result : CalculationResult) (gets : List CalculationStep) (last : CalculationStep) : Prop where
  steps : result.steps = gets ++ [last]
  descriptions : gets.map CalculationStep.description =
    formula.operands.map fun operand => "Get " ++ operand.label
  last : last.result = result.value
  /-- The definition makes the value of the numbers shown, and nothing else. -/
  value : formula.operation ≠ .custom →
    (∀ cause, result.error ≠ some ("Computation failed" ++ cause)) →
      ∀ value, formula.Yields (gets.map CalculationStep.result) value ↔ value = result.value
  /-- Where the keys differ, each step shows what its operand makes of the number supplied. -/
  numbers : (formula.operands.map Operand.key).Nodup →
    List.Forall₂ (fun operand step =>
      ∃ given, supplied operand.key given ∧ operand.Shows given step.result) formula.operands gets

/-- A record without an error of that kind is one of a computation that has not failed. -/
theorem compute_of_evaluateFormula
    (h : evaluateFormula settings now formula inputs functions = .ok result)
    (hcomputed : ∀ cause, result.error ≠ some ("Computation failed" ++ cause)) :
    formula.compute inputs functions = .ok result.value := by
  have hsettles := settles_of_evaluateFormula h
  cases hcompute : formula.compute inputs functions with
  | error failure =>
      refine absurd ?_ (hcomputed (": " ++ failure.message))
      rw [(hsettles.failed failure hcompute).2, ← String.append_assoc]
      rfl
  | ok value => rw [hsettles.value, Formula.outcome, hcompute]

/-- The steps of a record, read against the definition, give back its value and no other. -/
theorem explains_of_evaluateFormula {supplied : String → Option Decimal → Prop}
    (hsupplied : ∀ name, supplied name (inputs name))
    (h : evaluateFormula settings now formula inputs functions = .ok result) :
    ∃ gets last, Explains formula supplied result gets last := by
  have hcompute := compute_of_evaluateFormula h
  obtain ⟨resolved, gets, footnotes, expression, found, source, hresolved, hgets, -, -, -, -,
    hresult⟩ := evaluateFormula_eq_ok_iff.1 h
  obtain ⟨hdescriptions, hresults, -⟩ := operandSteps_eq_ok hgets
  have hsteps := congrArg CalculationResult.steps hresult
  have hvalue := congrArg CalculationResult.value hresult
  refine ⟨gets, _, hsteps, hdescriptions, hvalue.symm, fun hoperation hcomputed value => ?_,
    fun hkeys => ?_⟩
  · rw [hresults]
    exact Formula.yields_iff_of_compute hoperation hresolved (hcompute hcomputed) value
  -- With distinct keys, what is resolved under a key belongs to its operand.
  · have hshows : List.Forall₂ (fun operand shown =>
        ∃ given, supplied operand.key given ∧ operand.Shows given shown) formula.operands
          (formula.operands.map (Formula.resolvedValue resolved)) := by
      rw [List.forall₂_map_right_iff, List.forall₂_same]
      exact fun operand hmem => ⟨inputs operand.key, hsupplied operand.key,
        Operand.shows_of_resolve (Formula.resolve_operand hkeys hresolved operand hmem)⟩
    rwa [← hresults, List.forall₂_map_right_iff] at hshows

/-! ## The records of a trail -/

/-- A record in the middle of a trail was made with the records before it. -/
theorem Records.split {formulas : List Formula}
    (h : Records settings clock registry raw values formulas (before ++ result :: after)) :
    ∃ earlier formula later, formulas = earlier ++ formula :: later ∧
      Records settings clock registry raw values earlier before ∧
      evaluateFormula settings (clock.recorded formula.id) formula
        (overlaid raw values formula.dependencies) registry.functions = .ok result := by
  induction before generalizing formulas with
  | nil =>
      cases h with
      | cons hresult _ => exact ⟨[], _, _, rfl, .nil, hresult⟩
  | cons first rest ih =>
      cases h with
      | cons hfirst hrest =>
          obtain ⟨earlier, formula, later, rfl, hearlier, hresult⟩ := ih hrest
          exact ⟨_ :: earlier, formula, later, rfl, .cons hfirst hearlier, hresult⟩

/-- The value by formula is that of the record. -/
theorem valuesOf_formulaId (hregistry : registry.Consistent)
    (h : evaluate settings clock modelId registry raw = .ok trail)
    (hmem : result ∈ trail.calculations) :
    valuesOf trail.results result.formulaId = result.value := by
  have hdistinct : trail.results.keys.Nodup :=
    (keys_perm_of_evaluate hregistry h).nodup_iff.2 hregistry.distinct
  have hentry : (result.formulaId, result.value) ∈ trail.results := by
    rw [results_of_evaluate hregistry h]
    exact List.mem_map_of_mem hmem
  rw [valuesOf, Dictionary.get?_of_mem hdistinct hentry, Option.join_some]

/-- A dependency is supplied by its earlier record, everything else by the raw inputs. -/
theorem supplied_overlaid {dependencies : List String}
    (hdependencies : ∀ dependency ∈ dependencies, ∃ earlier ∈ before,
      earlier.formulaId = dependency ∧ earlier.value = values dependency) (name : String) :
    Supplied raw before dependencies name (overlaid raw values dependencies name) := by
  unfold overlaid
  split
  · next hname =>
      obtain ⟨earlier, hearlier, hid, hvalue⟩ := hdependencies name hname
      exact hvalue ▸ .recorded hname hearlier hid
  · next hname => exact .entered hname

/-- Every record of a trail that a run returns explains its value: the numbers of dependencies are those of
earlier records, and unless the computation has failed the definition of the formula makes the value of the
numbers shown. -/
theorem record_explained {registry : Registry} (hregistry : registry.Reached) {settings : Settings}
    {clock : Clock} {modelId : String} {entries : Dictionary Payload} {trail : AuditTrail}
    (h : evaluate settings clock modelId registry (rawInputs entries) = .ok trail)
    {before after : List CalculationResult} {result : CalculationResult}
    (hsplit : trail.calculations = before ++ result :: after) :
    ∃ formula gets last, registry.get result.formulaId = .ok formula ∧
      Explains formula (Supplied (rawInputs entries) before formula.dependencies) result gets last := by
  have hconsistent := hregistry.consistent
  have hrecords := records_of_evaluate hconsistent h
  rw [hsplit] at hrecords
  obtain ⟨earlier, formula, later, horder, hearlier, hresult⟩ := hrecords.split
  obtain ⟨hmem, hdependencies, -⟩ :=
    Registry.dependencies_subset_of_executionOrder hconsistent horder
  have hget : registry.get result.formulaId = .ok formula := by
    rw [formulaId_of_evaluateFormula hresult, Registry.get,
      Formula.find?_eq_some_of_mem hconsistent.distinct hmem]
  -- Dependencies come earlier in the order of execution, so their records stand before this one.
  have hrecorded : ∀ dependency ∈ formula.dependencies, ∃ other ∈ before,
      other.formulaId = dependency ∧ other.value = valuesOf trail.results dependency := by
    intro dependency hdependency
    have hbefore := hdependencies hdependency
    rw [← hearlier.map_formulaId] at hbefore
    obtain ⟨other, hother, rfl⟩ := List.mem_map.1 hbefore
    have htrail : other ∈ trail.calculations := hsplit ▸ List.mem_append_left _ hother
    exact ⟨other, hother, rfl, (valuesOf_formulaId hconsistent h htrail).symm⟩
  obtain ⟨gets, last, hexplains⟩ :=
    explains_of_evaluateFormula (supplied_overlaid hrecorded) hresult
  exact ⟨formula, gets, last, hget, hexplains⟩

open DirectCap

/-- The survey has failed, so the effective gross income shows the default of the vacancy allowance, and the
definition makes the whole gross income of the numbers shown. -/
theorem record_explained_overspent :
    ∃ trail before result after gets last,
      evaluate .usual "monday" "a" (surveyed overspent)
        (rawInputs [("totalRevenue", .int 1000), ("totalExpenses", .int 1200)]) = .ok trail ∧
      trail.calculations = before ++ result :: after ∧ result.steps = gets ++ [last] ∧
      result.value = some (.finite false 1000 0) ∧
      gets.map CalculationStep.result = [some (.finite false 1000 0), some .zero] ∧
      (∀ value, effectiveGrossIncome.Yields (gets.map CalculationStep.result) value ↔
        value = result.value) ∧
      List.Forall₂ (fun operand step => ∃ given,
          Supplied (rawInputs [("totalRevenue", .int 1000), ("totalExpenses", .int 1200)]) before
            effectiveGrossIncome.dependencies operand.key given ∧ operand.Shows given step.result)
        effectiveGrossIncome.operands gets := by
  obtain ⟨trail, htrail, hrecord⟩ := Option.bind_eq_some_iff.1
    (show ((evaluate .usual "monday" "a" (surveyed overspent)
        (rawInputs [("totalRevenue", .int 1000), ("totalExpenses", .int 1200)])).toOption.bind
          fun trail => (trail.get? "effectiveGrossIncome").map fun result =>
            (result.value, result.error, result.steps.map CalculationStep.result)) =
      some (some (.finite false 1000 0), none,
        [some (.finite false 1000 0), some .zero, some (.finite false 1000 0)]) by decide +kernel)
  obtain ⟨result, hget, hparts⟩ := Option.map_eq_some_iff.1 hrecord
  rw [toOption_eq_some] at htrail
  have hid : result.formulaId = "effectiveGrossIncome" := by simpa using List.find?_some hget
  obtain ⟨before, after, hsplit⟩ := List.append_of_mem (List.mem_of_find?_eq_some hget)
  obtain ⟨formula, gets, last, hformula, hexplains⟩ :=
    record_explained (reached_surveyed (by cbv)) htrail hsplit
  rw [hid] at hformula
  obtain rfl : effectiveGrossIncome = formula := Except.ok.inj hformula
  simp only [Prod.mk.injEq, hexplains.steps, List.map_append] at hparts
  obtain ⟨hvalue, herror, hsteps⟩ := hparts
  have hshown : gets.map CalculationStep.result ++ [last.result] =
      [some (.finite false 1000 0), some .zero] ++ [some (.finite false 1000 0)] := hsteps
  exact ⟨trail, before, result, after, gets, last, htrail, hsplit, hexplains.steps, hvalue,
    (List.append_inj' hshown rfl).1, hexplains.value (by decide) (by simp [herror]),
    hexplains.numbers (by decide)⟩

end Evaluation
end Appraisal
