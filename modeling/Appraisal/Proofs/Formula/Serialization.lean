import Appraisal.Formula.Compute
import Appraisal.Proofs.Decimal.Text
import Appraisal.Proofs.Dictionary
import Appraisal.Proofs.Schema.Writing

/-!
# What a serialized formula says

Writing a formula out loses two things only: whether an operand without a path of its own has been given its key as
the path, and whether the description of an operand is empty or absent.  Neither is read when a formula is computed or
a result is checked, so formulas that are written alike behave alike.
-/

namespace Appraisal

open Payload (Alike alike_text alike_list alike_ofText? rel_map_text)

/-! ## Operands -/

namespace Operand

/-- The operand as it can be told from its object. -/
def presented (operand : Operand) : Operand :=
  { operand with ref := operand.path, description := operand.description.filter (· ≠ "") }

/-- The fields of the object of an operand. -/
theorem field?_toPayload (operand : Operand) (name : String) :
    operand.toPayload.field? name =
      (if name = "ref" then some (.text operand.path)
        else if name = "label" then some (.text operand.label)
        else if name = "key" then some (.text operand.key) else none).or
      ((if name = "description" then (operand.description.filter (· ≠ "")).map .text else none).or
      ((if name = "coefficient" then operand.coefficient.map fun x => .text x.toText else none).or
      ((if name = "default" then operand.fallback.map fun x => .text x.toText else none).or
      (if name = "positive" ∧ operand.positive then some (.bool true) else none)))) := by
  change Dictionary.get? (_ ++ _ ++ _ ++ _ ++ _) name = _
  rw [Dictionary.get?_append, Dictionary.get?_append, Dictionary.get?_append, Dictionary.get?_append,
    Dictionary.get?_cons_eq, Dictionary.get?_cons_eq, Dictionary.get?_cons_eq, Dictionary.get?_nil,
    Dictionary.get?_optional, Dictionary.get?_optional, Dictionary.get?_optional, Dictionary.get?_marked,
    Option.or_assoc, Option.or_assoc, Option.or_assoc]

/-- An operand is known by its payload up to what the payload leaves out, an empty description and a path that
is the key. -/
theorem presented_eq_of_alike {first second : Operand} (h : first.toPayload.Alike second.toPayload) :
    first.presented = second.presented := by
  -- Every field is found under its own name, whichever of the others are left out.
  have href : first.path = second.path := by simpa [field?_toPayload] using h.field? "ref"
  have hlabel : first.label = second.label := by simpa [field?_toPayload] using h.field? "label"
  have hkey : first.key = second.key := by simpa [field?_toPayload] using h.field? "key"
  have hdescription : first.description.filter (· ≠ "") = second.description.filter (· ≠ "") :=
    (rel_map_text Function.injective_id).1 (by simpa [field?_toPayload] using h.field? "description")
  have hcoefficient : first.coefficient = second.coefficient :=
    (rel_map_text Decimal.toText_injective).1 (by simpa [field?_toPayload] using h.field? "coefficient")
  have hfallback : first.fallback = second.fallback :=
    (rel_map_text Decimal.toText_injective).1 (by simpa [field?_toPayload] using h.field? "default")
  have hpositive : first.positive = second.positive := by
    have hmarked := h.field? "positive"
    cases hfirst : first.positive <;> cases hsecond : second.positive <;>
      simp [field?_toPayload, hfirst, hsecond] at hmarked ⊢
  rw [presented, presented, href, hlabel, hkey, hdescription, hcoefficient, hfallback, hpositive]

theorem path_presented (operand : Operand) : operand.presented.path = operand.path := by
  show (if operand.path = "" then operand.key else operand.path) = operand.path
  split
  · next hempty =>
      -- A path is empty only when the key is.
      unfold path at hempty ⊢
      split at hempty
      · next href => rw [if_pos href]
      · next href => exact absurd hempty href
  · rfl

theorem toPayload_presented (operand : Operand) : operand.presented.toPayload = operand.toPayload := by
  unfold toPayload
  rw [path_presented]
  simp [presented, Option.filter_filter]

end Operand

/-! ## Rules -/

/-- A rule is known by its payload. -/
theorem Rule.toPayload_alike_iff {first second : Rule} :
    first.toPayload.Alike second.toPayload ↔ first = second := by
  constructor
  · intro h
    have hfields := h.forall₂ rfl (by simp [Dictionary.keys])
    simp only [List.forall₂_cons, alike_text, alike_ofText?] at hfields
    obtain ⟨hseverity, hmessage, hmin, hmax, -⟩ := hfields
    cases first
    cases second
    rw [Rule.mk.injEq]
    exact ⟨Named.name_injective hseverity, hmessage, Option.map_injective Decimal.toText_injective hmin,
      Option.map_injective Decimal.toText_injective hmax⟩
  · rintro rfl
    exact .refl _

/-! ## Formulas -/

namespace Formula

variable {first second : Formula}

/-- The formula as it can be told from its object. -/
def presented (formula : Formula) : Formula :=
  { formula with operands := formula.operands.map Operand.presented }

theorem presented_eq_of_alike (h : first.toPayload.Alike second.toPayload) :
    first.presented = second.presented := by
  -- No field of a formula is ever left out, so the fields can be compared in order.
  have hfields := h.forall₂ rfl (by simp [Dictionary.keys])
  simp only [List.forall₂_cons, alike_text, alike_ofText?, alike_list, List.forall₂_map_left_iff,
    List.forall₂_map_right_iff, Rule.toPayload_alike_iff, List.forall₂_eq_eq_eq] at hfields
  obtain ⟨hid, hname, hwords, hexpression, hoperation, hoperands, hdependencies, hformat, hfunction, hscale,
    hrules, hcategory, hdescription, -⟩ := hfields
  have hpresented : first.operands.map Operand.presented = second.operands.map Operand.presented := by
    rw [← List.forall₂_eq_eq_eq, List.forall₂_map_left_iff, List.forall₂_map_right_iff]
    exact hoperands.imp fun _ _ => Operand.presented_eq_of_alike
  unfold presented
  rw [Formula.mk.injEq]
  exact ⟨hid, hname, hwords, hexpression, Named.name_injective hoperation, hpresented, hdependencies,
    Named.name_injective hformat, hfunction, Option.map_injective Decimal.toText_injective hscale,
    hrules, hcategory, hdescription⟩

theorem toPayload_presented (formula : Formula) : formula.presented.toPayload = formula.toPayload := by
  have hoperands : (formula.operands.map Operand.presented).map Operand.toPayload =
      formula.operands.map Operand.toPayload := by
    rw [List.map_map]
    exact List.map_congr_left fun operand _ => operand.toPayload_presented
  unfold toPayload presented
  rw [hoperands]

/-- Two formulas are written alike exactly when they cannot be told from their objects. -/
theorem toPayload_alike_iff :
    first.toPayload.Alike second.toPayload ↔ first.presented = second.presented := by
  refine ⟨presented_eq_of_alike, fun h => ?_⟩
  rw [← toPayload_presented first, ← toPayload_presented second, h]
  exact .refl _

/-! ## Behaviour -/

theorem resolve_presented (formula : Formula) (inputs : Inputs) :
    formula.presented.resolve inputs = formula.resolve inputs := by
  unfold resolve presented
  rw [List.foldlM_map]
  rfl

theorem weightedOperands_presented (operands : List Operand) (resolved : Resolved) :
    weightedOperands (operands.map Operand.presented) resolved = weightedOperands operands resolved := by
  have hvalues : (operands.map Operand.presented).mapM (resolvedValue resolved) =
      operands.mapM (resolvedValue resolved) := by
    rw [List.mapM_map]
    rfl
  unfold weightedOperands
  rw [hvalues]
  cases operands.mapM (resolvedValue resolved) with
  | none => rfl
  | some values =>
      dsimp only
      rw [List.zip_map_left, List.mapM_map]
      rfl

/-- Nothing that a payload leaves out has a part in the computation. -/
theorem compute_presented (formula : Formula) (inputs : Inputs) (functions : Dictionary CustomFunction) :
    formula.presented.compute inputs functions = formula.compute inputs functions := by
  have hraw (resolved : Resolved) :
      formula.presented.rawResult resolved functions = formula.rawResult resolved functions := by
    unfold rawResult
    rw [show formula.presented.operands = formula.operands.map Operand.presented from rfl,
      weightedOperands_presented]
    rfl
  -- The scale is not touched.
  unfold compute
  rw [resolve_presented]
  simp only [hraw]
  rfl

/-- Nothing that a payload leaves out has a part in the checks. -/
theorem validate_presented (formula : Formula) (result : Option Decimal) :
    formula.presented.validate result = formula.validate result := rfl

/-- Formulas that are written alike compute the same, find the same numbers for their operands and find the same
fault with a result. -/
theorem behaviour_of_toPayload (h : first.toPayload.Alike second.toPayload) :
    (∀ inputs functions, first.compute inputs functions = second.compute inputs functions) ∧
      (∀ inputs, first.resolve inputs = second.resolve inputs) ∧
      ∀ result, first.validate result = second.validate result := by
  have hpresented := presented_eq_of_alike h
  refine ⟨fun inputs functions => ?_, fun inputs => ?_, fun result => ?_⟩
  · rw [← compute_presented first, ← compute_presented second, hpresented]
  · rw [← resolve_presented first, ← resolve_presented second, hpresented]
  · rw [← validate_presented first, ← validate_presented second, hpresented]

/-- The income of a unit, in which the path and the description of the income may be spelled out. -/
def incomePerUnit (ref : String) (description : Option String) : Formula :=
  { id := "noiPerUnit", name := "NOI per Unit", humanReadable := "Net Operating Income / Units",
    expression := "noi / units", operation := .divide
    operands :=
      [{ key := "noi", label := "NOI", ref, description, coefficient := some (.finite false 150 (-2)),
         fallback := none, positive := false },
       { key := "units", label := "Units", ref := "", description := none, coefficient := none,
         fallback := some .one, positive := true }]
    dependencies := ["noi"], outputFormat := .currency, function := none, scale := some (.ofInt 100)
    rules := [{ severity := .warning, message := "Low income", minValue := some .zero, maxValue := none }]
    category := some "valuation", description := none }

/-- Spelling out the key as the path and an empty description makes another formula with the same object. -/
theorem behaviour_of_toPayload_incomePerUnit :
    incomePerUnit "" none ≠ incomePerUnit "noi" (some "") ∧
      (incomePerUnit "" none).toPayload.Alike (incomePerUnit "noi" (some "")).toPayload ∧
      (∀ inputs functions, (incomePerUnit "" none).compute inputs functions =
        (incomePerUnit "noi" (some "")).compute inputs functions) ∧
      (∀ inputs, (incomePerUnit "" none).resolve inputs = (incomePerUnit "noi" (some "")).resolve inputs) ∧
      ∀ result, (incomePerUnit "" none).validate result =
        (incomePerUnit "noi" (some "")).validate result := by
  have halike : (incomePerUnit "" none).toPayload.Alike (incomePerUnit "noi" (some "")).toPayload :=
    toPayload_alike_iff.2 (by decide)
  exact ⟨by decide, halike, behaviour_of_toPayload halike⟩

end Formula

end Appraisal
