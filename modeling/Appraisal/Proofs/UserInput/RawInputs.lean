import Appraisal.Proofs.Fallible
import Appraisal.UserInput.Basic

/-!
# Which number a name stands for

Five sources give numbers by name: the totals of the three lists, the fixed names of the valuation, its
further inputs, the fixed names of the property, its further inputs.  A name that two of them give takes
its number from the first of them in the order

  fixed names of the valuation, further inputs of the valuation, totals, fixed names of the property,
  further inputs of the property.

So no further input ever displaces a fixed name of the valuation, and one of the property displaces
nothing; a further input of the valuation does displace a total or a field of the property.
-/

namespace Appraisal

namespace NamedValues

/-- The number of a fixed name; none if there is no such name. -/
def number? (named : NamedValues) (name : String) : Option (Option Decimal) :=
  (Dictionary.get? named name).map fun given => given.bind SourcedValue.number

/-- A named field goes before an extension of its name. -/
theorem get?_numbers (named : NamedValues) (extensions : Dictionary SourcedValue) (name : String) :
    (named.numbers extensions).get? name =
      (named.number? name).or ((extensions.get? name).map SourcedValue.number) := by
  unfold numbers number?
  rw [Dictionary.get?_putAllNew]
  have hnamed := Dictionary.get?_map named (fun given => given.bind SourcedValue.number) name
  have hextensions := Dictionary.get?_map extensions SourcedValue.number name
  rw [hnamed, hextensions]

theorem number?_eq_none_iff (named : NamedValues) (name : String) :
    named.number? name = none ↔ name ∉ Dictionary.keys named := by
  rw [number?, Option.map_eq_none_iff, Dictionary.get?_eq_none_iff]

/-- The number under a name is that of its field, which may be missing. -/
theorem number?_of_mem {named : NamedValues} (h : (Dictionary.keys named).Nodup)
    {field : String × Option SourcedValue} (hfield : field ∈ named) :
    named.number? field.1 = some (field.2.bind SourcedValue.number) := by
  rw [number?, Dictionary.get?_of_mem h hfield, Option.map_some]

theorem nodup_keys_numbers {named : NamedValues} (h : (Dictionary.keys named).Nodup)
    (extensions : Dictionary SourcedValue) : (named.numbers extensions).keys.Nodup := by
  refine Dictionary.nodup_keys_putAllNew ?_ _
  have hkeys : Dictionary.keys (named.map fun entry => (entry.1, entry.2.bind SourcedValue.number)) =
      Dictionary.keys named := by
    simp [Dictionary.keys, Function.comp_def]
  rwa [hkeys]

end NamedValues

namespace UserInput

/-- The three lists of line items, by the names of their totals. -/
def sections (input : UserInput) : Dictionary (List LineItem) :=
  [("totalRevenue", input.revenueItems), ("totalExpenses", input.expenseItems),
    ("totalAdjustments", input.adjustmentItems)]

/-- The fixed names of the valuation, if there is one. -/
def namedValuation (input : UserInput) : NamedValues :=
  input.valuationInputs.elim [] ValuationInputs.named

/-- The fixed names of the property, if it is known. -/
def namedProperty (input : UserInput) : NamedValues :=
  input.propertyInfo.elim [] PropertyInfo.named

/-- The further inputs of the valuation. -/
def valuationExtensions (input : UserInput) : Dictionary SourcedValue :=
  input.valuationInputs.elim [] ValuationInputs.extensions

/-- The further inputs of the property. -/
def propertyExtensions (input : UserInput) : Dictionary SourcedValue :=
  input.propertyInfo.elim [] PropertyInfo.extensions

/-- The names of the totals. -/
def totalNames : List String :=
  ["totalRevenue", "totalExpenses", "totalAdjustments"]

/-- The names of the fields of the valuation. -/
def valuationNames : List String :=
  ["capRate", "askingPrice", "vacancyRate"]

/-- The names of the fields of the property. -/
def propertyNames : List String :=
  ["squareFootage", "units", "yearBuilt", "lotSize"]

/-- The names that are no names of further inputs. -/
def fixedNames : List String :=
  totalNames ++ valuationNames ++ propertyNames

/-! ## The five sources -/

theorem nodup_keys_named_valuation (inputs : ValuationInputs) :
    (Dictionary.keys inputs.named).Nodup :=
  show valuationNames.Nodup by decide

theorem nodup_keys_named_property (info : PropertyInfo) : (Dictionary.keys info.named).Nodup :=
  show propertyNames.Nodup by decide

theorem keys_namedValuation_subset (input : UserInput) :
    Dictionary.keys input.namedValuation ⊆ valuationNames := by
  unfold namedValuation
  cases input.valuationInputs with
  | none => exact List.nil_subset _
  | some inputs => exact List.Subset.refl _

theorem keys_namedProperty_subset (input : UserInput) :
    Dictionary.keys input.namedProperty ⊆ propertyNames := by
  unfold namedProperty
  cases input.propertyInfo with
  | none => exact List.nil_subset _
  | some info => exact List.Subset.refl _

theorem get?_valuationNumbers (input : UserInput) (name : String) :
    input.valuationNumbers.get? name =
      (input.namedValuation.number? name).or
        ((input.valuationExtensions.get? name).map SourcedValue.number) := by
  unfold valuationNumbers namedValuation valuationExtensions
  cases input.valuationInputs with
  | none => rfl
  | some inputs => exact NamedValues.get?_numbers inputs.named inputs.extensions name

theorem get?_propertyNumbers (input : UserInput) (name : String) :
    input.propertyNumbers.get? name =
      (input.namedProperty.number? name).or
        ((input.propertyExtensions.get? name).map SourcedValue.number) := by
  unfold propertyNumbers namedProperty propertyExtensions
  cases input.propertyInfo with
  | none => rfl
  | some info => exact NamedValues.get?_numbers info.named info.extensions name

theorem nodup_keys_valuationNumbers (input : UserInput) : input.valuationNumbers.keys.Nodup := by
  unfold valuationNumbers
  cases input.valuationInputs with
  | none => exact List.nodup_nil
  | some inputs =>
      exact NamedValues.nodup_keys_numbers (nodup_keys_named_valuation inputs) inputs.extensions

/-- The totals are those of the three sections, each of which has to be summed. -/
theorem totals_eq_ok {input : UserInput} {totals : Dictionary (Option Decimal)} :
    input.totals = .ok totals ↔ ∃ revenue expenses adjustments,
      LineItem.total input.revenueItems = .ok revenue ∧
      LineItem.total input.expenseItems = .ok expenses ∧
      LineItem.total input.adjustmentItems = .ok adjustments ∧
      totals = [("totalRevenue", revenue), ("totalExpenses", expenses),
        ("totalAdjustments", adjustments)] := by
  unfold UserInput.totals
  simp only [bind_eq_ok, pure_eq_ok]
  constructor
  · rintro ⟨revenue, hrevenue, expenses, hexpenses, adjustments, hadjustments, rfl⟩
    exact ⟨revenue, expenses, adjustments, hrevenue, hexpenses, hadjustments, rfl⟩
  · rintro ⟨revenue, expenses, adjustments, hrevenue, hexpenses, hadjustments, rfl⟩
    exact ⟨revenue, hrevenue, expenses, hexpenses, adjustments, hadjustments, rfl⟩

/-- Numbers of the valuation displace the totals; those of the property only fill what is left. -/
theorem rawInputs_eq_ok {input : UserInput} {raw : Dictionary (Option Decimal)} :
    input.rawInputs = .ok raw ↔ ∃ totals, input.totals = .ok totals ∧
      raw = Dictionary.putAllNew (Dictionary.putAll totals input.valuationNumbers)
        input.propertyNumbers := by
  unfold rawInputs
  simp only [bind_eq_ok, pure_eq_ok, eq_comm (a := raw)]

/-- The order in which the five sources are asked for a name. -/
theorem get?_rawInputs {input : UserInput} {totals raw : Dictionary (Option Decimal)}
    (htotals : input.totals = .ok totals) (hraw : input.rawInputs = .ok raw) (name : String) :
    raw.get? name =
      ((((input.namedValuation.number? name).or
        ((input.valuationExtensions.get? name).map SourcedValue.number)).or
        (totals.get? name)).or
        (input.namedProperty.number? name)).or
        ((input.propertyExtensions.get? name).map SourcedValue.number) := by
  obtain ⟨sums, hsums, rfl⟩ := rawInputs_eq_ok.1 hraw
  obtain rfl : sums = totals := Except.ok.inj (hsums.symm.trans htotals)
  rw [Dictionary.get?_putAllNew, Dictionary.get?_putAll,
    Dictionary.get?_reverse (nodup_keys_valuationNumbers input), get?_valuationNumbers,
    get?_propertyNumbers, ← Option.or_assoc]

/-! ## The totals -/

theorem returns_rawInputs_iff (input : UserInput) :
    Returns input.rawInputs ↔ ∀ part ∈ input.sections, Returns (LineItem.total part.2) := by
  constructor
  · rintro ⟨raw, hraw⟩
    obtain ⟨totals, htotals, -⟩ := rawInputs_eq_ok.1 hraw
    obtain ⟨revenue, expenses, adjustments, hrevenue, hexpenses, hadjustments, -⟩ :=
      totals_eq_ok.1 htotals
    simp only [sections, List.forall_mem_cons, List.not_mem_nil, false_implies, implies_true,
      and_true]
    exact ⟨⟨revenue, hrevenue⟩, ⟨expenses, hexpenses⟩, ⟨adjustments, hadjustments⟩⟩
  · intro h
    simp only [sections, List.forall_mem_cons, List.not_mem_nil, false_implies, implies_true,
      and_true] at h
    obtain ⟨⟨revenue, hrevenue⟩, ⟨expenses, hexpenses⟩, ⟨adjustments, hadjustments⟩⟩ := h
    exact ⟨_, rawInputs_eq_ok.2 ⟨_, totals_eq_ok.2
      ⟨revenue, expenses, adjustments, hrevenue, hexpenses, hadjustments, rfl⟩, rfl⟩⟩

theorem get?_totals {input : UserInput} {totals : Dictionary (Option Decimal)}
    (h : input.totals = .ok totals) {part : String × List LineItem} (hpart : part ∈ input.sections) :
    ∃ total, LineItem.total part.2 = .ok total ∧ totals.get? part.1 = some total := by
  obtain ⟨revenue, expenses, adjustments, hrevenue, hexpenses, hadjustments, rfl⟩ :=
    totals_eq_ok.1 h
  simp only [sections, List.mem_cons, List.not_mem_nil, or_false] at hpart
  rcases hpart with rfl | rfl | rfl
  · exact ⟨revenue, hrevenue, rfl⟩
  · exact ⟨expenses, hexpenses, rfl⟩
  · exact ⟨adjustments, hadjustments, rfl⟩

theorem keys_totals {input : UserInput} {totals : Dictionary (Option Decimal)}
    (h : input.totals = .ok totals) :
    totals.keys = totalNames := by
  obtain ⟨revenue, expenses, adjustments, -, -, -, rfl⟩ := totals_eq_ok.1 h
  rfl

/-! ## Names by kind -/

/-- A total is given under its name, unless an extension of the valuation has that name. -/
theorem rawInputs_total {input : UserInput} {raw : Dictionary (Option Decimal)}
    (hraw : input.rawInputs = .ok raw) {part : String × List LineItem}
    (hpart : part ∈ input.sections) :
    ∃ total, LineItem.total part.2 = .ok total ∧ raw.get? part.1 =
      some ((input.valuationExtensions.get? part.1).elim total SourcedValue.number) := by
  obtain ⟨totals, htotals, -⟩ := rawInputs_eq_ok.1 hraw
  obtain ⟨total, htotal, hget⟩ := get?_totals htotals hpart
  refine ⟨total, htotal, ?_⟩
  have hname : part.1 ∈ totalNames := List.mem_map_of_mem (f := Prod.fst) hpart
  -- No field of the valuation is called like a total.
  have hfield : input.namedValuation.number? part.1 = none := by
    rw [NamedValues.number?_eq_none_iff]
    intro hmem
    have hdisjoint : ∀ name ∈ totalNames, name ∉ valuationNames := by decide
    exact hdisjoint part.1 hname (keys_namedValuation_subset input hmem)
  rw [get?_rawInputs htotals hraw, hfield, hget]
  cases input.valuationExtensions.get? part.1 <;> simp

theorem rawInputs_valuation {input : UserInput} {raw : Dictionary (Option Decimal)}
    (hraw : input.rawInputs = .ok raw) {inputs : ValuationInputs}
    (hinputs : input.valuationInputs = some inputs) {field : String × Option SourcedValue}
    (hfield : field ∈ inputs.named) :
    raw.get? field.1 = some (field.2.bind SourcedValue.number) := by
  obtain ⟨totals, htotals, -⟩ := rawInputs_eq_ok.1 hraw
  have hnamed : input.namedValuation = inputs.named := by
    rw [namedValuation, hinputs, Option.elim_some]
  have hnumber := NamedValues.number?_of_mem (nodup_keys_named_valuation inputs) hfield
  rw [get?_rawInputs htotals hraw, hnamed, hnumber]
  simp

theorem rawInputs_property {input : UserInput} {raw : Dictionary (Option Decimal)}
    (hraw : input.rawInputs = .ok raw) {info : PropertyInfo}
    (hinfo : input.propertyInfo = some info) {field : String × Option SourcedValue}
    (hfield : field ∈ info.named) :
    raw.get? field.1 = some ((input.valuationExtensions.get? field.1).elim
      (field.2.bind SourcedValue.number) SourcedValue.number) := by
  obtain ⟨totals, htotals, -⟩ := rawInputs_eq_ok.1 hraw
  have hnamed : input.namedProperty = info.named := by
    rw [namedProperty, hinfo, Option.elim_some]
  have hnumber := NamedValues.number?_of_mem (nodup_keys_named_property info) hfield
  have hname : field.1 ∈ propertyNames := List.mem_map_of_mem (f := Prod.fst) hfield
  -- Neither a total nor a field of the valuation is called like a field of the property.
  have hvaluation : input.namedValuation.number? field.1 = none := by
    rw [NamedValues.number?_eq_none_iff]
    intro hmem
    have hdisjoint : ∀ name ∈ propertyNames, name ∉ valuationNames := by decide
    exact hdisjoint field.1 hname (keys_namedValuation_subset input hmem)
  have htotal : totals.get? field.1 = none := by
    rw [Dictionary.get?_eq_none_iff, keys_totals htotals]
    have hdisjoint : ∀ name ∈ propertyNames, name ∉ totalNames := by decide
    exact hdisjoint field.1 hname
  rw [get?_rawInputs htotals hraw, hvaluation, htotal, hnamed, hnumber]
  cases input.valuationExtensions.get? field.1 <;> simp

/-- Another name has the number of an extension, of the valuation rather than of the property. -/
theorem rawInputs_further {input : UserInput} {raw : Dictionary (Option Decimal)}
    (hraw : input.rawInputs = .ok raw) {name : String} (hname : name ∉ fixedNames) :
    raw.get? name = ((input.valuationExtensions.get? name).or
      (input.propertyExtensions.get? name)).map SourcedValue.number := by
  obtain ⟨totals, htotals, -⟩ := rawInputs_eq_ok.1 hraw
  have hvaluation : input.namedValuation.number? name = none := by
    rw [NamedValues.number?_eq_none_iff]
    intro hmem
    exact hname ((show valuationNames ⊆ fixedNames by decide) (keys_namedValuation_subset input hmem))
  have hproperty : input.namedProperty.number? name = none := by
    rw [NamedValues.number?_eq_none_iff]
    intro hmem
    exact hname ((show propertyNames ⊆ fixedNames by decide) (keys_namedProperty_subset input hmem))
  have htotal : totals.get? name = none := by
    rw [Dictionary.get?_eq_none_iff, keys_totals htotals]
    intro hmem
    exact hname ((show totalNames ⊆ fixedNames by decide) hmem)
  rw [get?_rawInputs htotals hraw, hvaluation, hproperty, htotal]
  cases input.valuationExtensions.get? name <;> simp

/-- Numbers are read by name unless a section adds up to no number.  A total is the sum of its section
and a field of the property has its own number, unless the valuation has a further input of that name,
which then takes its place.  A field of the valuation has its own number always, and of two further
inputs of another name the one of the valuation counts. -/
theorem rawInputs_exact (input : UserInput) :
    (Returns input.rawInputs ↔ ∀ part ∈ input.sections, Returns (LineItem.total part.2)) ∧
    ∀ raw, input.rawInputs = .ok raw →
      (∀ part ∈ input.sections, ∃ total, LineItem.total part.2 = .ok total ∧ raw.get? part.1 =
        some ((input.valuationExtensions.get? part.1).elim total SourcedValue.number)) ∧
      (∀ inputs, input.valuationInputs = some inputs → ∀ field ∈ inputs.named,
        raw.get? field.1 = some (field.2.bind SourcedValue.number)) ∧
      (∀ info, input.propertyInfo = some info → ∀ field ∈ info.named,
        raw.get? field.1 = some ((input.valuationExtensions.get? field.1).elim
          (field.2.bind SourcedValue.number) SourcedValue.number)) ∧
      ∀ name, name ∉ fixedNames → raw.get? name =
        ((input.valuationExtensions.get? name).or (input.propertyExtensions.get? name)).map
          SourcedValue.number := by
  refine ⟨returns_rawInputs_iff input, fun raw hraw => ⟨?_, ?_, ?_, ?_⟩⟩
  · intro part hpart
    exact rawInputs_total hraw hpart
  · intro inputs hinputs field hfield
    exact rawInputs_valuation hraw hinputs hfield
  · intro info hinfo field hfield
    exact rawInputs_property hraw hinfo hfield
  · intro name hname
    exact rawInputs_further hraw hname

/-- The source of values that a user entered under a key. -/
def enteredUnder (key : String) : SourceReference :=
  .plain "" .userInput (.ofKey? (some key)) ("userInput." ++ key)

/-- One line of revenue over 1000, and a further input of the valuation of 5 that is called like the
total of the revenue. -/
def displaced : UserInput :=
  { revenueItems :=
      [{ id := "rent", label := "Rent", amount := .ofInt 1000, source := enteredUnder "rent"
         category := none, notes := none, flaggedForReview := false }]
    expenseItems := []
    adjustmentItems := []
    propertyInfo := none
    valuationInputs := some
      { capRate := none, askingPrice := none, vacancyRate := none
        extensions :=
          [("totalRevenue", { value := .int 5, source := enteredUnder "totalRevenue" })] } }

/-- A total is not the sum of its section when a further input of the valuation has its name. -/
theorem rawInputs_displaced_total :
    LineItem.total displaced.revenueItems = .ok (some (.ofInt 1000)) ∧
    ∃ raw, displaced.rawInputs = .ok raw ∧ raw.get? "totalRevenue" = some (some (.ofInt 5)) := by
  have htotal : (LineItem.total displaced.revenueItems).toOption = some (some (.ofInt 1000)) := by
    decide +kernel
  have hget : displaced.rawInputs.toOption.map (fun raw => raw.get? "totalRevenue") =
      some (some (some (.ofInt 5))) := by decide +kernel
  obtain ⟨raw, hraw, hnumber⟩ := Option.map_eq_some_iff.1 hget
  exact ⟨toOption_eq_some.1 htotal, raw, toOption_eq_some.1 hraw, hnumber⟩

end UserInput
end Appraisal
