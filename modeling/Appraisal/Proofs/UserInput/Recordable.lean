import Appraisal.Proofs.Provenance.RoundTrip
import Appraisal.Proofs.Schema.Exchange
import Appraisal.UserInput.Basic

/-!
# What a user input from outside is like

The numbers of a user input that was read from a payload are exact, its line items have identifiers and
labels, its further inputs have distinct names, and each source describes a record of the schema.  An
identifier that was missing has been drawn.  Only the rectangles are left unchecked by the schemas.
-/

namespace Appraisal

open Reading Schema

/-! ## What can be recorded -/

/-- The value is an exact number or none, and its source can be recorded. -/
structure SourcedValue.Recordable (sourced : SourcedValue) : Prop where
  value : ∃ found : Option Decimal, sourced.value = .ofDecimal? found ∧
    ∀ x, found = some x → Exact x
  source : sourced.source.Recordable

/-- The line item has an identifier, a label, an exact amount and a source that can be recorded. -/
structure LineItem.Recordable (item : LineItem) : Prop where
  id : item.id ≠ ""
  label : item.label ≠ ""
  amount : Exact item.amount
  source : item.source.Recordable

/-- The further inputs have distinct names and can be recorded. -/
structure RecordableInputs (inputs : Dictionary SourcedValue) : Prop where
  distinct : inputs.keys.Nodup
  values : ∀ entry ∈ inputs, entry.2.Recordable

/-- The value can be recorded, if it is there. -/
abbrev RecordableIfPresent (found : Option SourcedValue) : Prop :=
  ∀ value, found = some value → value.Recordable

/-- All inputs of the valuation can be recorded. -/
structure ValuationInputs.Recordable (inputs : ValuationInputs) : Prop where
  capRate : RecordableIfPresent inputs.capRate
  askingPrice : RecordableIfPresent inputs.askingPrice
  vacancyRate : RecordableIfPresent inputs.vacancyRate
  extensions : RecordableInputs inputs.extensions

/-- All that is known about the property can be recorded. -/
structure PropertyInfo.Recordable (info : PropertyInfo) : Prop where
  squareFootage : RecordableIfPresent info.squareFootage
  units : RecordableIfPresent info.units
  yearBuilt : RecordableIfPresent info.yearBuilt
  lotSize : RecordableIfPresent info.lotSize
  extensions : RecordableInputs info.extensions

/-- All parts of the user input can be recorded. -/
structure UserInput.Recordable (input : UserInput) : Prop where
  revenueItems : ∀ item ∈ input.revenueItems, item.Recordable
  expenseItems : ∀ item ∈ input.expenseItems, item.Recordable
  adjustmentItems : ∀ item ∈ input.adjustmentItems, item.Recordable
  propertyInfo : ∀ info, input.propertyInfo = some info → info.Recordable
  valuationInputs : ∀ inputs, input.valuationInputs = some inputs → inputs.Recordable

/-! ## Numbers -/

namespace NumberRecord

/-- The record yields a value that can be recorded, as far as rectangles are finite. -/
abbrev YieldsRecordable (number : NumberRecord) : Prop :=
  ∀ value, number.toValue = .ok value → value.source.HasFiniteBox → value.Recordable

/-- A number read from a well-formed payload converts to one that can be recorded. -/
theorem ensures_recordable {payload : Payload} (hpayload : payload.WellFormed) :
    Ensures YieldsRecordable (read payload) := by
  intro number h value hvalue hfinite
  obtain ⟨fields, rfl, hread⟩ := value?_record h
  simp only [ofFields, value?_seq, value?_map, Option.bind_map,
    Option.bind_eq_some_iff, Option.map_eq_some_iff, Function.comp_apply] at hread
  obtain ⟨found, hfound, record, hrecord, rfl⟩ := hread
  obtain ⟨source, hsource, hvalue⟩ := bind_eq_ok.1 hvalue
  obtain rfl := pure_eq_ok.1 hvalue
  have hexact := ensures_optional_of (fun payload hfield => ensures_exact (hpayload.field hfield)) _
    found hfound
  have hsound := ensures_required SourceRecord.ensures_sound _ _ record hrecord
  exact ⟨⟨found, rfl, hexact⟩, record, hsound, SourceRecord.eq_described hsource, hfinite⟩

theorem recordable_of_read {fields : List (String × Payload)}
    (hfields : (Payload.object fields).WellFormed) {name : String} {found : Option NumberRecord}
    (h : (optional name read (fieldOf? fields name)).value? = some found)
    {value : Option SourcedValue} (hvalue : found.mapM toValue = .ok value)
    (hfinite : ∀ sourced, value = some sourced → sourced.source.HasFiniteBox) :
    RecordableIfPresent value := by
  have hown := ensures_optional_of (fun payload hfield =>
    ensures_recordable (hfields.field hfield)) name found h
  have hyields : ∀ sourced, value = some sourced → sourced.source.HasFiniteBox →
      sourced.Recordable := forall_of_optionMapM hvalue hown
  exact fun sourced hsourced => hyields sourced hsourced (hfinite sourced hsourced)

/-- Further inputs that are read and converted have distinct names, and can be recorded. -/
theorem further_of_read {entries : Extensions.Entries} (hentries : Extensions.Sound entries)
    {numbers : Dictionary NumberRecord}
    (h : (Extensions.read read entries).value? = some numbers) {values : Dictionary SourcedValue}
    (hvalues : toValues numbers = .ok values)
    (hfinite : ∀ entry ∈ values, entry.2.source.HasFiniteBox) : RecordableInputs values := by
  have hown := Extensions.ensures_read_of (fun entry hentry =>
    ensures_recordable (hentries.wellFormed entry hentry)) numbers h
  have hentry (number : String × NumberRecord) (entry : String × SourcedValue)
      (hentry : (do return (number.1, ← number.2.toValue)) = Except.ok entry) :
      entry.1 = number.1 ∧ number.2.toValue = .ok entry.2 := by
    obtain ⟨value, hvalue, hpair⟩ := bind_eq_ok.1 hentry
    obtain rfl := pure_eq_ok.1 hpair
    exact ⟨rfl, hvalue⟩
  -- Conversion keeps the names, so they are as distinct as those that were read.
  have hnames : values.keys = numbers.keys :=
    map_eq_of_mapM (fun number entry h => (hentry number entry h).1) hvalues
  refine ⟨hnames ▸ Extensions.nodup_of_read hentries h, fun entry hmem => ?_⟩
  obtain ⟨number, hnumber, hto⟩ := exists_of_mem_mapM hvalues hmem
  exact hown number hnumber entry.2 (hentry number entry hto).2 (hfinite entry hmem)

end NumberRecord

/-! ## Line items -/

namespace LineItemRecord

theorem amountOf_decimal {amount : Decimal} (h : amount.isFinite = true) (label : String) :
    LineItem.amountOf label (.decimal amount) = .ok amount := by
  simp [LineItem.amountOf, Payload.amount?, Payload.finiteOnly, h]

theorem drawn_ne (n : Nat) :
    String.ofList ((IdSupply.nth n).toList.take LineItem.drawnIdLength) ≠ "" := by
  have hlong := IdSupply.length_nth_pos n
  intro hempty
  have hlength := congrArg (fun text => text.toList.length) hempty
  simp only [String.toList_ofList, List.length_take, LineItem.drawnIdLength, String.toList_empty,
    List.length_nil] at hlength
  omega

theorem idOr_ne {given id : String} {supply rest : IdSupply}
    (h : LineItem.idOr given supply = .ok (id, rest)) : id ≠ "" := by
  unfold LineItem.idOr at h
  split at h
  · obtain ⟨drawn, between, hdrawn, hpure⟩ := Build.bind_eq_ok.1 h
    have hnext : IdSupply.nth (supply.drawn + 1) = drawn := congrArg Prod.fst (Except.ok.inj hdrawn)
    have hid : String.ofList (drawn.toList.take LineItem.drawnIdLength) = id :=
      congrArg Prod.fst (Except.ok.inj hpure)
    rw [← hid, ← hnext]
    exact drawn_ne _
  · next hgiven =>
      cases h
      exact hgiven

/-- An item is built from what is given, under an identifier that is not empty. -/
theorem make_eq_ok {id label : String} {amount : Decimal} {source : SourceReference}
    {category notes : Option String} {flagged : Bool} {supply rest : IdSupply} {item : LineItem}
    (hamount : amount.isFinite = true)
    (h : LineItem.make id label (.decimal amount) source category notes flagged supply =
      .ok (item, rest)) :
    ∃ kept, kept ≠ "" ∧
      item =
        { id := kept, label, amount, source, category, notes, flaggedForReview := flagged } := by
  unfold LineItem.make at h
  rw [amountOf_decimal hamount] at h
  obtain ⟨kept, between, hkept, hpure⟩ := Build.bind_eq_ok.1 h
  cases hpure
  exact ⟨kept, idOr_ne hkept, rfl⟩

/-- The record yields a line item that can be recorded, with the identifier that it has drawn. -/
abbrev YieldsRecordable (record : LineItemRecord) : Prop :=
  ∀ item supply rest, record.toItem supply = .ok (item, rest) → item.source.HasFiniteBox →
    item.Recordable

/-- An item read from a well-formed payload converts to one that can be recorded. -/
theorem ensures_recordable {payload : Payload} (hpayload : payload.WellFormed) :
    Ensures YieldsRecordable (read payload) := by
  intro record h item supply rest hitem hfinite
  obtain ⟨fields, rfl, hread⟩ := value?_record h
  simp only [ofFields, value?_seq, value?_map, Option.bind_map, Option.bind_assoc,
    Option.bind_eq_some_iff, Option.map_eq_some_iff, Function.comp_apply] at hread
  obtain ⟨id, -, label, hlabel, amount, hamount, source, hsource, category, -, notes, -, flagged,
    -, rfl⟩ := hread
  have hexact := ensures_required_of (fun payload hfield => ensures_exact (hpayload.field hfield)) _
    amount hamount
  have hlabelled := ensures_required ensures_nonEmptyText _ _ label hlabel
  have hsound := ensures_required SourceRecord.ensures_sound _ _ source hsource
  -- The source is converted first, and then an identifier may be drawn.
  obtain ⟨reference, between, hreference, hmade⟩ := Build.bind_eq_ok.1 hitem
  obtain ⟨hdescribed, rfl⟩ := Build.ofExcept_eq_ok.1 hreference
  obtain ⟨kept, hkept, rfl⟩ := make_eq_ok hexact.1 hmade
  exact ⟨hkept, hlabelled, hexact, source, hsound, SourceRecord.eq_described hdescribed, hfinite⟩

theorem ensures_allRecordable {payload : Payload} (hpayload : payload.WellFormed) :
    Ensures (fun records => ∀ record ∈ records, YieldsRecordable record)
      (listOf read payload) := by
  refine ensures_listOf_of fun items hitems item hitem => ?_
  subst hitems
  exact ensures_recordable (hpayload.item hitem)

theorem allRecordable {records : List LineItemRecord}
    (h : ∀ record ∈ records, YieldsRecordable record) {items : List LineItem}
    {supply rest : IdSupply} (hitems : records.mapM toItem supply = .ok (items, rest))
    (hfinite : ∀ item ∈ items, item.source.HasFiniteBox) : ∀ item ∈ items, item.Recordable := by
  intro item hitem
  obtain ⟨record, hrecord, before, after, hto⟩ := Build.exists_of_mem_mapM hitems hitem
  exact h record hrecord item before after hto (hfinite item hitem)

end LineItemRecord

/-! ## Inputs with fixed names and further ones -/

namespace ValuationRecord

theorem ensures_recordable {payload : Payload} (hpayload : payload.WellFormed) :
    Ensures (fun record => ∀ inputs, record.toInputs = .ok inputs →
      (∀ source ∈ inputs.sources, source.HasFiniteBox) →
      inputs.Recordable) (read payload) := by
  intro record h inputs hinputs hfinite
  obtain ⟨fields, entries, hfields, hentries, hread⟩ := Extensions.exists_of_value?_record hpayload h
  simp only [readInput, value?_seq, value?_map, value?_within, Option.bind_map, Option.bind_assoc,
    Option.bind_eq_some_iff, Option.map_eq_some_iff, Function.comp_apply] at hread
  obtain ⟨extensions, hextensions, capRate, hcap, askingPrice, hasking, vacancyRate, hvacancy,
    rfl⟩ := hread
  -- The values are those of the records, one by one.
  obtain ⟨capValue, hcapTo, hinputs⟩ := bind_eq_ok.1 hinputs
  obtain ⟨askingValue, haskingTo, hinputs⟩ := bind_eq_ok.1 hinputs
  obtain ⟨vacancyValue, hvacancyTo, hinputs⟩ := bind_eq_ok.1 hinputs
  obtain ⟨further, hfurtherTo, hinputs⟩ := bind_eq_ok.1 hinputs
  obtain rfl := pure_eq_ok.1 hinputs
  refine
    { capRate := NumberRecord.recordable_of_read hfields hcap hcapTo ?_
      askingPrice := NumberRecord.recordable_of_read hfields hasking haskingTo ?_
      vacancyRate := NumberRecord.recordable_of_read hfields hvacancy hvacancyTo ?_
      extensions := NumberRecord.further_of_read hentries hextensions hfurtherTo
        fun entry hentry => hfinite _ (List.mem_append_right _ (List.mem_map_of_mem hentry)) }
  all_goals
    rintro value rfl
    exact hfinite value.source (List.mem_append_left _ (by simp [ValuationInputs.named]))

end ValuationRecord

namespace PropertyRecord

open ValuationRecord (readInput)

theorem ensures_recordable {payload : Payload} (hpayload : payload.WellFormed) :
    Ensures (fun record => ∀ info, record.toInfo = .ok info →
      (∀ source ∈ info.sources, source.HasFiniteBox) →
      info.Recordable) (read payload) := by
  intro record h info hinfo hfinite
  obtain ⟨fields, entries, hfields, hentries, hread⟩ := Extensions.exists_of_value?_record hpayload h
  simp only [readInput, value?_seq, value?_map, value?_within, Option.bind_map, Option.bind_assoc,
    Option.bind_eq_some_iff, Option.map_eq_some_iff, Function.comp_apply] at hread
  obtain ⟨extensions, hextensions, squareFootage, hsquare, units, hunits, yearBuilt, hyear,
    lotSize, hlot, rfl⟩ := hread
  -- The values are those of the records, one by one.
  obtain ⟨squareValue, hsquareTo, hinfo⟩ := bind_eq_ok.1 hinfo
  obtain ⟨unitsValue, hunitsTo, hinfo⟩ := bind_eq_ok.1 hinfo
  obtain ⟨yearValue, hyearTo, hinfo⟩ := bind_eq_ok.1 hinfo
  obtain ⟨lotValue, hlotTo, hinfo⟩ := bind_eq_ok.1 hinfo
  obtain ⟨further, hfurtherTo, hinfo⟩ := bind_eq_ok.1 hinfo
  obtain rfl := pure_eq_ok.1 hinfo
  refine
    { squareFootage := NumberRecord.recordable_of_read hfields hsquare hsquareTo ?_
      units := NumberRecord.recordable_of_read hfields hunits hunitsTo ?_
      yearBuilt := NumberRecord.recordable_of_read hfields hyear hyearTo ?_
      lotSize := NumberRecord.recordable_of_read hfields hlot hlotTo ?_
      extensions := NumberRecord.further_of_read hentries hextensions hfurtherTo
        fun entry hentry => hfinite _ (List.mem_append_right _ (List.mem_map_of_mem hentry)) }
  all_goals
    rintro value rfl
    exact hfinite value.source (List.mem_append_left _ (by simp [PropertyInfo.named]))

end PropertyRecord

/-! ## The whole user input -/

/-- The rectangles of all sources are finite. -/
def UserInput.HasFiniteBoxes (input : UserInput) : Prop :=
  ∀ source ∈ input.sources, source.HasFiniteBox

instance : DecidablePred UserInput.HasFiniteBoxes := fun input =>
  inferInstanceAs (Decidable (∀ source ∈ input.sources, source.HasFiniteBox))

theorem UserInput.map_item_placed (part : String) (items : List LineItem) :
    (placed part items).map PlacedItem.item = items := by
  unfold placed
  rw [List.map_map]
  exact List.zipIdx_map_fst 0 items

namespace UserInputRecord

theorem source_mem_placed {item : LineItem} {items : List LineItem} (h : item ∈ items)
    (part : String) :
    item.source ∈ (UserInput.placed part items).map fun placed => placed.item.source := by
  rw [← UserInput.map_item_placed part items] at h
  obtain ⟨placed, hmem, rfl⟩ := List.mem_map.1 h
  exact List.mem_map_of_mem hmem

/-- A user input that was read from a payload can be recorded. -/
theorem recordable_of_parse {payload : Payload} (hpayload : payload.WellFormed) {supply rest : IdSupply}
    {input : UserInput} (h : parseUserInput payload supply = .ok (input, rest))
    (hboxes : input.HasFiniteBoxes) : input.Recordable := by
  obtain ⟨record, between, hrecord, hinput⟩ := Build.bind_eq_ok.1 h
  -- What the reader of records accepts, and the user input that is made of it.
  obtain ⟨hparsed, rfl⟩ := Build.ofExcept_eq_ok.1 hrecord
  have hread : (read payload).value? = some record := parsed_eq_ok.1 hparsed
  unfold read at hread
  obtain ⟨fields, rfl, hfields⟩ := value?_record hread
  simp only [value?_seq, value?_map, Option.bind_map, Option.bind_assoc,
    Option.bind_eq_some_iff, Option.map_eq_some_iff, Function.comp_apply] at hfields
  obtain ⟨revenue, hrevenue, expense, hexpense, adjustment, hadjustment, property, hproperty,
    valuation, hvaluation, rfl⟩ := hfields
  obtain ⟨revenueItems, _, hrevenueTo, hinput⟩ := Build.bind_eq_ok.1 hinput
  obtain ⟨expenseItems, _, hexpenseTo, hinput⟩ := Build.bind_eq_ok.1 hinput
  obtain ⟨adjustmentItems, _, hadjustmentTo, hinput⟩ := Build.bind_eq_ok.1 hinput
  obtain ⟨propertyInfo, _, hpropertyTo, hinput⟩ := Build.bind_eq_ok.1 hinput
  obtain ⟨valuationInputs, _, hvaluationTo, hinput⟩ := Build.bind_eq_ok.1 hinput
  obtain ⟨hpropertyMap, rfl⟩ := Build.ofExcept_eq_ok.1 hpropertyTo
  obtain ⟨hvaluationMap, rfl⟩ := Build.ofExcept_eq_ok.1 hvaluationTo
  cases hinput
  -- Every part of the record yields something that can be recorded, if its rectangles are finite.
  have hrevenue := ensures_required_of (fun payload hfield =>
    LineItemRecord.ensures_allRecordable (hpayload.field hfield)) _ revenue hrevenue
  have hexpense := ensures_required_of (fun payload hfield =>
    LineItemRecord.ensures_allRecordable (hpayload.field hfield)) _ expense hexpense
  have hadjustment := ensures_orUsual_of (fun _ h => by cases h) (fun payload hfield =>
    LineItemRecord.ensures_allRecordable (hpayload.field hfield)) _ adjustment hadjustment
  have hproperty := ensures_optional_of (fun payload hfield =>
    PropertyRecord.ensures_recordable (hpayload.field hfield)) _ property hproperty
  have hvaluation := ensures_optional_of (fun payload hfield =>
    ValuationRecord.ensures_recordable (hpayload.field hfield)) _ valuation hvaluation
  have hitems {item : LineItem} (part : String) {items : List LineItem} (hmem : item ∈ items) :=
    source_mem_placed hmem part
  unfold UserInput.HasFiniteBoxes UserInput.sources UserInput.allItems at hboxes
  simp only [List.map_append, List.forall_mem_append] at hboxes
  obtain ⟨⟨⟨⟨hrevenueBox, hexpenseBox⟩, hadjustmentBox⟩, hvaluationBox⟩, hpropertyBox⟩ := hboxes
  exact
    { revenueItems := LineItemRecord.allRecordable hrevenue hrevenueTo
        fun item h => hrevenueBox _ (hitems _ h)
      expenseItems := LineItemRecord.allRecordable hexpense hexpenseTo
        fun item h => hexpenseBox _ (hitems _ h)
      adjustmentItems := LineItemRecord.allRecordable hadjustment hadjustmentTo
        fun item h => hadjustmentBox _ (hitems _ h)
      propertyInfo := fun info hinfo => by
        subst hinfo
        exact forall_of_optionMapM hpropertyMap hproperty info rfl hpropertyBox
      valuationInputs := fun inputs hinputs => by
        subst hinputs
        exact forall_of_optionMapM hvaluationMap hvaluation inputs rfl hvaluationBox }

end UserInputRecord
end Appraisal
