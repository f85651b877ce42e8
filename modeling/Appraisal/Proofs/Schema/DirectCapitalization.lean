import Appraisal.Proofs.Schema.Conversion

/-!
# Models of direct capitalization

Which schema a payload is read against is decided by its field `modelType`, in this spelling.  The type of
the model is read under either spelling.  A model of direct capitalization is therefore complete when it
comes from a payload with that field, and only then is its completeness checked.
-/

namespace Appraisal

open Reading Build

namespace FinancialModel

/-- The valuation inputs hold a rate of capitalization, and the property value is among the
calculations. -/
structure Capitalizes (model : FinancialModel) : Prop where
  capRate : ∃ inputs rate, model.userInput.valuationInputs = some inputs ∧
    inputs.capRate = some rate
  propertyValue : ∃ result ∈ model.calculations.calculations, result.formulaId = "propertyValue"

end FinancialModel

/-! ## What the conversion keeps -/

theorem SourceRecord.key_of_toSource {source : SourceRecord} {converted : SourceReference}
    (h : source.toSource = .ok converted) : converted.reference.key = source.reference.key := by
  unfold toSource at h
  obtain ⟨rfl, -⟩ := (SourceReference.check_eq_ok_iff _ _).1 (ofChecked_eq_ok.1 h)
  rfl

theorem ResultRecord.key_of_toResult {result : ResultRecord} {converted : CalculationResult}
    (h : result.toResult = .ok converted) :
    converted.source.reference.key = result.source.reference.key := by
  obtain ⟨source, hsource, h⟩ := bind_eq_ok.1 h
  obtain rfl := pure_eq_ok.1 h
  exact SourceRecord.key_of_toSource hsource

/-- Conversion keeps the keys of the results, in their order. -/
theorem TrailRecord.keys_of_toTrail {trail : TrailRecord} {converted : AuditTrail}
    (h : trail.toTrail = .ok converted) :
    converted.calculations.map (fun result => result.source.reference.key) =
      trail.calculations.map fun result => result.source.reference.key := by
  obtain ⟨calculations, hcalculations, h⟩ := bind_eq_ok.1 h
  obtain rfl := pure_eq_ok.1 h
  exact map_eq_of_mapM (fun _ _ => ResultRecord.key_of_toResult) hcalculations

theorem ValuationRecord.capRate_of_toInputs {inputs : ValuationRecord}
    {converted : ValuationInputs} (h : inputs.toInputs = .ok converted) :
    converted.capRate.isSome = inputs.capRate.isSome := by
  obtain ⟨capRate, hrate, h⟩ := bind_eq_ok.1 h
  obtain ⟨_, -, h⟩ := bind_eq_ok.1 h
  obtain ⟨_, -, h⟩ := bind_eq_ok.1 h
  obtain ⟨_, -, h⟩ := bind_eq_ok.1 h
  obtain rfl := pure_eq_ok.1 h
  rcases optionMapM_eq_ok hrate with ⟨hinputs, rfl⟩ | ⟨number, value, hinputs, -, rfl⟩
  · rw [hinputs]; rfl
  · rw [hinputs]; rfl

theorem UserInputRecord.valuation_of_toInput {input : UserInputRecord} {supply rest : IdSupply}
    {converted : UserInput} (h : input.toInput supply = .ok (converted, rest)) :
    input.valuationInputs.mapM ValuationRecord.toInputs = .ok converted.valuationInputs := by
  obtain ⟨_, _, -, h⟩ := Build.bind_eq_ok.1 h
  obtain ⟨_, _, -, h⟩ := Build.bind_eq_ok.1 h
  obtain ⟨_, _, -, h⟩ := Build.bind_eq_ok.1 h
  obtain ⟨_, _, -, h⟩ := Build.bind_eq_ok.1 h
  obtain ⟨valuation, _, hvaluation, h⟩ := Build.bind_eq_ok.1 h
  obtain ⟨rfl, -⟩ := Prod.mk.inj (Except.ok.inj h)
  exact (ofExcept_eq_ok.1 hvaluation).1

namespace ModelRecord

/-- The parts of a converted model come from the parts of its record. -/
theorem toModel_eq_ok {record : ModelRecord} {supply rest : IdSupply} {model : FinancialModel}
    (h : record.toModel supply = .ok (model, rest)) :
    model.modelType = record.modelType ∧
      (∃ between, record.customModel.userInput.toInput supply = .ok (model.userInput, between)) ∧
      record.customModel.calculations.toTrail = .ok model.calculations := by
  obtain ⟨input, between, hinput, h⟩ := Build.bind_eq_ok.1 h
  obtain ⟨trail, _, htrail, h⟩ := Build.bind_eq_ok.1 h
  obtain ⟨rfl, -⟩ := Prod.mk.inj (Except.ok.inj h)
  exact ⟨rfl, ⟨between, hinput⟩, (ofExcept_eq_ok.1 htrail).1⟩

/-- The conversion of a model keeps whether it is complete. -/
theorem capitalizes_iff {record : ModelRecord} {supply rest : IdSupply} {model : FinancialModel}
    (h : record.toModel supply = .ok (model, rest)) :
    model.Capitalizes ↔ record.hasCapRate = true ∧ record.hasPropertyValue = true := by
  obtain ⟨-, ⟨between, hinput⟩, htrail⟩ := toModel_eq_ok h
  -- A cap rate and a result for the value are looked for separately, in the inputs and in the trail.
  have hrate : (∃ inputs rate, model.userInput.valuationInputs = some inputs ∧
      inputs.capRate = some rate) ↔ record.hasCapRate = true := by
    unfold hasCapRate
    rcases optionMapM_eq_ok (UserInputRecord.valuation_of_toInput hinput) with
      ⟨hrecord, hmodel⟩ | ⟨inputs, converted, hrecord, hconverted, hmodel⟩
    · simp [hrecord, hmodel]
    · rw [hrecord, Option.bind_some, ← ValuationRecord.capRate_of_toInputs hconverted]
      simp [hmodel, Option.isSome_iff_exists]
  have hvalue : (∃ result ∈ model.calculations.calculations, result.formulaId = "propertyValue") ↔
      record.hasPropertyValue = true := by
    have hkey (key : Option String) :
        key.getD "" = "propertyValue" ↔ key = some "propertyValue" := by
      cases key <;> simp
    have hkeys := congrArg (some "propertyValue" ∈ ·) (TrailRecord.keys_of_toTrail htrail)
    simp only [List.mem_map, eq_iff_iff] at hkeys
    simpa [hasPropertyValue, CalculationResult.formulaId, hkey] using hkeys
  exact ⟨fun h => ⟨hrate.1 h.capRate, hvalue.1 h.propertyValue⟩,
    fun h => ⟨hrate.2 h.1, hvalue.2 h.2⟩⟩

end ModelRecord

/-! ## Which schema decides -/

namespace Schema

theorem value?_option {α : Type} [Named α] {payload : Payload} {value : α}
    (h : (option α payload).value? = some value) : payload = .text (Named.name value) := by
  unfold option at h
  split at h
  · next found hfound =>
      obtain rfl := Option.some.inj h
      cases payload with
      | text name => rw [Named.name_of_ofName? hfound]
      | _ => cases hfound
  · cases h

/-- The strict schema is chosen by one spelling of the field alone. -/
theorem namesDirectCap_iff {payload : Payload} :
    namesDirectCap payload = true ↔
      payload.field? "modelType" = some (.text "direct_capitalization") := by
  unfold namesDirectCap
  split
  · next name hname => simp [hname, Named.name]
  · next hnone =>
      refine iff_of_false Bool.false_ne_true fun h => ?_
      exact hnone _ h

/-- The type of a model is read from its field under either spelling. -/
theorem type_of_readAs {recordName : String} {payload : Payload} {record : ModelRecord}
    (h : (ModelRecord.readAs recordName payload).value? = some record) :
    (payload.field? "modelType").or (payload.field? "model_type") =
      some (.text (Named.name record.modelType)) := by
  obtain ⟨fields, rfl, hfields⟩ := value?_record h
  simp only [ModelRecord.ofFields, value?_seq, value?_map, Option.bind_map, Option.bind_assoc,
    Option.bind_eq_some_iff, Option.map_eq_some_iff, Function.comp_apply] at hfields
  obtain ⟨_, -, _, -, type, htype, _, -, _, -, _, -, rfl⟩ := hfields
  obtain ⟨payload, hfield, hvalue⟩ := value?_required_eq_some.1 htype
  rw [value?_option hvalue] at hfield
  exact hfield

theorem value?_readAs (first second : String) (payload : Payload) :
    (ModelRecord.readAs first payload).value? = (ModelRecord.readAs second payload).value? := by
  cases payload <;> rfl

theorem value?_readDirectCap {payload : Payload} {record : ModelRecord}
    (h : (ModelRecord.read payload).value? = some record) :
    (ModelRecord.readDirectCap payload).value? = record.directCap.value? := by
  rw [ModelRecord.readDirectCap, value?_andThen, value?_readAs _ ModelRecord.recordTitle]
  exact congrArg (Option.bind · _) h

/-- What reads as a model of direct capitalization is returned when it is complete, and also when there is
no field `modelType`; nothing else about the payload matters. -/
theorem returns_parseModel_iff {payload : Payload} {record : ModelRecord}
    (h : (ModelRecord.read payload).value? = some record)
    (htype : record.modelType = .directCapitalization) (supply : IdSupply) :
    Returns (parseModel payload supply) ↔
      payload.field? "modelType" = none ∨
        record.hasCapRate = true ∧ record.hasPropertyValue = true := by
  have hfield := type_of_readAs h
  rw [htype] at hfield
  -- Accepted records can be converted, so only the choice of the schema matters.
  have hreturns : Returns (parseModel payload supply) ↔ Returns (modelRecord payload) := by
    unfold parseModel
    rw [ofExcept_bind, returns_bind_iff]
    exact exists_congr fun other =>
      and_iff_left_of_imp fun hother => completes_of_modelRecord hother supply
  rw [hreturns]
  unfold modelRecord
  split
  · next hnames =>
      have hchecked : Returns (ModelRecord.directCapSchema.parse payload) ↔
          ∃ checked, record.directCap.value? = some checked :=
        exists_congr fun checked => parsed_eq_ok.trans (by
          rw [← value?_readDirectCap h]
          rfl)
      rw [hchecked, namesDirectCap_iff.1 hnames]
      simp [ModelRecord.value?_directCap, htype]
  · next hnames =>
      refine iff_of_true ⟨record, parsed_eq_ok.2 h⟩ (.inl ?_)
      rcases Option.or_eq_some_iff.1 hfield with halias | hother
      · exact absurd (namesDirectCap_iff.2 halias) hnames
      · exact hother.1

/-- A model of direct capitalization that comes from outside is complete, unless its type stands in the
field `model_type` and there is no field `modelType`. -/
theorem parseModel_capitalizes {payload : Payload} {supply rest : IdSupply}
    {model : FinancialModel} (h : parseModel payload supply = .ok (model, rest))
    (htype : model.modelType = .directCapitalization) :
    model.Capitalizes ∨ payload.field? "modelType" = none ∧
      payload.field? "model_type" = some (.text "direct_capitalization") := by
  obtain ⟨record, between, hread, hmodel⟩ := Build.bind_eq_ok.1 h
  have hrecord := (ofExcept_eq_ok.1 hread).1
  rw [(ModelRecord.toModel_eq_ok hmodel).1] at htype
  unfold modelRecord at hrecord
  split at hrecord
  · -- The schema of direct capitalizations has checked the record.
    have hdirect : (ModelRecord.readDirectCap payload).value? = some record :=
      parsed_eq_ok.1 hrecord
    rw [ModelRecord.readDirectCap, value?_andThen, Option.bind_eq_some_iff] at hdirect
    obtain ⟨_, -, hchecked⟩ := hdirect
    obtain ⟨rfl, -, hparts⟩ := ModelRecord.value?_directCap.1 hchecked
    exact .inl ((ModelRecord.capitalizes_iff hmodel).2 hparts)
  · -- The general schema has read the type; under the first spelling the other one would apply.
    next hnames =>
      have hfield := type_of_readAs (parsed_eq_ok.1 hrecord)
      rw [htype] at hfield
      refine .inr ?_
      rcases Option.or_eq_some_iff.1 hfield with halias | hother
      · exact absurd (namesDirectCap_iff.2 halias) hnames
      · exact hother

/-- A source that a user entered under a key, as a payload. -/
def entered (key : String) : Payload :=
  .object
    [("sourceType", .text "user_input"), ("reference", .object [("key", .text key)]),
      ("displayPath", .text key), ("timestamp", .text "2024-01-01T00:00:00")]

/-- A model of direct capitalization as a payload, with the name of the field that holds its type. -/
def directCapPayload (typeField : String) (valuation : Payload) (calculations : List Payload) :
    Payload :=
  .object
    [("id", .text "m"), ("title", .text "t"), (typeField, .text "direct_capitalization"),
      ("briefReasoning", .object [("summary", .text "s"), ("overallConfidence", .int 1)]),
      ("customModel", .object
        [("userInput", .object
            [("revenueItems", .list []), ("expenseItems", .list []),
              ("valuationInputs", valuation)]),
          ("calculations", .object
            [("modelId", .text "m"), ("timestamp", .text "2024-01-01T00:00:00"),
              ("calculations", .list calculations), ("results", .object [])])]),
      ("metadata", .object
        [("modelVersion", .text "1"), ("createdAt", .text "2024-01-01T00:00:00")])]

/-- A complete model of direct capitalization as a payload. -/
def completePayload : Payload :=
  directCapPayload "modelType" (.object [("capRate", .object [("source", entered "capRate")])])
    [.object
      [("formula", .object
          [("displayFormula", .text "f"), ("expression", .text "e"), ("operands", .list [])]),
        ("isValid", .bool true), ("source", entered "propertyValue")]]

theorem parseModel_capitalizes_complete :
    ∃ model rest, parseModel completePayload .fresh = .ok (model, rest) ∧
      model.modelType = .directCapitalization ∧
      (model.Capitalizes ∨ completePayload.field? "modelType" = none ∧
        completePayload.field? "model_type" = some (.text "direct_capitalization")) := by
  have htype : ((parseModel completePayload .fresh).toOption.map fun answer =>
      answer.1.modelType) = some .directCapitalization := by decide +kernel
  obtain ⟨⟨model, rest⟩, hanswer, htype⟩ := Option.map_eq_some_iff.1 htype
  have hmodel := toOption_eq_some.1 hanswer
  exact ⟨model, rest, hmodel, htype, parseModel_capitalizes hmodel htype⟩

/-- Under the other spelling a model without any valuation inputs is returned. -/
theorem parseModel_respelled_incomplete :
    ∃ model rest, parseModel (directCapPayload "model_type" .null []) .fresh = .ok (model, rest) ∧
      model.modelType = .directCapitalization ∧ ¬ model.Capitalizes := by
  have hvaluation : ((parseModel (directCapPayload "model_type" .null []) .fresh).toOption.map
      fun answer => (answer.1.modelType, answer.1.userInput.valuationInputs.isNone)) =
        some (.directCapitalization, true) := by decide +kernel
  obtain ⟨⟨model, rest⟩, hanswer, hmodel⟩ := Option.map_eq_some_iff.1 hvaluation
  obtain ⟨htype, hnone⟩ := Prod.mk.inj hmodel
  refine ⟨model, rest, toOption_eq_some.1 hanswer, htype, fun hcapitalizes => ?_⟩
  obtain ⟨inputs, _, hinputs, -⟩ := hcapitalizes.capRate
  rw [hinputs] at hnone
  cases hnone

end Schema
end Appraisal
