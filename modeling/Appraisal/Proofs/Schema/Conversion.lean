import Appraisal.Proofs.Schema.Extensions

/-!
# From accepted records to values

A record that has been accepted can be converted, so the reading of a payload from outside ends in one of three ways.
-/

namespace Appraisal

/-!
## Accepted records can be converted

The values of this library have rules of their own: a source points at something, its index is not negative
and its confidence is a share; the amount of a line item is a number.  The schemas check all of them, so
whatever has been read as a record is the record of such a value.
-/

open Reading Build

/-! ### Single values -/

namespace Schema

/-- The number lies between zero and one. -/
def IsShare (x : Binary64) : Prop :=
  isAtMost x 1 = true ∧ isAtLeast x 0 = true

theorem ensures_isShare (payload : Payload) : Ensures IsShare (share payload) := by
  intro x h
  rw [share, value?_andThen] at h
  obtain ⟨_, -, hx⟩ := Option.bind_eq_some_iff.1 h
  rw [value?_andThen] at hx
  obtain ⟨_, hmost, hleast⟩ := Option.bind_eq_some_iff.1 hx
  obtain ⟨hone, rfl⟩ := orFault_eq_some hmost
  obtain ⟨hzero, rfl⟩ := orFault_eq_some hleast
  exact ⟨hone, hzero⟩

theorem isShare_real {x : Binary64} (h : IsShare x) : (Measure.real x).isShare = true := by
  obtain ⟨hmost, hleast⟩ := h
  simp only [isAtMost, isAtLeast, isAbove, Bool.or_eq_true, beq_iff_eq] at hmost hleast
  have hzero : (Measure.whole 0).le (.real x) = true := by
    rcases hleast with h | h <;> simp [Measure.le, Measure.compare?, h]
  have hone : (Measure.real x).le (.whole 1) = true := by
    simpa [Measure.le, Measure.compare?] using hmost
  rw [Measure.isShare, hzero, hone]
  rfl

theorem ensures_share (payload : Payload) :
    Ensures (fun confidence => (Measure.real confidence).isShare = true) (share payload) :=
  fun confidence h => isShare_real (ensures_isShare payload confidence h)

theorem ensures_decimal (payload : Payload) :
    Ensures (fun x => x.isFinite = true) (decimal payload) := by
  intro x h
  simp only [decimal, value?_andThen, value?_orFault, Option.bind_eq_some_iff,
    Option.ite_none_right_eq_some, Option.some.injEq] at h
  obtain ⟨_, -, hfinite, rfl⟩ := h
  exact hfinite

end Schema

/-! ### Sources -/

theorem SourceReference.returns_ofChecked {source : SourceReference} (h : source.Sound) :
    Returns (ofChecked source.check) := by
  exact ⟨source, ofChecked_eq_ok.2 ((check_eq_ok_iff source source).2 ⟨rfl, h⟩)⟩

theorem SourceRecord.returns_toSource {source : SourceRecord}
    (hreference : source.reference.toKey.isEmpty = false)
    (hconfidence : ∀ confidence, source.confidence = some confidence →
      (Measure.real confidence).isShare = true) : Returns source.toSource := by
  have hindex (index : Int) (h : source.reference.toKey.index = some index) : 0 ≤ index := by
    obtain ⟨n, -, rfl⟩ := Option.map_eq_some_iff.1 h
    exact Int.natCast_nonneg n
  have hshare (confidence : Measure) (h : source.confidence.map Measure.real = some confidence) :
      confidence.isShare = true := by
    obtain ⟨x, hx, rfl⟩ := Option.map_eq_some_iff.1 h
    exact hconfidence x hx
  exact SourceReference.returns_ofChecked ⟨hreference, hindex, hshare⟩

theorem SourceRecord.ensures_read (payload : Payload) :
    Ensures (fun source => Returns source.toSource) (read payload) := by
  intro source h
  obtain ⟨fields, -, h⟩ := value?_record h
  simp only [ofFields, pointing, value?_andThen, value?_seq, value?_map, value?_orFault,
    Option.bind_map, Option.bind_assoc, Option.bind_eq_some_iff, Function.comp_apply,
    Option.ite_none_right_eq_some, Option.some.injEq] at h
  obtain ⟨_, -, reference, -, _, -, confidence, hconfidence, _, -, _, -, _, -, _, -, hpointing,
    rfl⟩ := h
  exact returns_toSource (by simpa using hpointing)
    (ensures_optional Schema.ensures_share "confidence" _ confidence hconfidence)

/-! ### The user input -/

theorem NumberRecord.ensures_read (payload : Payload) :
    Ensures (fun number => Returns number.toValue) (read payload) := by
  intro number h
  obtain ⟨fields, -, h⟩ := value?_record h
  simp only [ofFields, value?_seq, value?_map, Option.bind_map,
    Option.bind_eq_some_iff, Option.map_eq_some_iff, Function.comp_apply] at h
  obtain ⟨_, -, source, hsource, rfl⟩ := h
  exact (ensures_required SourceRecord.ensures_read _ _ source hsource).bind fun _ => returns_pure _

theorem NumberRecord.returns_toValues {numbers : Dictionary NumberRecord}
    (h : ∀ entry ∈ numbers, Returns entry.2.toValue) : Returns (toValues numbers) := by
  refine mapM_returns_iff.2 fun entry hentry => ?_
  obtain ⟨value, hvalue⟩ := h entry hentry
  exact ⟨(entry.1, value), by rw [hvalue]; rfl⟩

/-- An item with a finite amount is built, whatever its other fields are. -/
theorem LineItem.completes_make {amount : Decimal} (h : amount.isFinite = true) (id label : String)
    (source : SourceReference) (category notes : Option String) (flaggedForReview : Bool) :
    (make id label (.decimal amount) source category notes flaggedForReview).Completes := by
  have hid : (idOr id).Completes := by
    unfold idOr
    split
    · exact Completes.bind (fun supply => ⟨supply.draw, rfl⟩) fun _ => completes_pure _
    · exact completes_pure id
  have hamount : amountOf label (.decimal amount) = .ok amount := by
    simp [amountOf, Payload.amount?, Payload.finiteOnly, h]
  unfold make
  rw [hamount]
  exact hid.bind fun _ =>
    (completes_ofExcept (returns_ok amount)).bind fun _ => completes_pure _

theorem LineItemRecord.ensures_read (payload : Payload) :
    Ensures (fun item => item.toItem.Completes) (read payload) := by
  intro item h
  obtain ⟨fields, -, h⟩ := value?_record h
  simp only [ofFields, value?_seq, value?_map, Option.bind_map,
    Option.bind_assoc, Option.bind_eq_some_iff, Option.map_eq_some_iff, Function.comp_apply] at h
  obtain ⟨id, -, label, -, amount, hamount, source, hsource, category, -, notes, -, flagged, -,
    rfl⟩ := h
  have hfinite := ensures_required Schema.ensures_decimal _ _ amount hamount
  have hreturns := ensures_required SourceRecord.ensures_read _ _ source hsource
  exact (completes_ofExcept hreturns).bind fun source =>
    LineItem.completes_make hfinite id label source category notes flagged

/-- What is read as valuation inputs converts. -/
theorem ValuationRecord.ensures_read (payload : Payload) :
    Ensures (fun inputs => Returns inputs.toInputs) (read payload) := by
  intro inputs h
  obtain ⟨fields, entries, -, h⟩ := Extensions.value?_record h
  simp only [readInput, value?_seq, value?_map, value?_within, Option.bind_map, Option.bind_assoc,
    Option.bind_eq_some_iff, Option.map_eq_some_iff, Function.comp_apply] at h
  obtain ⟨extensions, hextensions, capRate, hcap, askingPrice, hasking, vacancyRate, hvacancy,
    rfl⟩ := h
  have hoptional := ensures_optional NumberRecord.ensures_read
  have hfurther := Extensions.ensures_read NumberRecord.ensures_read entries extensions hextensions
  -- Field by field, in the order of the conversion.
  unfold toInputs
  exact (returns_optionMapM_iff.2 (hoptional _ _ _ hcap)).bind fun _ =>
    (returns_optionMapM_iff.2 (hoptional _ _ _ hasking)).bind fun _ =>
      (returns_optionMapM_iff.2 (hoptional _ _ _ hvacancy)).bind fun _ =>
        (NumberRecord.returns_toValues hfurther).bind fun _ => returns_pure _

theorem PropertyRecord.ensures_read (payload : Payload) :
    Ensures (fun info => Returns info.toInfo) (read payload) := by
  intro info h
  obtain ⟨fields, entries, -, h⟩ := Extensions.value?_record h
  simp only [ValuationRecord.readInput, value?_seq, value?_map, value?_within, Option.bind_map,
    Option.bind_assoc, Option.bind_eq_some_iff, Option.map_eq_some_iff, Function.comp_apply] at h
  obtain ⟨extensions, hextensions, squareFootage, hsquare, units, hunits, yearBuilt, hyear,
    lotSize, hlot, rfl⟩ := h
  have hoptional := ensures_optional NumberRecord.ensures_read
  have hfurther := Extensions.ensures_read NumberRecord.ensures_read entries extensions hextensions
  unfold toInfo
  exact (returns_optionMapM_iff.2 (hoptional _ _ _ hsquare)).bind fun _ =>
    (returns_optionMapM_iff.2 (hoptional _ _ _ hunits)).bind fun _ =>
      (returns_optionMapM_iff.2 (hoptional _ _ _ hyear)).bind fun _ =>
        (returns_optionMapM_iff.2 (hoptional _ _ _ hlot)).bind fun _ =>
          (NumberRecord.returns_toValues hfurther).bind fun _ => returns_pure _

/-- What is read as a user input converts, fresh identifiers included. -/
theorem UserInputRecord.ensures_read (payload : Payload) :
    Ensures (fun input => input.toInput.Completes) (read payload) := by
  intro input h
  simp only [read] at h
  obtain ⟨fields, -, h⟩ := value?_record h
  simp only [value?_seq, value?_map, Option.bind_map, Option.bind_assoc,
    Option.bind_eq_some_iff, Option.map_eq_some_iff, Function.comp_apply] at h
  obtain ⟨revenue, hrevenue, expense, hexpense, adjustment, hadjustment, property, hproperty,
    valuation, hvaluation, rfl⟩ := h
  have hitems := ensures_listOf LineItemRecord.ensures_read
  have hrevenue := ensures_required hitems _ _ revenue hrevenue
  have hexpense := ensures_required hitems _ _ expense hexpense
  have hadjustment := ensures_orUsual (by simp) hitems _ _ adjustment hadjustment
  have hproperty := ensures_optional PropertyRecord.ensures_read _ _ property hproperty
  have hvaluation := ensures_optional ValuationRecord.ensures_read _ _ valuation hvaluation
  exact (completes_mapM hrevenue).bind fun _ => (completes_mapM hexpense).bind fun _ =>
    (completes_mapM hadjustment).bind fun _ =>
      (completes_ofExcept (returns_optionMapM_iff.2 hproperty)).bind fun _ =>
        (completes_ofExcept (returns_optionMapM_iff.2 hvaluation)).bind fun _ =>
          completes_pure _

/-! ### Models -/

theorem ResultRecord.ensures_read (payload : Payload) :
    Ensures (fun result => Returns result.toResult) (read payload) := by
  intro result h
  obtain ⟨fields, -, h⟩ := value?_record h
  simp only [ofFields, value?_seq, value?_map, Option.bind_map, Option.bind_assoc,
    Option.bind_eq_some_iff, Option.map_eq_some_iff, Function.comp_apply] at h
  obtain ⟨_, -, _, -, _, -, _, -, _, -, _, -, source, hsource, _, -, _, -, _, -, _, -, rfl⟩ := h
  exact (ensures_required SourceRecord.ensures_read _ _ source hsource).bind fun _ =>
    returns_pure _

theorem TrailRecord.ensures_read (payload : Payload) :
    Ensures (fun trail => Returns trail.toTrail) (read payload) := by
  intro trail h
  obtain ⟨fields, -, h⟩ := value?_record h
  simp only [ofFields, value?_seq, value?_map, Option.bind_map, Option.bind_assoc,
    Option.bind_eq_some_iff, Option.map_eq_some_iff, Function.comp_apply] at h
  obtain ⟨_, -, _, -, calculations, hcalculations, _, -, _, -, _, -, rfl⟩ := h
  have hreturns := ensures_required (ensures_listOf ResultRecord.ensures_read) _ _ calculations
    hcalculations
  exact (mapM_returns_iff.2 hreturns).bind fun _ => returns_pure _

/-- What is read as a model converts, whatever the record is called. -/
theorem ModelRecord.ensures_readAs (recordName : String) (payload : Payload) :
    Ensures (fun model => model.toModel.Completes) (readAs recordName payload) := by
  intro model h
  -- Of the fields of a model, only the content has rules of its own.
  obtain ⟨fields, -, h⟩ := value?_record h
  simp only [ofFields, value?_seq, value?_map, Option.bind_map, Option.bind_assoc,
    Option.bind_eq_some_iff, Option.map_eq_some_iff, Function.comp_apply] at h
  obtain ⟨_, -, _, -, _, -, _, -, content, hcontent, _, -, rfl⟩ := h
  obtain ⟨payload, -, h⟩ := value?_required_eq_some.1 hcontent
  obtain ⟨fields, -, h⟩ := value?_record h
  simp only [value?_seq, value?_map, Option.bind_map, Option.bind_assoc, Option.bind_eq_some_iff,
    Option.map_eq_some_iff, Function.comp_apply] at h
  obtain ⟨input, hinput, calculations, hcalculations, _, -, rfl⟩ := h
  have hcompletes := ensures_required UserInputRecord.ensures_read _ _ input hinput
  have hreturns := ensures_required TrailRecord.ensures_read _ _ calculations hcalculations
  exact hcompletes.bind fun _ => (completes_ofExcept hreturns).bind fun _ => completes_pure _

/-- The further check of direct capitalization passes a record or refuses it, and changes nothing. -/
theorem ModelRecord.value?_directCap {model checked : ModelRecord} :
    model.directCap.value? = some checked ↔
      checked = model ∧ model.modelType = .directCapitalization ∧ model.hasCapRate = true ∧
        model.hasPropertyValue = true := by
  unfold directCap
  -- The checks run in this order, and each one is made only when those before it have passed.
  split
  · next htype => simp [htype]
  · next htype =>
      split
      · next hrate => simp_all
      · next hrate =>
          have hrate : model.hasCapRate = true := by simpa using hrate
          rw [value?_orFault, Option.ite_none_right_eq_some, Option.some.injEq]
          constructor
          · rintro ⟨hvalue, rfl⟩
            exact ⟨rfl, Decidable.of_not_not htype, hrate, hvalue⟩
          · rintro ⟨rfl, -, -, hvalue⟩
            exact ⟨hvalue, rfl⟩

theorem ModelRecord.ensures_readDirectCap (payload : Payload) :
    Ensures (fun model => model.toModel.Completes) (readDirectCap payload) := by
  intro model h
  rw [readDirectCap, value?_andThen, Option.bind_eq_some_iff] at h
  obtain ⟨read, hread, hmodel⟩ := h
  obtain ⟨rfl, -⟩ := value?_directCap.1 hmodel
  exact ensures_readAs directCapTitle payload model hread

/-!
## How the reading of a payload from outside ends

A payload from outside is read against a schema and then converted.  Whatever has been accepted can be
converted, so there are three ends: a result, the error of a payload that does not fit, and the failure of
taking further inputs apart.  The last one is no error of this library.
-/

namespace Schema

open Reading

/-- The answer is a result, or the error of a payload that does not fit the schema of that title. -/
def Settled {α : Type} (title : String) (answer : Except Failure α) : Prop :=
  Returns answer ∨ ∃ issues, answer = .error (.invalidPayload title issues)

/-- The answer is the failure of an operation that the value does not support. -/
def Escapes {α : Type} (answer : Except Failure α) : Prop :=
  ∃ message, answer = .error (.wrongKind message)

theorem Settled.not_escapes {α : Type} {title : String} {answer : Except Failure α}
    (h : Settled title answer) : ¬ Escapes answer := by
  rintro ⟨message, rfl⟩
  rcases h with ⟨result, hresult⟩ | ⟨issues, hissues⟩
  · cases hresult
  · cases hissues

/-- The schema against which a payload is read as a model. -/
def modelSchema (payload : Payload) : Schema ModelRecord :=
  if namesDirectCap payload then ModelRecord.directCapSchema else ModelRecord.schema

theorem modelRecord_eq_parse (payload : Payload) :
    modelRecord payload = (modelSchema payload).parse payload := by
  unfold modelRecord modelSchema
  split <;> rfl

theorem breakdown?_modelSchema (payload : Payload) :
    ((modelSchema payload).read payload).breakdown? = ModelRecord.failure? payload := by
  unfold modelSchema
  split
  · exact ModelRecord.breakdown?_readDirectCap payload
  · exact ModelRecord.breakdown?_readAs _ payload

theorem ensures_modelSchema (payload : Payload) :
    Ensures (fun model => model.toModel.Completes) ((modelSchema payload).read payload) := by
  unfold modelSchema
  split
  · exact ModelRecord.ensures_readDirectCap payload
  · exact ModelRecord.ensures_readAs _ payload

/-- A record that has been read, against whichever schema, converts to a model. -/
theorem completes_of_modelRecord {payload : Payload} {record : ModelRecord}
    (h : modelRecord payload = .ok record) : record.toModel.Completes := by
  rw [modelRecord_eq_parse] at h
  exact ensures_modelSchema payload record (parsed_eq_ok.1 h)

section

variable {ρ α : Type} {schema : Schema ρ} {convert : ρ → Build α} {payload : Payload}

theorem settled_of_breakdown?_eq_none
    (hconvert : Ensures (fun record => (convert record).Completes) (schema.read payload))
    (h : (schema.read payload).breakdown? = none) (supply : IdSupply) :
    Settled schema.title ((Build.ofExcept (schema.parse payload) >>= convert) supply) := by
  rw [Build.ofExcept_bind, parse]
  cases hread : schema.read payload with
  | accepted record => exact .inl (hconvert record (by rw [hread]; rfl) supply)
  | refused issues => exact .inr ⟨issues, rfl⟩
  | abandoned failure =>
      rw [hread] at h
      cases h

theorem eq_error_of_breakdown? {failure : Failure}
    (h : (schema.read payload).breakdown? = some failure) (supply : IdSupply) :
    (Build.ofExcept (schema.parse payload) >>= convert) supply = .error failure := by
  rw [Build.ofExcept_bind, parse]
  cases hread : schema.read payload with
  | abandoned other =>
      rw [hread] at h
      obtain rfl := Option.some.inj h
      rfl
  | _ =>
      rw [hread] at h
      cases h

/-- Reading and conversion are settled together when the reading is not abandoned. -/
theorem settled_iff {obstructed : Prop}
    (hconvert : Ensures (fun record => (convert record).Completes) (schema.read payload))
    (hnone : (schema.read payload).breakdown? = none ↔ ¬ obstructed)
    (hkind : ∀ failure, (schema.read payload).breakdown? = some failure →
      ∃ message, failure = .wrongKind message) (supply : IdSupply) :
    let answer := (Build.ofExcept (schema.parse payload) >>= convert) supply
    (Settled schema.title answer ↔ ¬ obstructed) ∧ (Escapes answer ↔ obstructed) := by
  intro answer
  -- The two ends exclude each other, so each side of both equivalences decides the other.
  by_cases hobstructed : obstructed
  · obtain ⟨failure, hfailure⟩ := Option.ne_none_iff_exists'.1 fun h => hnone.1 h hobstructed
    obtain ⟨message, rfl⟩ := hkind failure hfailure
    have hescapes : Escapes answer := ⟨message, eq_error_of_breakdown? hfailure supply⟩
    exact ⟨iff_of_false (fun h => h.not_escapes hescapes) (not_not_intro hobstructed),
      iff_of_true hescapes hobstructed⟩
  · have hsettled := settled_of_breakdown?_eq_none hconvert (hnone.2 hobstructed) supply
    exact ⟨iff_of_true hsettled hobstructed, iff_of_false hsettled.not_escapes hobstructed⟩

end

/-- A payload from outside is turned into a user input or a model, or it is refused with the error of its
schema, exactly when its further inputs can be taken apart; otherwise a failure of another kind escapes.
Whatever the schemas accept satisfies the rules of the values that are made of it. -/
theorem parse_settled_iff (payload : Payload) (supply : IdSupply) :
    ((Settled UserInputRecord.title (parseUserInput payload supply) ↔
        ¬ UserInputRecord.HoldsIndivisible payload) ∧
      (Escapes (parseUserInput payload supply) ↔ UserInputRecord.HoldsIndivisible payload)) ∧
    (Settled (modelSchema payload).title (parseModel payload supply) ↔
        ¬ ModelRecord.HoldsIndivisible payload) ∧
      (Escapes (parseModel payload supply) ↔ ModelRecord.HoldsIndivisible payload) := by
  constructor
  · refine settled_iff (UserInputRecord.ensures_read payload) ?_ ?_ supply
    · exact (UserInputRecord.breakdown?_read payload).symm ▸ UserInputRecord.failure?_eq_none_iff
    · intro failure h
      exact UserInputRecord.wrongKind_of_failure? (UserInputRecord.breakdown?_read payload ▸ h)
  · unfold parseModel
    rw [modelRecord_eq_parse]
    refine settled_iff (ensures_modelSchema payload) ?_ ?_ supply
    · rw [breakdown?_modelSchema, ModelRecord.failure?_eq_none_iff]
    · intro failure h
      rw [breakdown?_modelSchema] at h
      exact ModelRecord.wrongKind_of_failure? h

/-- With a number in place of the further inputs of the valuation the reading is not settled. -/
theorem parseUserInput_number_for_extensions :
    parseUserInput (.object [("revenueItems", .list []), ("expenseItems", .list []),
        ("valuationInputs", .object [("extensions", .int 5)])]) .fresh =
      .error (.wrongKind "'int' object is not iterable") ∧
    ¬ Settled UserInputRecord.title
      (parseUserInput (.object [("revenueItems", .list []), ("expenseItems", .list []),
        ("valuationInputs", .object [("extensions", .int 5)])]) .fresh) := by
  have hfailure : parseUserInput (.object [("revenueItems", .list []), ("expenseItems", .list []),
      ("valuationInputs", .object [("extensions", .int 5)])]) .fresh =
        .error (.wrongKind "'int' object is not iterable") := rfl
  exact ⟨hfailure, fun hsettled => hsettled.not_escapes ⟨_, hfailure⟩⟩

end Schema

end Appraisal
