import Appraisal.Proofs.Evaluation.RoundTrip
import Appraisal.Schema.FieldMetadata

/-!
# Metadata of fields survives being written and read, but for a number that was overridden

What has been read as the metadata of a field is recorded again without the bounds that bound nothing, and
the record is written as a document and read back.  The value that stood in a field before it was
overridden is a number or a text, and a document has texts for both; so a number comes back as its text,
and everything else as it was.
-/

namespace Appraisal

open Reading Schema

/-! ## Bounds -/

namespace BoundsRecord

/-- The bounds can be written as texts. -/
structure Sound (bounds : BoundsRecord) : Prop where
  min : ∀ x, bounds.min = some x → Exact x
  max : ∀ x, bounds.max = some x → Exact x

theorem ensures_sound {payload : Payload} (hpayload : payload.WellFormed) :
    Ensures Sound (read payload) := by
  intro bounds h
  obtain ⟨fields, rfl, hfields⟩ := value?_record h
  simp only [ofFields, value?_seq, value?_map, Option.bind_map, Option.bind_assoc,
    Option.bind_eq_some_iff, Option.map_eq_some_iff, Function.comp_apply] at hfields
  obtain ⟨min, hmin, max, hmax, _, -, rfl⟩ := hfields
  exact
    { min := ensures_optional_of (fun _ hfield => ensures_exact (hpayload.field hfield)) _ min hmin
      max := ensures_optional_of (fun _ hfield => ensures_exact (hpayload.field hfield)) _ max hmax }

variable {bounds : BoundsRecord}

theorem restores (h : bounds.Sound) : schema.Restores bounds where
  isDocument := by
    refine .object (by simp) ?_
    simp only [List.forall_mem_cons]
    exact ⟨Payload.isDocument_ofText? _, Payload.isDocument_ofText? _, .bool _, List.forall_mem_nil _⟩
  read_toPayload := by
    show ofFields (some (.ofText? (bounds.min.map Decimal.toText)))
      (some (.ofText? (bounds.max.map Decimal.toText))) (some (.bool bounds.required)) = _
    rw [ofFields, optional_decimalText h.min, optional_decimalText h.max]
    rfl

theorem toPayload_ne_null (bounds : BoundsRecord) : bounds.toPayload ≠ .null :=
  Payload.noConfusion

/-- Bounds that say nothing are not told from none. -/
theorem eq_unbounded_iff :
    bounds = unbounded ↔ bounds.min = none ∧ bounds.max = none ∧ bounds.required = false := by
  cases bounds
  simp [unbounded]

/-- Bounds are recorded unless they bound nothing. -/
theorem ofMetadata_eq_ok (h : bounds.Sound) {metadata : TypeMetadata}
    (hmin : metadata.minValue = bounds.min) (hmax : metadata.maxValue = bounds.max)
    (hrequired : metadata.required = bounds.required) :
    ofMetadata metadata = .ok (if bounds = unbounded then none else some bounds) := by
  unfold ofMetadata
  rw [hmin, hmax, hrequired]
  by_cases hnone : bounds = unbounded
  · obtain ⟨hnoMin, hnoMax, hfree⟩ := eq_unbounded_iff.1 hnone
    rw [hnoMin, hnoMax, hfree, if_pos hnone]
    rfl
  · have hsome : (bounds.min.isSome || bounds.max.isSome || bounds.required) = true := by
      rw [eq_unbounded_iff] at hnone
      cases hmin : bounds.min <;> cases hmax : bounds.max <;> cases hfree : bounds.required <;>
        simp_all
    rw [if_pos hsome, if_neg hnone, ofFields, optional_decimal fun x hx => (h.min x hx).1,
      optional_decimal fun x hx => (h.max x hx).1]
    rfl

end BoundsRecord

/-! ## Prior values -/

namespace PriorValue

/-- The value as a text. -/
def asText : PriorValue → PriorValue
  | number value => text value.toText
  | text value => text value

/-- Only a number becomes something else when it is written as a text. -/
theorem asText_eq_self_iff {prior : PriorValue} : prior.asText = prior ↔ ∀ x, prior ≠ number x := by
  cases prior <;> simp [asText]

theorem read_toPayload {prior : PriorValue} (h : ∀ x, prior = number x → Exact x) :
    read prior.toPayload = accepted prior := by
  cases prior with
  | text value => rfl
  | number value =>
      have hdecimal : Schema.decimal (.decimal value) = accepted value :=
        read_decimal (h value rfl).1
      simp only [toPayload, read, hdecimal]

theorem toPayload_ne_null (prior : PriorValue) : prior.toPayload ≠ .null := by
  cases prior <;> exact Payload.noConfusion

theorem optional_written (found : Option PriorValue) (name : String) :
    optional name read (some (.orNull written found)) = accepted (found.map asText) := by
  cases found with
  | none => rfl
  | some prior => cases prior <;> rfl

/-- A number that is read can be written as a text. -/
theorem ensures_read {payload : Payload} (hpayload : payload.WellFormed) :
    Ensures (fun prior => ∀ x, prior = number x → Exact x) (read payload) := by
  have hexact := ensures_exact hpayload
  intro prior h x hnumber
  subst hnumber
  unfold read at h
  -- A text is kept as it is; a number is kept only where a decimal has been read.
  split at h
  · cases h
  · split at h
    · next value hdecimal =>
        obtain rfl : value = x := by simpa using h
        exact hexact value (by rw [hdecimal]; rfl)
    · next reading _ hreading =>
        simp only [value?_seq, value?_map, value?_within, Option.bind_eq_some_iff,
          Option.map_eq_some_iff] at h
        obtain ⟨_, ⟨value, hvalue, rfl⟩, _, -, hnumber⟩ := h
        obtain rfl : value = x := by simpa using hnumber
        exact hexact value hvalue

end PriorValue

/-- The metadata with a text in the place of a number that was overridden. -/
def TypeMetadata.reread (metadata : TypeMetadata) : TypeMetadata :=
  { metadata with priorValue := metadata.priorValue.map PriorValue.asText }

/-- The rectangle of the place in a document, if there is one, is finite. -/
def TypeMetadata.HasFiniteBox (metadata : TypeMetadata) : Prop :=
  ∀ location, metadata.sourceLocation = some location →
    ∀ box, location.boundingBox = some box → box.IsFinite

instance : DecidablePred TypeMetadata.HasFiniteBox := fun metadata =>
  inferInstanceAs (Decidable (∀ location ∈ metadata.sourceLocation,
    ∀ box ∈ location.boundingBox, box.IsFinite))

namespace TypeRecord

/-- The record obeys the rules of its schema. -/
structure Sound (metadata : TypeRecord) : Prop where
  footnotes : ∀ footnote ∈ metadata.footnotes, footnote.Recordable
  sourceLocation : ∀ location, metadata.sourceLocation = some location → location.Sound
  priorValue : ∀ prior, metadata.priorValue = some prior → ∀ x, prior = .number x → Exact x
  constraints : ∀ bounds, metadata.constraints = some bounds → bounds.Sound

/-- Whatever is read satisfies the checks of all its parts. -/
theorem ensures_sound {payload : Payload} (hpayload : payload.WellFormed) :
    Ensures Sound (read payload) := by
  intro metadata h
  obtain ⟨fields, rfl, hfields⟩ := value?_record h
  simp only [ofFields, value?_seq, value?_map, Option.bind_map, Option.bind_assoc,
    Option.bind_eq_some_iff, Option.map_eq_some_iff, Function.comp_apply] at hfields
  obtain ⟨_, -, _, -, _, -, _, -, _, -, footnotes, hfootnotes, location, hlocation, _, -, prior,
    hprior, bounds, hbounds, rfl⟩ := hfields
  exact
    { footnotes := ensures_orUsual (List.forall_mem_nil _)
        (fun payload => ensures_listOf Footnote.ensures_recordable payload) _ _ footnotes hfootnotes
      sourceLocation := ensures_optional LocationRecord.ensures_sound _ _ location hlocation
      priorValue := ensures_optional_of
        (fun _ hfield => PriorValue.ensures_read (hpayload.field hfield)) _ prior hprior
      constraints := ensures_optional_of
        (fun _ hfield => BoundsRecord.ensures_sound (hpayload.field hfield)) _ bounds hbounds }

theorem Sound.bounds {metadata : TypeRecord} (h : metadata.Sound) :
    (metadata.constraints.getD .unbounded).Sound := by
  cases hbounds : metadata.constraints with
  | none => exact ⟨nofun, nofun⟩
  | some bounds => exact h.constraints bounds hbounds

/-- The record without bounds that bound nothing. -/
def compact (metadata : TypeRecord) : TypeRecord :=
  { metadata with constraints := metadata.constraints.filter (· ≠ .unbounded) }

/-- The record with a text in the place of a number that was overridden. -/
def reread (metadata : TypeRecord) : TypeRecord :=
  { metadata with priorValue := metadata.priorValue.map PriorValue.asText }

variable {metadata : TypeRecord}

/-- Leaving out bounds that say nothing breaks no check. -/
theorem compact_sound (h : metadata.Sound) : metadata.compact.Sound where
  footnotes := h.footnotes
  sourceLocation := h.sourceLocation
  priorValue := h.priorValue
  constraints bounds hbounds := h.constraints bounds (Option.filter_eq_some_iff.1 hbounds).1

/-- The record with such bounds left out has the same metadata. -/
theorem toMetadata_compact (metadata : TypeRecord) :
    metadata.compact.toMetadata = metadata.toMetadata := by
  have hbounds : (metadata.constraints.filter (· ≠ .unbounded)).getD .unbounded =
      metadata.constraints.getD .unbounded := by
    cases metadata.constraints with
    | none => rfl
    | some bounds =>
        by_cases hnone : bounds = .unbounded <;> simp [Option.filter, hnone]
  simp only [compact, toMetadata, hbounds]

/-- To read a record again changes its metadata in the prior value only. -/
theorem toMetadata_reread (metadata : TypeRecord) :
    metadata.reread.toMetadata = metadata.toMetadata.reread :=
  rfl

theorem ofFields_accepted (metadata : TypeRecord) {prior : Payload}
    (hprior : optional "originalValue" PriorValue.read (some prior) = accepted metadata.priorValue) :
    ofFields (some (Named.toPayload metadata.type)) (some (.ofText? metadata.currency))
      (some (.ofNat? metadata.precision)) (some (.ofText? metadata.unit))
      (some (.ofText? metadata.displayFormat)) (accepted metadata.footnotes)
      (accepted metadata.sourceLocation) (some (.bool metadata.isOverridden)) (some prior)
      (accepted metadata.constraints) = accepted metadata := by
  rw [ofFields, required_accepted (read_option _), optional_text, optional_natural,
    optional_text, optional_text, hprior]
  rfl

/-- The metadata is recorded as it was read, without bounds that bound nothing. -/
theorem ofMetadata_toMetadata (h : metadata.Sound) :
    ofMetadata metadata.toMetadata = .ok metadata.compact := by
  have hlocation := LocationRecord.mapM_ofLocation h.sourceLocation
  have hbounds : BoundsRecord.ofMetadata metadata.toMetadata = .ok metadata.compact.constraints := by
    rw [BoundsRecord.ofMetadata_eq_ok h.bounds rfl rfl rfl]
    -- Bounds are kept unless they say nothing.
    cases hbounds : metadata.constraints with
    | none => simp [compact, hbounds]
    | some bounds => by_cases hnone : bounds = .unbounded <;>
        simp [compact, hbounds, hnone, Option.filter]
  have hprior : optional "originalValue" PriorValue.read
      (some (.orNull PriorValue.toPayload metadata.priorValue)) = accepted metadata.priorValue :=
    optional_accepted _ (fun prior hsome => PriorValue.read_toPayload (h.priorValue prior hsome))
      PriorValue.toPayload_ne_null _
  refine bind_eq_ok.2 ⟨metadata.footnotes, Footnote.mapM_recorded h.footnotes,
    bind_eq_ok.2 ⟨metadata.sourceLocation, hlocation,
      bind_eq_ok.2 ⟨metadata.compact.constraints, hbounds, ?_⟩⟩⟩
  exact congrArg (Reading.built title) (ofFields_accepted metadata.compact hprior)

/-- The record is written as a document, which is read back with a text in the place of a number. -/
theorem read_toPayload (h : metadata.Sound) (hfinite : metadata.toMetadata.HasFiniteBox) :
    metadata.toPayload.IsDocument ∧ read metadata.toPayload = accepted metadata.reread := by
  have hlocation := LocationRecord.restores_of_found h.sourceLocation hfinite
  have hfootnotes (footnote : Footnote) (hfootnote : footnote ∈ metadata.footnotes) :=
    Footnote.restores (h.footnotes footnote hfootnote)
  have hbounds (bounds : BoundsRecord) (hbounds : metadata.constraints = some bounds) :=
    BoundsRecord.restores (h.constraints bounds hbounds)
  constructor
  -- What is written is a document, part by part.
  · have hprior : (Payload.orNull PriorValue.written metadata.priorValue).IsDocument :=
      Payload.isDocument_orNull fun prior _ => by cases prior <;> exact .text _
    refine .object (by simp) ?_
    simp only [List.forall_mem_cons]
    exact ⟨.text _, Payload.isDocument_ofText? _, Payload.isDocument_ofNat? _,
      Payload.isDocument_ofText? _, Payload.isDocument_ofText? _, isDocument_list hfootnotes,
      isDocument_option hlocation, .bool _, hprior, isDocument_option hbounds,
      List.forall_mem_nil _⟩
  -- The parts are read back, the prior value as a text.
  · have hnotes : orUsual "footnotes" (listOf Footnote.read) []
        (some (.list (metadata.footnotes.map Footnote.toPayload))) = accepted metadata.footnotes :=
      orUsual_accepted (listOf_toPayload hfootnotes) _ _
    have hplace : optional "sourceLocation" LocationRecord.read
        (some (.orNull LocationRecord.toPayload metadata.sourceLocation)) =
        accepted metadata.sourceLocation :=
      Schema.optional_toPayload hlocation LocationRecord.toPayload_ne_null _
    have hlimits : optional "constraints" BoundsRecord.read
        (some (.orNull BoundsRecord.toPayload metadata.constraints)) =
        accepted metadata.constraints :=
      Schema.optional_toPayload hbounds BoundsRecord.toPayload_ne_null _
    have hprior : optional "originalValue" PriorValue.read
        (some (.orNull PriorValue.written metadata.priorValue)) =
        accepted metadata.reread.priorValue := PriorValue.optional_written _ _
    show ofFields (some (Named.toPayload metadata.type)) (some (.ofText? metadata.currency))
      (some (.ofNat? metadata.precision)) (some (.ofText? metadata.unit))
      (some (.ofText? metadata.displayFormat))
      (orUsual "footnotes" (listOf Footnote.read) []
        (some (.list (metadata.footnotes.map Footnote.toPayload))))
      (optional "sourceLocation" LocationRecord.read
        (some (.orNull LocationRecord.toPayload metadata.sourceLocation)))
      (some (.bool metadata.isOverridden))
      (some (.orNull PriorValue.written metadata.priorValue))
      (optional "constraints" BoundsRecord.read
        (some (.orNull BoundsRecord.toPayload metadata.constraints))) = _
    rw [hnotes, hplace, hlimits]
    exact ofFields_accepted metadata.reread hprior

end TypeRecord

/-- The metadata come back as they were exactly when the prior value is no number. -/
theorem TypeMetadata.reread_eq_self_iff {metadata : TypeMetadata} :
    metadata.reread = metadata ↔ ∀ x, metadata.priorValue ≠ some (.number x) := by
  have hprior : metadata.reread = metadata ↔
      metadata.priorValue.map PriorValue.asText = metadata.priorValue := by
    constructor
    · exact congrArg TypeMetadata.priorValue
    · intro h
      unfold reread
      rw [h]
  rw [hprior]
  cases metadata.priorValue with
  | none => simp
  | some prior => simp [PriorValue.asText_eq_self_iff]

/-- Metadata of a field that was read from a payload is recorded, the record is written as a document, and
reading the document gives the metadata again, but for a number that was overridden: it comes back as its
text. -/
theorem typeMetadata_roundTrip {payload : Payload} (hpayload : payload.WellFormed)
    {record : TypeRecord} (hrecord : TypeRecord.schema.parse payload = .ok record)
    (hfinite : record.toMetadata.HasFiniteBox) :
    ∃ again, TypeRecord.ofMetadata record.toMetadata = .ok again ∧ again.toPayload.IsDocument ∧
      ∃ back, TypeRecord.schema.parse again.toPayload = .ok back ∧
        back.toMetadata = record.toMetadata.reread ∧
        (back.toMetadata = record.toMetadata ↔
          ∀ x, record.toMetadata.priorValue ≠ some (.number x)) := by
  have hsound : record.Sound := TypeRecord.ensures_sound hpayload record (parsed_eq_ok.1 hrecord)
  have hcompact := record.toMetadata_compact
  obtain ⟨hdocument, hread⟩ :=
    TypeRecord.read_toPayload (TypeRecord.compact_sound hsound) (by rwa [hcompact])
  have hback : record.compact.reread.toMetadata = record.toMetadata.reread := by
    rw [TypeRecord.toMetadata_reread, hcompact]
  refine ⟨record.compact, TypeRecord.ofMetadata_toMetadata hsound, hdocument, record.compact.reread,
    congrArg (Reading.parsed TypeRecord.title) hread, hback, ?_⟩
  rw [hback, TypeMetadata.reread_eq_self_iff]

/-- Metadata with every field: a text that reads like a number, bounds, a footnote and a place. -/
def overriddenPayload : Payload :=
  .object
    [("type", .text "currency"), ("currency", .text "USD"), ("precision", .int 2),
      ("footnotes", .list [.object
        [("id", .text "f1"), ("symbol", .text "*"), ("text", .text "Estimate"),
          ("category", .text "assumption")]]),
      ("sourceLocation", .object
        [("fileName", .text "roll.pdf"), ("fileType", .text "pdf"),
          ("boundingBox", .object
            [("x", .int 1), ("y", .int 2), ("width", .int 30), ("height", .text "4.5")])]),
      ("isOverridden", .bool true), ("originalValue", .text "1200.50"),
      ("constraints", .object [("min", .text "0.10"), ("required", .bool true)])]

/-- The example sets every kind of field, with the bounds given in part. -/
theorem wellFormed_overriddenPayload : overriddenPayload.WellFormed := by
  have hfootnote : (Payload.object [("id", .text "f1"), ("symbol", .text "*"),
      ("text", .text "Estimate"), ("category", .text "assumption")]).WellFormed :=
    .object (by simp) (by simpa using ⟨.text _, .text _, .text _, .text _⟩)
  have hbox : (Payload.object
      [("x", .int 1), ("y", .int 2), ("width", .int 30), ("height", .text "4.5")]).WellFormed :=
    .object (by simp) (by simpa using
      ⟨.int (by decide +kernel), .int (by decide +kernel), .int (by decide +kernel), .text _⟩)
  have hlocation : (Payload.object
      [("fileName", .text "roll.pdf"), ("fileType", .text "pdf"), ("boundingBox", _)]).WellFormed :=
    .object (by simp) (by simpa using ⟨.text _, .text _, hbox⟩)
  have hbounds : (Payload.object
      [("min", .text "0.10"), ("required", .bool true)]).WellFormed :=
    .object (by simp) (by simpa using ⟨.text _, .bool _⟩)
  exact .object (by simp) (by simpa using ⟨.text _, .text _, .int (by decide +kernel),
    .list (by simpa using hfootnote), hlocation, .bool _, .text _, hbounds⟩)

theorem typeMetadata_roundTrip_overridden :
    ∃ record, overriddenPayload.WellFormed ∧
      TypeRecord.schema.parse overriddenPayload = .ok record ∧ record.toMetadata.HasFiniteBox ∧
      ∃ again, TypeRecord.ofMetadata record.toMetadata = .ok again ∧ again.toPayload.IsDocument ∧
        ∃ back, TypeRecord.schema.parse again.toPayload = .ok back ∧
          back.toMetadata = record.toMetadata.reread ∧
          (back.toMetadata = record.toMetadata ↔
            ∀ x, record.toMetadata.priorValue ≠ some (.number x)) := by
  have hanswer : (TypeRecord.schema.parse overriddenPayload).toOption.any
      (fun record => decide record.toMetadata.HasFiniteBox) = true := by decide +kernel
  obtain ⟨record, hsome, hfinite⟩ := (Option.any_eq_true _ _).1 hanswer
  have hrecord := toOption_eq_some.1 hsome
  have hbox := of_decide_eq_true hfinite
  exact ⟨record, wellFormed_overriddenPayload, hrecord, hbox,
    typeMetadata_roundTrip wellFormed_overriddenPayload hrecord hbox⟩

/-- A number that was overridden is lost: the metadata comes back with its text. -/
theorem typeMetadata_number_lost :
    ∃ record again back,
      TypeRecord.schema.parse (.object [("type", .text "number"), ("originalValue", .int 1200)]) =
        .ok record ∧
      record.toMetadata.sourceLocation = none ∧
      record.toMetadata.priorValue = some (.number (.ofInt 1200)) ∧
      TypeRecord.ofMetadata record.toMetadata = .ok again ∧
      TypeRecord.schema.parse again.toPayload = .ok back ∧
      back.toMetadata.priorValue = some (.text "1200") ∧
      back.toMetadata ≠ record.toMetadata := by
  let record : TypeRecord :=
    { type := .number
      currency := none
      precision := none
      unit := none
      displayFormat := none
      footnotes := []
      sourceLocation := none
      isOverridden := false
      priorValue := some (.number (.ofInt 1200))
      constraints := none }
  have hback : (TypeRecord.schema.parse record.toPayload).toOption =
      some { record with priorValue := some (.text "1200") } := by decide +kernel
  refine ⟨record, record, _, rfl, rfl, rfl, rfl, toOption_eq_some.1 hback, rfl, fun hsame => ?_⟩
  have hprior := congrArg TypeMetadata.priorValue hsame
  simp [record, TypeRecord.toMetadata] at hprior

end Appraisal
