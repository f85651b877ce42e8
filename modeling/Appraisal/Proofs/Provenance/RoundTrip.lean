import Appraisal.Proofs.Schema.Exchange

/-!
# Sources survive being written and read

What has been read as the record of a source satisfies the rules of its schema, and a record that satisfies
them is restored from its document: the type by its name, the moment from its text, the confidence and the
coordinates as floating-point numbers.  The only thing that a document cannot hold is a coordinate that is
not finite.
-/

namespace Appraisal

open Reading Schema

/-! ## Rectangles -/

/-- The coordinates and sizes of the rectangle are finite. -/
def BoundingBox.IsFinite (box : BoundingBox) : Prop :=
  ∀ measure ∈ [box.x, box.y, box.width, box.height], measure.toBinary64.isFinite = true

instance : DecidablePred BoundingBox.IsFinite := fun box =>
  inferInstanceAs (Decidable (∀ measure ∈ [box.x, box.y, box.width, box.height], _))

namespace BoundingBoxRecord

/-- The rectangle is not empty. -/
structure Sound (box : BoundingBoxRecord) : Prop where
  width : isAbove box.width 0 = true
  height : isAbove box.height 0 = true

theorem ensures_sound (payload : Payload) : Ensures Sound (read payload) := by
  intro box h
  obtain ⟨fields, -, h⟩ := value?_record h
  simp only [ofFields, value?_seq, value?_map, Option.bind_map, Option.bind_assoc,
    Option.bind_eq_some_iff, Option.map_eq_some_iff, Function.comp_apply] at h
  obtain ⟨x, -, y, -, width, hwidth, height, hheight, rfl⟩ := h
  exact
    { width := ensures_required ensures_positiveReal _ _ width hwidth
      height := ensures_required ensures_positiveReal _ _ height hheight }

variable {box : BoundingBoxRecord}

theorem ofFields_accepted (h : box.Sound) :
    ofFields (some (.float box.x)) (some (.float box.y)) (some (.float box.width))
      (some (.float box.height)) = accepted box := by
  unfold ofFields
  rw [required_accepted (read_positiveReal h.width), required_accepted (read_positiveReal h.height)]
  rfl

/-- A rectangle comes back from its document when its numbers are finite. -/
theorem restores (h : box.Sound) (hfinite : box.toBox.IsFinite) : schema.Restores box where
  isDocument := by
    have hparts := hfinite
    simp only [BoundingBox.IsFinite, toBox, List.forall_mem_cons, Measure.toBinary64] at hparts
    obtain ⟨hx, hy, hwidth, hheight, -⟩ := hparts
    refine .object (by simp) ?_
    simp only [List.forall_mem_cons]
    exact ⟨.float hx, .float hy, .float hwidth, .float hheight, fun _ h => by cases h⟩
  read_toPayload := ofFields_accepted h

theorem ofBox_toBox (h : box.Sound) : ofBox box.toBox = .ok box := by
  show Reading.built title (ofFields (some (.float box.x)) (some (.float box.y))
    (some (.float box.width)) (some (.float box.height))) = _
  rw [ofFields_accepted h]
  rfl

end BoundingBoxRecord

/-! ## Places in documents -/

namespace LocationRecord

/-- Pages and lines are counted from one, and the rectangle is not empty. -/
structure Sound (location : LocationRecord) : Prop where
  page : ∀ page, location.page = some page → 0 < page
  line : ∀ line, location.line = some line → 0 < line
  boundingBox : ∀ box, location.boundingBox = some box → box.Sound

theorem ensures_sound (payload : Payload) : Ensures Sound (read payload) := by
  intro location h
  obtain ⟨fields, -, h⟩ := value?_record h
  simp only [ofFields, value?_seq, value?_map, Option.bind_map, Option.bind_assoc,
    Option.bind_eq_some_iff, Option.map_eq_some_iff, Function.comp_apply] at h
  obtain ⟨_, -, _, -, page, hpage, _, -, line, hline, box, hbox, _, -, _, -, rfl⟩ := h
  exact
    { page := ensures_optional ensures_positiveInteger _ _ page hpage
      line := ensures_optional ensures_positiveInteger _ _ line hline
      boundingBox := ensures_optional BoundingBoxRecord.ensures_sound _ _ box hbox }

variable {location : LocationRecord}

theorem ofFields_accepted (h : location.Sound) :
    ofFields (some (.text location.fileName)) (some (.text location.fileType))
      (some (.ofInt? location.page)) (some (.ofText? location.cellRef))
      (some (.ofInt? location.line)) (accepted location.boundingBox)
      (some (.ofText? location.rawText)) (some (.ofText? location.sectionName)) =
      accepted location := by
  unfold ofFields
  rw [optional_text, optional_text, optional_text, optional_positiveInteger h.page,
    optional_positiveInteger h.line]
  rfl

theorem toPayload_ne_null (location : LocationRecord) : location.toPayload ≠ .null :=
  Payload.noConfusion

theorem restores (h : location.Sound)
    (hfinite : ∀ box, location.boundingBox = some box → box.toBox.IsFinite) :
    schema.Restores location where
  isDocument := by
    -- Only a rectangle can hold numbers that a document cannot.
    have hbox : (Payload.orNull BoundingBoxRecord.toPayload location.boundingBox).IsDocument :=
      isDocument_option fun box hbox =>
        BoundingBoxRecord.restores (h.boundingBox box hbox) (hfinite box hbox)
    have hint (found : Option Int) : (Payload.ofInt? found).IsDocument :=
      Payload.isDocument_orNull fun n _ => .int n
    refine .object (by simp) ?_
    simp only [List.forall_mem_cons]
    exact ⟨.text _, .text _, hint _, Payload.isDocument_ofText? _, hint _, hbox,
      Payload.isDocument_ofText? _, Payload.isDocument_ofText? _, List.forall_mem_nil _⟩
  read_toPayload := by
    have hbox : optional "boundingBox" BoundingBoxRecord.read
        (some (.orNull BoundingBoxRecord.toPayload location.boundingBox)) =
        accepted location.boundingBox :=
      Schema.optional_toPayload (fun box hbox =>
        BoundingBoxRecord.restores (h.boundingBox box hbox) (hfinite box hbox)) nofun _
    show ofFields (some (.text location.fileName)) (some (.text location.fileType))
      (some (.ofInt? location.page)) (some (.ofText? location.cellRef))
      (some (.ofInt? location.line)) (optional "boundingBox" BoundingBoxRecord.read
        (some (.orNull BoundingBoxRecord.toPayload location.boundingBox)))
      (some (.ofText? location.rawText)) (some (.ofText? location.sectionName)) = _
    rw [hbox, ofFields_accepted h]

theorem ofLocation_toLocation (h : location.Sound) :
    ofLocation location.toLocation = .ok location := by
  -- The rectangle is checked again while the place around it is built.
  have hbox : (location.boundingBox.map BoundingBoxRecord.toBox).mapM BoundingBoxRecord.ofBox =
      .ok location.boundingBox := by
    cases hbox : location.boundingBox with
    | none => rfl
    | some box =>
        rw [Option.map_some, Option.mapM_some, BoundingBoxRecord.ofBox_toBox (h.boundingBox box hbox)]
        rfl
  unfold ofLocation toLocation
  dsimp only
  rw [hbox, ok_bind]
  show Reading.built title (ofFields _ _ _ _ _ (accepted _) _ _) = _
  rw [ofFields_accepted h]
  rfl

variable {found : Option LocationRecord}

theorem mapM_ofLocation (h : ∀ location, found = some location → location.Sound) :
    (found.map toLocation).mapM ofLocation = .ok found := by
  cases found with
  | none => rfl
  | some location =>
      rw [Option.map_some, Option.mapM_some, ofLocation_toLocation (h location rfl)]
      rfl

/-- A place that was found is restored when its rectangle is finite. -/
theorem restores_of_found (h : ∀ location, found = some location → location.Sound)
    (hfinite : ∀ location, found.map toLocation = some location →
      ∀ box, location.boundingBox = some box → box.IsFinite) :
    ∀ location, found = some location → schema.Restores location := by
  rintro location rfl
  refine restores (h location rfl) fun box hbox => hfinite location.toLocation rfl box.toBox ?_
  show location.boundingBox.map BoundingBoxRecord.toBox = _
  rw [hbox, Option.map_some]

end LocationRecord

/-! ## What identifies a value -/

namespace KeyRecord

variable (reference : KeyRecord)

theorem ofFields_accepted :
    ofFields (some (.ofNat? reference.index)) (some (.ofText? reference.key))
      (some (.ofText? reference.id)) = accepted reference := by
  unfold ofFields
  rw [optional_natural, optional_text, optional_text]
  rfl

theorem restores : schema.Restores reference where
  isDocument := by
    refine .object (by simp) ?_
    simp only [List.forall_mem_cons]
    exact ⟨Payload.isDocument_ofNat? _, Payload.isDocument_ofText? _, Payload.isDocument_ofText? _,
      List.forall_mem_nil _⟩
  read_toPayload := ofFields_accepted reference

theorem ofKey_toKey : ofKey reference.toKey = .ok reference := by
  have hindex : Payload.ofInt? (reference.index.map Int.ofNat) = .ofNat? reference.index := by
    cases reference.index <;> rfl
  unfold ofKey toKey
  dsimp only
  rw [hindex, ofFields_accepted]
  rfl

end KeyRecord

/-! ## Source references -/

/-- The rectangle of the place in a document, if there is one, is finite. -/
def SourceReference.HasFiniteBox (source : SourceReference) : Prop :=
  ∀ location, source.documentLocation = some location →
    ∀ box, location.boundingBox = some box → box.IsFinite

instance : DecidablePred SourceReference.HasFiniteBox := fun source =>
  inferInstanceAs (Decidable (∀ location ∈ source.documentLocation,
    ∀ box ∈ location.boundingBox, box.IsFinite))

namespace SourceRecord

/-- The record obeys the rules of its schema. -/
structure Sound (source : SourceRecord) : Prop where
  points : source.reference.toKey.isEmpty = false
  confidence : ∀ x, source.confidence = some x → IsShare x
  timestamp : source.timestamp.Valid
  location : ∀ location, source.documentLocation = some location → location.Sound

/-- What a source has been read from makes it sound: it points somewhere, and its confidence is a share. -/
theorem ensures_sound (payload : Payload) : Ensures Sound (read payload) := by
  intro source h
  obtain ⟨fields, -, h⟩ := value?_record h
  simp only [ofFields, pointing, value?_andThen, value?_seq, value?_map, value?_orFault,
    Option.bind_map, Option.bind_assoc, Option.bind_eq_some_iff, Function.comp_apply,
    Option.ite_none_right_eq_some, Option.some.injEq] at h
  obtain ⟨_, -, reference, -, _, -, confidence, hconfidence, timestamp, htimestamp, location,
    hlocation, _, -, _, -, hpoints, rfl⟩ := h
  exact
    { points := by simpa using hpoints
      confidence := ensures_optional ensures_isShare _ _ confidence hconfidence
      timestamp := ensures_required ensures_moment _ _ timestamp htimestamp
      location := ensures_optional LocationRecord.ensures_sound _ _ location hlocation }

/-- The source reference that a record describes. -/
def described (source : SourceRecord) : SourceReference :=
  { sourceType := source.sourceType
    reference := source.reference.toKey
    displayPath := source.displayPath
    timestamp := source.timestamp.isoText
    confidence := source.confidence.map .real
    documentLocation := source.documentLocation.map LocationRecord.toLocation
    parsingSessionId := source.parsingSessionId
    userId := source.userId }

/-- A record of a source converts to the source that it describes, or not at all. -/
theorem eq_described {source : SourceRecord} {reference : SourceReference}
    (h : source.toSource = .ok reference) : reference = source.described :=
  ((SourceReference.check_eq_ok_iff _ _).1 (ofChecked_eq_ok.1 h)).1

variable {source : SourceRecord}

theorem ofFields_accepted (h : source.Sound) {timestamp : String}
    (htimestamp : Schema.moment (.text timestamp) = accepted source.timestamp) :
    ofFields (some (Named.toPayload source.sourceType)) (accepted source.reference)
      (some (.text source.displayPath)) (some (.ofFloat? source.confidence))
      (some (.text timestamp)) (accepted source.documentLocation)
      (some (.ofText? source.parsingSessionId)) (some (.ofText? source.userId)) =
      accepted source := by
  unfold ofFields
  rw [required_accepted (read_option _), optional_share h.confidence,
    required_accepted htimestamp, optional_text, optional_text]
  show pointing source = _
  exact orFault_accepted (by rw [h.points]; rfl) _ _

theorem restores (h : source.Sound) (hfinite : source.described.HasFiniteBox) :
    schema.Restores source := by
  have hlocation := LocationRecord.restores_of_found h.location hfinite
  constructor
  · have hconfidence : (Payload.ofFloat? source.confidence).IsDocument :=
      Payload.isDocument_ofFloat? fun x hx => isFinite_of_isShare (h.confidence x hx)
    refine .object (by simp) ?_
    simp only [List.forall_mem_cons]
    exact ⟨.text _, (KeyRecord.restores _).isDocument, .text _, hconfidence, .text _,
      isDocument_option hlocation,
      Payload.isDocument_ofText? _, Payload.isDocument_ofText? _, List.forall_mem_nil _⟩
  · have hreference : Reading.required "reference" KeyRecord.read
        (some source.reference.toPayload) = accepted source.reference :=
      required_accepted (KeyRecord.restores _).read_toPayload _
    have hplace : optional "documentLocation" LocationRecord.read
        (some (.orNull LocationRecord.toPayload source.documentLocation)) =
        accepted source.documentLocation :=
      Schema.optional_toPayload hlocation LocationRecord.toPayload_ne_null _
    show ofFields (some (Named.toPayload source.sourceType))
      (Reading.required "reference" KeyRecord.read (some source.reference.toPayload))
      (some (.text source.displayPath)) (some (.ofFloat? source.confidence))
      (some (.text source.timestamp.zuluText)) (optional "documentLocation" LocationRecord.read
        (some (.orNull LocationRecord.toPayload source.documentLocation)))
      (some (.ofText? source.parsingSessionId)) (some (.ofText? source.userId)) = _
    rw [hreference, hplace, ofFields_accepted h (read_moment h.timestamp).2]

theorem ofSource_described (h : source.Sound) : ofSource source.described = .ok source := by
  have hlocation := LocationRecord.mapM_ofLocation h.location
  have hconfidence : Payload.orNull Measure.toPayload (source.confidence.map .real) =
      .ofFloat? source.confidence := by
    cases source.confidence <;> rfl
  unfold ofSource described
  dsimp only
  rw [KeyRecord.ofKey_toKey, ok_bind, hlocation, ok_bind, hconfidence]
  show Reading.built title (ofFields _ (accepted _) _ _ _ (accepted _) _ _) = _
  rw [ofFields_accepted h (read_moment h.timestamp).1]
  rfl

/-- How sources are exchanged with their records. -/
def exchange : Exchange (Except Failure) SourceReference SourceRecord :=
  { schema, ofValue := ofSource, toValue := toSource }

/-- A record that obeys the rules carries the source that it describes. -/
theorem carries (h : source.Sound) (hfinite : source.described.HasFiniteBox) :
    exchange.Carries source.described source source.described where
  ofValue_eq := ofSource_described h
  restores := restores h hfinite
  toValue_eq := by
    obtain ⟨reference, hreference⟩ := returns_toSource h.points fun x hx =>
      isShare_real (h.confidence x hx)
    rw [← eq_described hreference]
    exact hreference

end SourceRecord

/-- The source describes a record that obeys the rules, and its rectangle is finite. -/
def SourceReference.Recordable (source : SourceReference) : Prop :=
  ∃ record : SourceRecord, record.Sound ∧ source = record.described ∧ source.HasFiniteBox

theorem SourceReference.Recordable.carries {source : SourceReference} (h : source.Recordable) :
    ∃ record, SourceRecord.exchange.Carries source record source := by
  obtain ⟨record, hsound, rfl, hfinite⟩ := h
  exact ⟨record, SourceRecord.carries hsound hfinite⟩

end Appraisal
