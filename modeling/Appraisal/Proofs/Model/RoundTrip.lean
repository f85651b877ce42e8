import Appraisal.Proofs.Evaluation.RoundTrip
import Appraisal.Proofs.Model.FieldMetadata
import Appraisal.Proofs.Schema.DirectCapitalization
import Appraisal.Proofs.UserInput.RoundTrip

/-!
# A model survives being written and read

A model whose parts can be recorded is carried by a record.  The document of the record is read against
the schema of its type: a model of direct capitalization has to be complete.  What comes back is the model,
with operands that have lost their defaults and their signs.
-/

namespace Appraisal

open Reading Schema

/-- The model with operands without their defaults and signs. -/
def FinancialModel.bare (model : FinancialModel) : FinancialModel :=
  { model with calculations := model.calculations.bare }

/-! ## Metadata of fields -/

/-- The metadata says how a value is shown, and nothing about where it was found or what it may be. -/
structure TypeMetadata.Recordable (metadata : TypeMetadata) : Prop where
  footnotes : ∀ footnote ∈ metadata.footnotes, footnote.Recordable
  sourceLocation : metadata.sourceLocation = none
  priorValue : metadata.priorValue = none
  minValue : metadata.minValue = none
  maxValue : metadata.maxValue = none
  required : metadata.required = false

namespace TypeRecord

/-- The record of metadata without a place and without bounds. -/
def described (metadata : TypeMetadata) : TypeRecord :=
  { type := metadata.type
    currency := metadata.currency
    precision := metadata.precision
    unit := metadata.unit
    displayFormat := metadata.displayFormat
    footnotes := metadata.footnotes
    sourceLocation := none
    isOverridden := metadata.isOverridden
    priorValue := none
    constraints := none }

/-- How metadata of fields is exchanged with its records. -/
def exchange : Exchange (Except Failure) TypeMetadata TypeRecord :=
  { schema, ofValue := ofMetadata, toValue := fun metadata => pure metadata.toMetadata }

theorem sound_described {metadata : TypeMetadata} (h : metadata.Recordable) :
    (described metadata).Sound where
  footnotes := h.footnotes
  sourceLocation := by simp [described]
  priorValue := by simp [described]
  constraints := by simp [described]

theorem toMetadata_described {metadata : TypeMetadata} (h : metadata.Recordable) :
    (described metadata).toMetadata = metadata := by
  obtain ⟨-, hplace, hprior, hmin, hmax, hrequired⟩ := h
  unfold toMetadata described
  cases metadata
  simp_all [BoundsRecord.unbounded]

/-- The metadata of a field that a model writes comes back as it was. -/
theorem carries {metadata : TypeMetadata} (h : metadata.Recordable) :
    exchange.Carries metadata (described metadata) metadata := by
  have hsound := sound_described h
  have hback := toMetadata_described h
  have hfinite : (described metadata).toMetadata.HasFiniteBox := by
    simp [TypeMetadata.HasFiniteBox, described, toMetadata]
  obtain ⟨hdocument, hread⟩ := read_toPayload hsound hfinite
  -- Without bounds, a place and a prior value there is nothing to leave out or to reread.
  have hrecord := ofMetadata_toMetadata hsound
  rw [hback] at hrecord
  exact
    { ofValue_eq := hrecord
      restores := { isDocument := hdocument, read_toPayload := hread }
      toValue_eq := congrArg pure hback }

end TypeRecord

/-! ## Reasoning -/

/-- The flag has a reason, and its confidence is a share. -/
structure FlaggedItem.Recordable (flag : FlaggedItem) : Prop where
  reason : flag.reason ≠ ""
  confidence : ∃ found : Option Binary64, flag.confidence = found.map .real ∧
    ∀ x, found = some x → IsShare x

/-- The reasoning holds a summary, flags that can be recorded, and no decision. -/
structure BriefReasoning.Recordable (reasoning : BriefReasoning) : Prop where
  summary : reasoning.summary ≠ ""
  decisions : reasoning.decisions = []
  flaggedItems : ∀ flag ∈ reasoning.flaggedItems, flag.Recordable
  overallConfidence : IsShare reasoning.overallConfidence

namespace FlagRecord

/-- How flags are exchanged with their records. -/
def exchange : Exchange (Except Failure) FlaggedItem FlagRecord :=
  { schema, ofValue := ofFlag, toValue := fun flag => pure flag.toFlag }

theorem ofFields_accepted (flag : FlagRecord) (hreason : flag.reason ≠ "")
    (hconfidence : ∀ x, flag.confidence = some x → IsShare x) :
    ofFields (some (.text flag.field)) (some (.text flag.reason))
      (some (Named.toPayload flag.severity)) (some (.ofText? flag.suggestedAction))
      (some (.ofFloat? flag.confidence)) = accepted flag := by
  rw [ofFields, required_accepted (read_nonEmptyText hreason),
    required_accepted (read_option _), optional_text, optional_share hconfidence]
  rfl

theorem carries {flag : FlaggedItem} (h : flag.Recordable) :
    ∃ record, exchange.Carries flag record flag := by
  obtain ⟨confidence, hgiven, hconfidence⟩ := h.confidence
  let record : FlagRecord :=
    { field := flag.field
      reason := flag.reason
      severity := flag.severity
      suggestedAction := flag.suggestedAction
      confidence }
  have hrecord := ofFields_accepted record h.reason hconfidence
  refine ⟨record,
    { ofValue_eq := ?ofValue
      restores := { isDocument := ?document, read_toPayload := hrecord }
      toValue_eq := ?toValue }⟩
  case ofValue =>
    have hpayload : Payload.orNull Measure.toPayload flag.confidence = .ofFloat? confidence := by
      rw [hgiven]
      cases confidence <;> rfl
    show ofFlag flag = _
    unfold ofFlag
    rw [hpayload]
    exact congrArg (Reading.built title) hrecord
  case document =>
    refine .object (by simp) ?_
    simp only [List.forall_mem_cons]
    exact ⟨.text _, .text _, .text _, Payload.isDocument_ofText? _,
      Payload.isDocument_ofFloat? fun x hx => isFinite_of_isShare (hconfidence x hx), List.forall_mem_nil _⟩
  case toValue =>
    show (pure record.toFlag : Except Failure FlaggedItem) = pure flag
    unfold toFlag
    rw [← hgiven]

end FlagRecord

namespace ReasoningRecord

/-- How reasonings are exchanged with their records. -/
def exchange : Exchange (Except Failure) BriefReasoning ReasoningRecord :=
  { schema, ofValue := ofReasoning, toValue := fun reasoning => pure reasoning.toReasoning }

theorem ofFields_accepted (reasoning : ReasoningRecord) (hsummary : reasoning.summary ≠ "")
    (hconfidence : IsShare reasoning.overallConfidence) :
    ofFields (some (.text reasoning.summary)) (accepted reasoning.decisions)
      (accepted reasoning.flaggedItems) (some (.float reasoning.overallConfidence)) =
      accepted reasoning := by
  rw [ofFields, required_accepted (read_nonEmptyText hsummary),
    required_accepted (read_share hconfidence)]
  rfl

theorem carries {reasoning : BriefReasoning} (h : reasoning.Recordable) :
    ∃ record, exchange.Carries reasoning record reasoning := by
  obtain ⟨flaggedItems, hflagsOf, hflags, hflagsTo⟩ := Exchange.exists_list
    (List.forall₂_same.2 fun flag hflag => FlagRecord.carries (h.flaggedItems flag hflag))
  -- A model records no decisions, so the list of their records is empty.
  let record : ReasoningRecord :=
    { summary := reasoning.summary
      decisions := []
      flaggedItems
      overallConfidence := reasoning.overallConfidence }
  have hrecord := ofFields_accepted record h.summary h.overallConfidence
  refine ⟨record,
    { ofValue_eq := ?ofValue
      restores := { isDocument := ?document, read_toPayload := ?read }
      toValue_eq := ?toValue }⟩
  case ofValue =>
    refine bind_eq_ok.2 ⟨[], ?_, bind_eq_ok.2 ⟨flaggedItems, hflagsOf,
      congrArg (Reading.built title) hrecord⟩⟩
    rw [h.decisions]
    rfl
  case document =>
    refine .object (by simp) ?_
    simp only [List.forall_mem_cons]
    exact ⟨.text _, .list (List.forall_mem_nil _), isDocument_list hflags,
      .float (isFinite_of_isShare h.overallConfidence), List.forall_mem_nil _⟩
  case read =>
    have hread : Reading.orUsual "flaggedItems" (listOf FlagRecord.read) []
        (some (.list (flaggedItems.map FlagRecord.toPayload))) = accepted flaggedItems :=
      orUsual_accepted (listOf_toPayload hflags) _ _
    show ofFields (some (.text reasoning.summary)) (accepted [])
      (Reading.orUsual "flaggedItems" (listOf FlagRecord.read) []
        (some (.list (flaggedItems.map FlagRecord.toPayload))))
      (some (.float reasoning.overallConfidence)) = _
    rw [hread]
    exact hrecord
  case toValue =>
    have hback : flaggedItems.map FlagRecord.toFlag = reasoning.flaggedItems :=
      map_eq_of_mapM_pure hflagsTo
    show (pure
      { summary := reasoning.summary
        decisions := []
        flaggedItems := flaggedItems.map FlagRecord.toFlag
        overallConfidence := reasoning.overallConfidence } : Except Failure BriefReasoning) =
      pure reasoning
    rw [hback, ← h.decisions]

end ReasoningRecord

/-! ## How a model came about -/

/-- The moments are those of the calendar, and the duration is finite and not negative. -/
structure ModelMetadata.Recordable (metadata : ModelMetadata) : Prop where
  createdAt : IsMomentText metadata.createdAt
  updatedAt : metadata.updatedAt = none
  processingTimeMs : ∀ x, metadata.processingTimeMs = some x →
    x.isFinite = true ∧ isAtLeast x 0 = true

namespace MetadataRecord

/-- How metadata of models is exchanged with its records. -/
def exchange : Exchange (Except Failure) ModelMetadata MetadataRecord :=
  { schema, ofValue := ofMetadata, toValue := fun metadata => pure metadata.toMetadata }

/-- The metadata of a model comes back as it was, its two shares as floating-point numbers. -/
theorem carries {metadata : ModelMetadata} (h : metadata.Recordable) :
    ∃ record, exchange.Carries metadata record metadata := by
  obtain ⟨moment, hmoment, hcreated⟩ := h.createdAt
  let record : MetadataRecord :=
    { modelVersion := metadata.modelVersion
      createdAt := moment
      sourceFileName := metadata.sourceFileName
      sourceFileType := metadata.sourceFileType
      processingTimeMs := metadata.processingTimeMs
      agentModel := metadata.agentModel
      updatedAt := none
      parsingSessionId := metadata.parsingSessionId }
  -- The text of the model and that of the document are both read as the moment.
  have hfields {createdAt : String}
      (hread : Schema.moment (.text createdAt) = accepted moment) :
      ofFields (some (.text metadata.modelVersion)) (some (.text createdAt))
        (some (.ofText? metadata.sourceFileName)) (some (.ofText? metadata.sourceFileType))
        (some (.ofFloat? metadata.processingTimeMs)) (some (.ofText? metadata.agentModel))
        (some .null) (some (.ofText? metadata.parsingSessionId)) = accepted record := by
    rw [ofFields, required_accepted hread, optional_text, optional_text,
      optional_nonNegativeReal fun x hx => (h.processingTimeMs x hx).2, optional_text, optional_text]
    rfl
  refine ⟨record,
    { ofValue_eq := ?ofValue
      restores := { isDocument := ?document, read_toPayload := hfields (read_moment hmoment).2 }
      toValue_eq := ?toValue }⟩
  case ofValue =>
    show ofMetadata metadata = _
    unfold ofMetadata
    rw [hcreated, h.updatedAt]
    exact congrArg (Reading.built title) (hfields (read_moment hmoment).1)
  case document =>
    refine .object (by simp) ?_
    simp only [List.forall_mem_cons]
    exact ⟨.text _, .text _, Payload.isDocument_ofText? _, Payload.isDocument_ofText? _,
      Payload.isDocument_ofFloat? fun x hx => (h.processingTimeMs x hx).1,
      Payload.isDocument_ofText? _, .null, Payload.isDocument_ofText? _, List.forall_mem_nil _⟩
  case toValue =>
    have hback : record.toMetadata = metadata := by
      unfold toMetadata
      rw [← hcreated]
      exact congrArg (fun updatedAt => { metadata with updatedAt }) h.updatedAt.symm
    exact congrArg pure hback

end MetadataRecord

/-! ## Models -/

/-- The model has an identifier and a title, and its parts can be recorded. -/
structure FinancialModel.Recordable (model : FinancialModel) : Prop where
  id : model.id ≠ ""
  title : model.title ≠ ""
  briefReasoning : model.briefReasoning.Recordable
  userInput : model.userInput.Recordable
  calculations : model.calculations.Recordable
  metadata : model.metadata.Recordable
  distinct : model.types.keys.Nodup
  types : ∀ entry ∈ model.types, entry.2.Recordable

namespace ContentRecord

theorem restores {content : ContentRecord} (hinput : UserInputRecord.schema.Restores content.userInput)
    (htrail : TrailRecord.schema.Restores content.calculations) (hnames : content.types.keys.Nodup)
    (htypes : ∀ entry ∈ content.types, TypeRecord.schema.Restores entry.2) :
    schema.Restores content where
  isDocument := by
    refine .object (by simp) ?_
    simp only [List.forall_mem_cons]
    exact ⟨hinput.isDocument, htrail.isDocument, isDocument_values hnames htypes, List.forall_mem_nil _⟩
  read_toPayload := by
    have hinputRead : Reading.required "userInput" UserInputRecord.read
        (some content.userInput.toPayload) = accepted content.userInput :=
      required_accepted hinput.read_toPayload _
    have htrailRead : Reading.required "calculations" TrailRecord.read
        (some content.calculations.toPayload) = accepted content.calculations :=
      required_accepted htrail.read_toPayload _
    have htypesRead : Reading.orUsual "types" (dictionaryOf TypeRecord.read) []
        (some (.object (content.types.map fun entry => (entry.1, entry.2.toPayload)))) =
        accepted content.types :=
      orUsual_accepted (dictionaryOf_toPayload htypes) _ _
    show mk <$> Reading.required "userInput" UserInputRecord.read
        (some content.userInput.toPayload)
      <*> Reading.required "calculations" TrailRecord.read (some content.calculations.toPayload)
      <*> Reading.orUsual "types" (dictionaryOf TypeRecord.read) []
        (some (.object (content.types.map fun entry => (entry.1, entry.2.toPayload)))) = _
    rw [hinputRead, htrailRead, htypesRead]
    rfl

end ContentRecord

namespace ModelRecord

/-- How models are exchanged with their records. -/
def exchange : Exchange Build FinancialModel ModelRecord :=
  { schema, ofValue := ofModel, toValue := toModel }

theorem ofFields_accepted (model : ModelRecord) (hid : model.id ≠ "") (htitle : model.title ≠ "") :
    ofFields (some (.text model.id)) (some (.text model.title))
      (some (Named.toPayload model.modelType)) (accepted model.briefReasoning)
      (accepted model.customModel) (accepted model.metadata) = accepted model := by
  rw [ofFields, required_accepted (read_nonEmptyText hid),
    required_accepted (read_nonEmptyText htitle), required_accepted (read_option _)]
  rfl

theorem restores {model : ModelRecord} (hid : model.id ≠ "") (htitle : model.title ≠ "")
    (hreasoning : ReasoningRecord.schema.Restores model.briefReasoning)
    (hcontent : ContentRecord.schema.Restores model.customModel)
    (hmetadata : MetadataRecord.schema.Restores model.metadata) : schema.Restores model where
  isDocument := by
    refine .object (by simp) ?_
    simp only [List.forall_mem_cons]
    exact ⟨.text _, .text _, .text _, hreasoning.isDocument, hcontent.isDocument,
      hmetadata.isDocument, List.forall_mem_nil _⟩
  read_toPayload := by
    have hreasoningRead : Reading.required "briefReasoning" ReasoningRecord.read
        (some model.briefReasoning.toPayload) = accepted model.briefReasoning :=
      required_accepted hreasoning.read_toPayload _
    have hcontentRead : Reading.required "customModel" ContentRecord.read
        (some model.customModel.toPayload) = accepted model.customModel :=
      required_accepted hcontent.read_toPayload _
    have hmetadataRead : Reading.required "metadata" MetadataRecord.read
        (some model.metadata.toPayload) = accepted model.metadata :=
      required_accepted hmetadata.read_toPayload _
    show ofFields (some (.text model.id)) (some (.text model.title))
      (some (Named.toPayload model.modelType))
      (Reading.required "briefReasoning" ReasoningRecord.read
        (some model.briefReasoning.toPayload))
      (Reading.required "customModel" ContentRecord.read (some model.customModel.toPayload))
      (Reading.required "metadata" MetadataRecord.read (some model.metadata.toPayload)) = _
    rw [hreasoningRead, hcontentRead, hmetadataRead]
    exact ofFields_accepted model hid htitle

/-- A model that can be recorded comes back from its document with its operands bare. -/
theorem carries {model : FinancialModel} (h : model.Recordable) :
    ∃ record, exchange.Carries model record model.bare := by
  obtain ⟨briefReasoning, hreasoning⟩ := ReasoningRecord.carries h.briefReasoning
  obtain ⟨userInput, hinput⟩ := UserInputRecord.carries h.userInput
  obtain ⟨calculations, htrail⟩ := TrailRecord.carries h.calculations
  obtain ⟨metadata, hmetadata⟩ := MetadataRecord.carries h.metadata
  obtain ⟨types, htypesOf, htypes, htypesTo, hnames⟩ := Exchange.exists_dictionary
    fun entry hentry => ⟨_, TypeRecord.carries (h.types entry hentry)⟩
  let content : ContentRecord := { userInput, calculations, types }
  let record : ModelRecord :=
    { id := model.id
      title := model.title
      modelType := model.modelType
      briefReasoning
      customModel := content
      metadata }
  refine ⟨record, { ofValue_eq := ?ofValue, restores := ?restores, toValue_eq := ?toValue }⟩
  case ofValue =>
    have hcontent : ContentRecord.ofModel model = .ok content :=
      bind_eq_ok.2 ⟨userInput, hinput.ofValue_eq, bind_eq_ok.2 ⟨calculations, htrail.ofValue_eq,
        bind_eq_ok.2 ⟨types, htypesOf, rfl⟩⟩⟩
    exact bind_eq_ok.2 ⟨briefReasoning, hreasoning.ofValue_eq, bind_eq_ok.2 ⟨content, hcontent,
      bind_eq_ok.2 ⟨metadata, hmetadata.ofValue_eq,
        congrArg (Reading.built recordTitle) (ofFields_accepted record h.id h.title)⟩⟩⟩
  case restores =>
    have hcontent : ContentRecord.schema.Restores content :=
      ContentRecord.restores hinput.restores htrail.restores (hnames ▸ h.distinct) htypes
    exact restores h.id h.title hreasoning.restores hcontent hmetadata.restores
  case toValue =>
    -- Operands lose their defaults and signs on the way; everything else is as it was.
    have htrailBack : Build.ofExcept calculations.toTrail = pure model.calculations.bare :=
      congrArg Build.ofExcept htrail.toValue_eq
    have hreasoningBack : briefReasoning.toReasoning = model.briefReasoning :=
      pure_eq_ok.1 hreasoning.toValue_eq
    have hmetadataBack : metadata.toMetadata = model.metadata :=
      pure_eq_ok.1 hmetadata.toValue_eq
    have htypesBack : (types.map fun entry => (entry.1, entry.2.toMetadata)) = model.types :=
      map_eq_of_mapM_pure htypesTo
    refine Exchange.bind_eq_pure hinput.toValue_eq <| Exchange.bind_eq_pure htrailBack ?_
    rw [hreasoningBack, hmetadataBack, htypesBack]
    rfl

end ModelRecord

namespace Schema

end Schema
end Appraisal
