import Appraisal.Proofs.Fallible
import Appraisal.Schema.Model
import Appraisal.Schema.Reading

/-!
# How a reading ends

What becomes of a reading that is put together of parts, and which of the schemas can be abandoned at all.
-/

namespace Appraisal

/-!
## What becomes of a reading

A reading that is put together of parts is abandoned when one of the parts is, and the failure is that of
the first such part, whatever issues the others have.  It is accepted when all parts are, and what the
parts ensure of their values holds of the whole.
-/

variable {α β : Type}

namespace Reading

/-- The failure for which the reading was abandoned. -/
def breakdown? : Reading α → Option Failure
  | abandoned failure => some failure
  | _ => none

/-- The value that the reading accepted. -/
def value? : Reading α → Option α
  | accepted value => some value
  | _ => none

/-- Whatever the reading accepts has the property. -/
def Ensures (property : α → Prop) (reading : Reading α) : Prop :=
  ∀ value, reading.value? = some value → property value

/-! ### Abandoned readings -/

@[simp] theorem breakdown?_accepted (value : α) : (accepted value).breakdown? = none := rfl

@[simp] theorem breakdown?_fault (fault : Fault) :
    (Reading.fault fault : Reading α).breakdown? = none := rfl

@[simp] theorem breakdown?_map (f : α → β) (reading : Reading α) :
    (f <$> reading).breakdown? = reading.breakdown? := by
  cases reading <;> rfl

/-- Of two readings that break down, the first decides how. -/
@[simp] theorem breakdown?_seq (function : Reading (α → β)) (reading : Reading α) :
    (function <*> reading).breakdown? = function.breakdown?.or reading.breakdown? := by
  cases function <;> cases reading <;> rfl

@[simp] theorem breakdown?_within (reading : Reading α) (step : String) :
    (reading.within step).breakdown? = reading.breakdown? := by
  cases reading <;> rfl

@[simp] theorem breakdown?_orFault (test : Bool) (fault : Fault) (value : α) :
    (orFault test fault value).breakdown? = none := by
  unfold orFault
  split <;> rfl

@[simp] theorem breakdown?_ofCheck (answer : Except Fault α) :
    (ofCheck answer).breakdown? = none := by
  cases answer <;> rfl

/-- A continuation that never breaks down leaves the breakdown to the reading before it. -/
theorem breakdown?_andThen {reading : Reading α} {next : α → Reading β}
    (h : ∀ value, (next value).breakdown? = none) :
    (reading.andThen next).breakdown? = reading.breakdown? := by
  cases reading with
  | accepted value => exact h value
  | refused issues => rfl
  | abandoned failure => rfl

variable {read : Reader α}

theorem breakdown?_itemsFrom {items : List Payload}
    (h : ∀ item ∈ items, (read item).breakdown? = none) (position : Nat) :
    (itemsFrom read position items).breakdown? = none := by
  induction items generalizing position with
  | nil => rfl
  | cons item rest ih =>
      rw [List.forall_mem_cons] at h
      simp [itemsFrom, h.1, ih h.2]

theorem breakdown?_entries {fields : List (String × Payload)}
    (h : ∀ field ∈ fields, (read field.2).breakdown? = none) :
    (entries read fields).breakdown? = none := by
  induction fields with
  | nil => rfl
  | cons field rest ih =>
      rw [List.forall_mem_cons] at h
      simp [entries, h.1, ih h.2]

@[simp] theorem breakdown?_listOf (h : ∀ payload, (read payload).breakdown? = none)
    (payload : Payload) : (listOf read payload).breakdown? = none := by
  unfold listOf
  split
  · exact breakdown?_itemsFrom (fun item _ => h item) 0
  · rfl

@[simp] theorem breakdown?_dictionaryOf (h : ∀ payload, (read payload).breakdown? = none)
    (payload : Payload) : (dictionaryOf read payload).breakdown? = none := by
  unfold dictionaryOf
  split
  · exact breakdown?_entries fun field _ => h field.2
  · rfl

@[simp] theorem breakdown?_orNull (h : (read .null).breakdown? = none) (payload : Payload) :
    (orNull read payload).breakdown? = (read payload).breakdown? := by
  unfold orNull
  split <;> simp [h]

/-- A field is abandoned when its payload is. -/
@[simp] theorem breakdown?_required (name : String) (field : Option Payload) :
    (required name read field).breakdown? =
      field.bind fun payload => (read payload).breakdown? := by
  cases field <;> simp [required]

@[simp] theorem breakdown?_orUsual (name : String) (usual : α) (field : Option Payload) :
    (orUsual name read usual field).breakdown? =
      field.bind fun payload => (read payload).breakdown? := by
  cases field <;> simp [orUsual]

@[simp] theorem breakdown?_optional (name : String) (field : Option Payload) :
    (optional name read field).breakdown? =
      field.bind fun payload => (orNull read payload).breakdown? := by
  simp [optional]

theorem breakdown?_record {name : String} {ofFields : (String → Option Payload) → Reading α}
    (h : ∀ fields, (ofFields fields).breakdown? = none) (payload : Payload) :
    (record name ofFields payload).breakdown? = none := by
  unfold record
  split
  · exact h _
  · rfl

/-! ### Accepted readings -/

@[simp] theorem value?_accepted (value : α) : (accepted value).value? = some value := rfl

@[simp] theorem value?_fault (fault : Fault) :
    (Reading.fault fault : Reading α).value? = none := rfl

@[simp] theorem value?_map (f : α → β) (reading : Reading α) :
    (f <$> reading).value? = reading.value?.map f := by
  cases reading <;> rfl

/-- A value is read when both parts are, whatever faults the other one reports. -/
@[simp] theorem value?_seq (function : Reading (α → β)) (reading : Reading α) :
    (function <*> reading).value? = function.value?.bind fun f => reading.value?.map f := by
  cases function <;> cases reading <;> rfl

@[simp] theorem value?_andThen (reading : Reading α) (next : α → Reading β) :
    (reading.andThen next).value? = reading.value?.bind fun value => (next value).value? := by
  cases reading <;> rfl

@[simp] theorem value?_within (reading : Reading α) (step : String) :
    (reading.within step).value? = reading.value? := by
  cases reading <;> rfl

@[simp] theorem value?_orFault (test : Bool) (fault : Fault) (value : α) :
    (orFault test fault value).value? = if test then some value else none := by
  unfold orFault
  split <;> rfl

theorem orFault_eq_some {test : Bool} {fault : Fault} {value result : α}
    (h : (orFault test fault value).value? = some result) : test = true ∧ value = result := by
  rw [value?_orFault, Option.ite_none_right_eq_some, Option.some.injEq] at h
  exact h

/-- A required field yields a value when it is given and read. -/
theorem value?_required_eq_some {name : String} {field : Option Payload} {value : α} :
    (required name read field).value? = some value ↔
      ∃ payload, field = some payload ∧ (read payload).value? = some value := by
  cases field <;> simp [required]

/-- Only an object is read as a record, and its fields decide the value. -/
theorem value?_record {name : String} {ofFields : (String → Option Payload) → Reading α}
    {payload : Payload} {value : α} (h : (record name ofFields payload).value? = some value) :
    ∃ fields, payload = .object fields ∧ (ofFields (fieldOf? fields)).value? = some value := by
  unfold record at h
  split at h
  · exact ⟨_, rfl, h⟩
  · cases h

/-- A reading parses to a value when it yields it. -/
theorem parsed_eq_ok {title : String} {reading : Reading α} {value : α} :
    parsed title reading = .ok value ↔ reading.value? = some value := by
  cases reading <;> simp [parsed, value?]

section Ensures

variable {property : α → Prop}

theorem ensures_required_of {field : Option Payload}
    (h : ∀ payload, field = some payload → Ensures property (read payload)) (name : String) :
    Ensures property (required name read field) := by
  intro value hvalue
  obtain ⟨payload, hfield, hread⟩ := value?_required_eq_some.1 hvalue
  exact h payload hfield value hread

/-- A property of everything read holds of a required field. -/
theorem ensures_required (h : ∀ payload, Ensures property (read payload)) (name : String)
    (field : Option Payload) : Ensures property (required name read field) :=
  ensures_required_of (fun payload _ => h payload) name

theorem ensures_orUsual_of {usual : α} (husual : property usual) {field : Option Payload}
    (h : ∀ payload, field = some payload → Ensures property (read payload)) (name : String) :
    Ensures property (orUsual name read usual field) := by
  intro value hvalue
  cases field with
  | none =>
      obtain rfl := Option.some.inj hvalue
      exact husual
  | some payload =>
      rw [orUsual, value?_within] at hvalue
      exact h payload rfl value hvalue

theorem ensures_orUsual {usual : α} (husual : property usual)
    (h : ∀ payload, Ensures property (read payload)) (name : String) (field : Option Payload) :
    Ensures property (orUsual name read usual field) :=
  ensures_orUsual_of husual (fun payload _ => h payload) name

/-- A property of everything read holds of an optional value, where there is one. -/
theorem ensures_orNull {payload : Payload} (h : Ensures property (read payload)) :
    Ensures (fun found => ∀ value, found = some value → property value) (orNull read payload) := by
  intro found hfound value hvalue
  unfold orNull at hfound
  split at hfound
  · obtain rfl := Option.some.inj hfound
    cases hvalue
  · rw [value?_map, Option.map_eq_some_iff] at hfound
    obtain ⟨_, hread, rfl⟩ := hfound
    obtain rfl := Option.some.inj hvalue
    exact h _ hread

theorem ensures_optional_of {field : Option Payload}
    (h : ∀ payload, field = some payload → Ensures property (read payload)) (name : String) :
    Ensures (fun found => ∀ value, found = some value → property value)
      (optional name read field) :=
  ensures_orUsual_of (fun _ hvalue => by cases hvalue)
    (fun payload hfield => ensures_orNull (h payload hfield)) name

theorem ensures_optional (h : ∀ payload, Ensures property (read payload)) (name : String)
    (field : Option Payload) :
    Ensures (fun found => ∀ value, found = some value → property value)
      (optional name read field) :=
  ensures_optional_of (fun payload _ => h payload) name

/-- A property of every item read holds of all of a list, wherever it starts. -/
theorem ensures_itemsFrom {items : List Payload}
    (h : ∀ item ∈ items, Ensures property (read item)) (position : Nat) :
    Ensures (fun values => ∀ value ∈ values, property value) (itemsFrom read position items) := by
  -- The position only names an item in a fault, so it may be any.
  induction items generalizing position with
  | nil =>
      intro values hvalues
      obtain rfl := Option.some.inj hvalues
      exact fun value hvalue => by cases hvalue
  | cons item rest ih =>
      intro values hvalues
      rw [List.forall_mem_cons] at h
      simp only [itemsFrom, value?_seq, value?_map, value?_within, Option.bind_map,
        Option.bind_eq_some_iff, Option.map_eq_some_iff, Function.comp_apply] at hvalues
      obtain ⟨first, hfirst, others, hothers, rfl⟩ := hvalues
      exact List.forall_mem_cons.2 ⟨h.1 first hfirst, ih h.2 (position + 1) others hothers⟩

theorem ensures_listOf_of {payload : Payload}
    (h : ∀ items, payload = .list items → ∀ item ∈ items, Ensures property (read item)) :
    Ensures (fun values => ∀ value ∈ values, property value) (listOf read payload) := by
  unfold listOf
  split
  · next items => exact ensures_itemsFrom (h items rfl) 0
  · intro values hvalues
    cases hvalues

theorem ensures_listOf (h : ∀ payload, Ensures property (read payload)) (payload : Payload) :
    Ensures (fun values => ∀ value ∈ values, property value) (listOf read payload) :=
  ensures_listOf_of fun _ _ item _ => h item

end Ensures

end Reading

/-!
## Which payloads cannot be read to the end

Every reading comes to a verdict, acceptance or issues, with one exception: the field of further inputs is
taken apart before it is checked.
-/

open Reading

/-! ### Single values -/

namespace Schema

@[simp] theorem breakdown?_text (payload : Payload) : (text payload).breakdown? = none := by
  cases payload <;> rfl

@[simp] theorem breakdown?_nonEmptyText (payload : Payload) :
    (nonEmptyText payload).breakdown? = none := by
  simp [nonEmptyText, breakdown?_andThen]

@[simp] theorem breakdown?_textUpTo (most : Nat) (payload : Payload) :
    (textUpTo most payload).breakdown? = none := by
  simp [textUpTo, breakdown?_andThen]

@[simp] theorem breakdown?_option (α : Type) [Named α] (payload : Payload) :
    (option α payload).breakdown? = none := by
  unfold option
  split <;> rfl

@[simp] theorem breakdown?_moment (payload : Payload) : (moment payload).breakdown? = none :=
  breakdown?_ofCheck _

@[simp] theorem breakdown?_integer (payload : Payload) : (integer payload).breakdown? = none := by
  unfold integer integerText integerFloat integerDecimal
  dsimp only
  repeat' split
  all_goals first | rfl | exact breakdown?_orFault _ _ _

@[simp] theorem breakdown?_positiveInteger (payload : Payload) :
    (positiveInteger payload).breakdown? = none := by
  simp [positiveInteger, breakdown?_andThen]

@[simp] theorem breakdown?_natural (payload : Payload) : (natural payload).breakdown? = none := by
  simp [natural, breakdown?_andThen]

@[simp] theorem breakdown?_real (payload : Payload) : (real payload).breakdown? = none := by
  unfold real
  repeat' split
  all_goals rfl

@[simp] theorem breakdown?_positiveReal (payload : Payload) :
    (positiveReal payload).breakdown? = none := by
  simp [positiveReal, breakdown?_andThen]

@[simp] theorem breakdown?_nonNegativeReal (payload : Payload) :
    (nonNegativeReal payload).breakdown? = none := by
  simp [nonNegativeReal, breakdown?_andThen]

@[simp] theorem breakdown?_share (payload : Payload) : (share payload).breakdown? = none := by
  simp [share, breakdown?_andThen]

@[simp] theorem breakdown?_truth (payload : Payload) : (truth payload).breakdown? = none := by
  unfold truth truthInteger
  repeat' split
  all_goals rfl

@[simp] theorem breakdown?_decimal (payload : Payload) : (decimal payload).breakdown? = none := by
  have hany : (anyDecimal payload).breakdown? = none := by
    unfold anyDecimal
    repeat' split
    all_goals rfl
  simp [decimal, breakdown?_andThen, hany]

end Schema

/-! ### Records -/

@[simp] theorem BoundingBoxRecord.breakdown?_read (payload : Payload) :
    (read payload).breakdown? = none := by
  refine breakdown?_record (fun field => ?_) payload
  simp [ofFields]

@[simp] theorem LocationRecord.breakdown?_read (payload : Payload) :
    (read payload).breakdown? = none := by
  refine breakdown?_record (fun field => ?_) payload
  simp [ofFields]

@[simp] theorem KeyRecord.breakdown?_read (payload : Payload) :
    (read payload).breakdown? = none := by
  refine breakdown?_record (fun field => ?_) payload
  simp [ofFields]

@[simp] theorem SourceRecord.breakdown?_read (payload : Payload) :
    (read payload).breakdown? = none := by
  refine breakdown?_record (fun field => ?_) payload
  have hpointing (source : SourceRecord) : source.pointing.breakdown? = none :=
    breakdown?_orFault _ _ _
  simp [ofFields, breakdown?_andThen hpointing]

@[simp] theorem NumberRecord.breakdown?_read (payload : Payload) :
    (read payload).breakdown? = none := by
  refine breakdown?_record (fun field => ?_) payload
  simp [ofFields]

@[simp] theorem LineItemRecord.breakdown?_read (payload : Payload) :
    (read payload).breakdown? = none := by
  refine breakdown?_record (fun field => ?_) payload
  simp [ofFields]

@[simp] theorem Footnote.breakdown?_read (payload : Payload) :
    (read payload).breakdown? = none := by
  refine breakdown?_record (fun field => ?_) payload
  simp [ofFields]

@[simp] theorem OperandRecord.breakdown?_read (payload : Payload) :
    (read payload).breakdown? = none := by
  refine breakdown?_record (fun field => ?_) payload
  simp [ofFields]

@[simp] theorem FormulaRecord.breakdown?_read (payload : Payload) :
    (read payload).breakdown? = none := by
  refine breakdown?_record (fun field => ?_) payload
  simp [ofFields]

@[simp] theorem StepRecord.breakdown?_read (payload : Payload) :
    (read payload).breakdown? = none := by
  refine breakdown?_record (fun field => ?_) payload
  simp [ofFields]

@[simp] theorem ResultRecord.breakdown?_read (payload : Payload) :
    (read payload).breakdown? = none := by
  refine breakdown?_record (fun field => ?_) payload
  simp [ofFields]

@[simp] theorem TrailRecord.breakdown?_read (payload : Payload) :
    (read payload).breakdown? = none := by
  refine breakdown?_record (fun field => ?_) payload
  simp [ofFields]

@[simp] theorem BoundsRecord.breakdown?_read (payload : Payload) :
    (read payload).breakdown? = none := by
  refine breakdown?_record (fun field => ?_) payload
  simp [ofFields]

@[simp] theorem PriorValue.breakdown?_read (payload : Payload) :
    (read payload).breakdown? = none := by
  unfold read
  split
  · rfl
  · split
    · rfl
    · simp

@[simp] theorem TypeRecord.breakdown?_read (payload : Payload) :
    (read payload).breakdown? = none := by
  refine breakdown?_record (fun field => ?_) payload
  simp [ofFields]

@[simp] theorem DecisionRecord.breakdown?_read (payload : Payload) :
    (read payload).breakdown? = none := by
  refine breakdown?_record (fun field => ?_) payload
  simp [ofFields]

@[simp] theorem FlagRecord.breakdown?_read (payload : Payload) :
    (read payload).breakdown? = none := by
  refine breakdown?_record (fun field => ?_) payload
  simp [ofFields]

@[simp] theorem ReasoningRecord.breakdown?_read (payload : Payload) :
    (read payload).breakdown? = none := by
  refine breakdown?_record (fun field => ?_) payload
  simp [ofFields]

@[simp] theorem MetadataRecord.breakdown?_read (payload : Payload) :
    (read payload).breakdown? = none := by
  refine breakdown?_record (fun field => ?_) payload
  simp [ofFields]

end Appraisal
