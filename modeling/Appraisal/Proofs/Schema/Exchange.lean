import Appraisal.Proofs.Schema.Writing
import Mathlib.Data.List.Forall2

/-!
# Values that survive being written

Further inputs and values that are carried by records come back from a document as they were.
-/

namespace Appraisal

/-!
## Further inputs are kept

However further inputs arrive, in a field of their own or beside the fixed inputs, no two of them have one
name, and their values are parts of the payload.  They are written as an object in a field of their own,
and reading that object gives them back in the same order.
-/

open Reading

namespace Extensions

variable {α β : Type}

/-! ### What is collected -/

/-- The inputs have distinct names, and their values are written ones. -/
structure Sound (entries : Entries) : Prop where
  distinct : entries.Pairwise fun first second => sameName first.1 second.1 = false
  wellFormed : ∀ entry ∈ entries, entry.2.WellFormed

theorem sound_nil : Sound [] :=
  ⟨List.Pairwise.nil, fun _ h => by cases h⟩

theorem name_of_mem_put {entries : Entries} {name value : Payload} {entry : Payload × Payload}
    (h : entry ∈ put entries name value) :
    entry.1 = name ∨ ∃ other ∈ entries, other.1 = entry.1 := by
  -- Putting replaces an entry of the name where it stands, or adds one at the end.
  induction entries with
  | nil =>
      obtain rfl := List.mem_singleton.1 h
      exact .inl rfl
  | cons first rest ih =>
      unfold put at h
      split at h
      · rcases List.mem_cons.1 h with rfl | h
        · exact .inr ⟨first, List.mem_cons_self .., rfl⟩
        · exact .inr ⟨entry, List.mem_cons_of_mem _ h, rfl⟩
      · rcases List.mem_cons.1 h with rfl | h
        · exact .inr ⟨entry, List.mem_cons_self .., rfl⟩
        · rcases ih h with hname | ⟨other, hother, heq⟩
          · exact .inl hname
          · exact .inr ⟨other, List.mem_cons_of_mem _ hother, heq⟩

/-- Putting a value under a name keeps the names distinct. -/
theorem Sound.put {entries : Entries} (h : Sound entries) (name : Payload) {value : Payload}
    (hvalue : value.WellFormed) : Sound (Extensions.put entries name value) := by
  induction entries with
  | nil => exact ⟨List.pairwise_singleton _ _, by simpa [Extensions.put] using hvalue⟩
  | cons first rest ih =>
      obtain ⟨hfirst, hrest⟩ := List.pairwise_cons.1 h.distinct
      have hwritten := List.forall_mem_cons.1 h.wellFormed
      unfold Extensions.put
      split
      · exact ⟨List.pairwise_cons.2 ⟨hfirst, hrest⟩, List.forall_mem_cons.2 ⟨hvalue, hwritten.2⟩⟩
      · next hname =>
          have hput := ih ⟨hrest, hwritten.2⟩
          refine ⟨List.pairwise_cons.2 ⟨fun entry hentry => ?_, hput.distinct⟩,
            List.forall_mem_cons.2 ⟨hwritten.1, hput.wellFormed⟩⟩
          rcases name_of_mem_put hentry with heq | ⟨other, hother, heq⟩
          · rw [heq]
            simpa using hname
          · rw [← heq]
            exact hfirst other hother

/-- Each input beside the fixed ones is stored over the one of its name. -/
theorem Sound.foldl_put {entries : Entries} (h : Sound entries) {beside : List (String × Payload)}
    (hbeside : ∀ field ∈ beside, field.2.WellFormed) :
    Sound (beside.foldl (fun entries field => Extensions.put entries (.text field.1) field.2)
      entries) := by
  induction beside generalizing entries with
  | nil => exact h
  | cons field rest ih =>
      rw [List.forall_mem_cons] at hbeside
      exact ih (h.put _ hbeside.1) hbeside.2

theorem wellFormed_members {item : Payload} (h : item.WellFormed) {parts : List Payload}
    (hparts : members? item = some parts) : ∀ part ∈ parts, part.WellFormed := by
  unfold members? at hparts
  split at hparts
  · cases hparts
    exact fun part hpart => h.item hpart
  · cases hparts
    simp only [List.forall_mem_map]
    exact fun field _ => .text field.1
  · cases hparts
    simp only [List.forall_mem_map]
    exact fun c _ => .text _
  · cases hparts

theorem wellFormed_pairAt {position : Nat} {item : Payload} (h : item.WellFormed)
    {pair : Payload × Payload} (hpair : (pairAt position item).value? = some pair) :
    pair.2.WellFormed := by
  unfold pairAt at hpair
  split at hpair
  · next name value hmembers =>
      rw [value?_andThen] at hpair
      obtain ⟨_, -, heq⟩ := Option.bind_eq_some_iff.1 hpair
      obtain rfl := Option.some.inj heq
      exact wellFormed_members h hmembers value (by simp)
  · cases hpair
  · cases hpair

theorem ensures_putPairs {items : List Payload} (h : ∀ item ∈ items, item.WellFormed)
    {entries : Entries} (hentries : Sound entries) (position : Nat) :
    Ensures Sound (putPairs entries position items) := by
  induction items generalizing entries position with
  | nil =>
      intro result hresult
      obtain rfl := Option.some.inj hresult
      exact hentries
  | cons item rest ih =>
      intro result hresult
      rw [List.forall_mem_cons] at h
      rw [putPairs, value?_andThen] at hresult
      obtain ⟨pair, hpair, hrest⟩ := Option.bind_eq_some_iff.1 hresult
      exact ih h.2 (hentries.put pair.1 (wellFormed_pairAt h.1 hpair)) _ result hrest

theorem sound_object {fields : List (String × Payload)} (h : (Payload.object fields).WellFormed) :
    Sound (fields.map fun entry => (.text entry.1, entry.2)) := by
  cases h with
  | object names parts =>
      refine ⟨?_, List.forall_mem_map.2 parts⟩
      rw [List.pairwise_map]
      refine (List.pairwise_map.1 names).imp fun hne => ?_
      simpa [sameName] using hne

/-- Entries taken from a field have distinct names, whether an object, a list of pairs or nothing is given. -/
theorem ensures_ofField {field : Payload} (h : field.WellFormed) : Ensures Sound (ofField field) := by
  unfold ofField
  intro entries hentries
  split at hentries
  · obtain rfl := Option.some.inj hentries
    exact sound_nil
  · split at hentries
    · obtain rfl := Option.some.inj hentries
      exact sound_object h
    · split at hentries
      · next items hitems =>
          exact ensures_putPairs (wellFormed_members h hitems) sound_nil 0 entries hentries
      · cases hentries

/-- The entries of the field and those beside it have distinct names together. -/
theorem ensures_collect {fields : List (String × Payload)} (h : (Payload.object fields).WellFormed)
    (known : List String) : Ensures Sound (collect known fields) := by
  intro entries hentries
  rw [collect, value?_andThen] at hentries
  obtain ⟨own, hown, heq⟩ := Option.bind_eq_some_iff.1 hentries
  obtain rfl := Option.some.inj heq
  have hparts : ∀ field ∈ fields, field.2.WellFormed := by
    cases h with
    | object names parts => exact parts
  have hfield : ((fields.lookup "extensions").getD .null).WellFormed := by
    cases hlookup : fields.lookup "extensions" with
    | none => exact .null
    | some payload => exact hparts _ (Dictionary.mem_of_get? hlookup)
  -- Entries beside the field are put after those within it, and may displace them.
  have hbeside : ∀ field ∈ fields.filter fun field => field.1 ∉ known, field.2.WellFormed :=
    fun field hfield => hparts field (List.mem_filter.1 hfield).1
  exact (ensures_ofField hfield own hown).foldl_put hbeside

/-- Reading the values keeps the names, in their order. -/
theorem names_of_read {read : Reader α} {entries : Entries} {values : Dictionary α}
    (h : (Extensions.read read entries).value? = some values) :
    entries.map Prod.fst = values.map fun entry => .text entry.1 := by
  induction entries generalizing values with
  | nil =>
      obtain rfl := Option.some.inj h
      rfl
  | cons entry rest ih =>
      simp only [Extensions.read, value?_seq, value?_map, value?_within, Option.bind_map,
        Option.bind_assoc, Option.bind_eq_some_iff, Option.map_eq_some_iff,
        Function.comp_apply] at h
      obtain ⟨name, hname, value, -, others, hothers, rfl⟩ := h
      have hentry : entry.1 = .text name := by
        unfold readName at hname
        split at hname
        · next text htext =>
            obtain rfl := Option.some.inj hname
            exact htext
        · cases hname
      rw [List.map_cons, List.map_cons, hentry, ih hothers]

/-- No two inputs that were read have one name. -/
theorem nodup_of_read {read : Reader α} {entries : Entries} (hentries : Sound entries)
    {values : Dictionary α} (h : (Extensions.read read entries).value? = some values) :
    values.keys.Nodup := by
  have hdistinct := hentries.distinct
  have hnames := names_of_read h
  rw [← List.pairwise_map (R := fun first second => sameName first second = false), hnames,
    List.pairwise_map] at hdistinct
  refine List.pairwise_map.2 (hdistinct.imp fun hne => ?_)
  simpa [sameName] using hne

/-- A record with further inputs is read from what has been collected. -/
theorem exists_of_value?_record {title : String} {names : List String} {read : Reader α}
    {ofFields : Reading (Dictionary α) → (String → Option Payload) → Reading β}
    {payload : Payload} (hpayload : payload.WellFormed) {value : β}
    (h : (record title names read ofFields payload).value? = some value) :
    ∃ fields entries, (Payload.object fields).WellFormed ∧ Sound entries ∧
      (ofFields ((Extensions.read read entries).within "extensions") (fieldOf? fields)).value? =
        some value := by
  unfold record at h
  split at h
  · rw [value?_andThen] at h
    obtain ⟨entries, hentries, hvalue⟩ := Option.bind_eq_some_iff.1 h
    exact ⟨_, entries, hpayload, ensures_collect hpayload _ entries hentries, hvalue⟩
  · cases h

/-! ### What is written -/

variable {read : Reader α} {write : α → Payload} {values : Dictionary α}

theorem read_written (h : ∀ entry ∈ values, read (write entry.2) = accepted entry.2) :
    Extensions.read read (values.map fun entry => (.text entry.1, write entry.2)) =
      accepted values := by
  induction values with
  | nil => rfl
  | cons entry rest ih =>
      rw [List.forall_mem_cons] at h
      simp only [List.map_cons, Extensions.read, readName, h.1, ih h.2, within_accepted,
        map_accepted, seq_accepted]

/-- What is written under the field is all that is collected, when every field beside it is a known one. -/
theorem collect_written {known : List String} {fields : List (String × Payload)}
    (hknown : ∀ field ∈ fields, field.1 ∈ known) :
    collect ("extensions" :: known)
      (("extensions", .object (values.map fun entry => (entry.1, write entry.2))) :: fields) =
      accepted (values.map fun entry => (.text entry.1, write entry.2)) := by
  have hbeside : ((("extensions", Payload.object (values.map fun entry => (entry.1, write entry.2)))
      :: fields).filter fun field => field.1 ∉ "extensions" :: known) = [] := by
    refine List.filter_eq_nil_iff.2 fun field hfield => ?_
    rcases List.mem_cons.1 hfield with rfl | hfield
    · simp
    · simp [hknown field hfield]
  have hfield : ofField (.object (values.map fun entry => (entry.1, write entry.2))) =
      accepted (values.map fun entry => (.text entry.1, write entry.2)) := by
    cases values with
    | nil => rfl
    | cons entry rest => simp [ofField, Payload.isVacant]
  rw [collect, hbeside, List.lookup_cons_self]
  show (ofField (.object _)).andThen _ = _
  rw [hfield]
  rfl

/-- A record that is written with its further inputs in their own field is read from its fields. -/
theorem record_written {title : String} {names : List String}
    {ofFields : Reading (Dictionary α) → (String → Option Payload) → Reading β}
    {fields : List (String × Payload)} (hknown : ∀ field ∈ fields, field.1 ∈ spellings names)
    (h : ∀ entry ∈ values, read (write entry.2) = accepted entry.2) :
    record title names read ofFields (.object
      (("extensions", .object (values.map fun entry => (entry.1, write entry.2))) :: fields)) =
      ofFields (accepted values) (fieldOf?
        (("extensions", .object (values.map fun entry => (entry.1, write entry.2))) :: fields)) := by
  rw [record, collect_written hknown, andThen_accepted, read_written h, within_accepted]

end Extensions

/-!
## Values that are carried by records

A value is carried by a record when it is turned into that record, the record is written as a document,
reading the document gives the record again, and the record is turned into the value that comes back.  Lists
of values, values by name and values that may be missing are carried part by part.
-/

variable {m : Type → Type} [Monad m] {α ρ : Type}

/-- How values are exchanged with records that are written and read. -/
structure Exchange (m : Type → Type) (α ρ : Type) where
  schema : Schema ρ
  ofValue : α → Except Failure ρ
  toValue : ρ → m α

/-- The schema writes the record as a document and reads it back. -/
structure Schema.Restores (schema : Schema ρ) (record : ρ) : Prop where
  isDocument : (schema.toPayload record).IsDocument
  read_toPayload : schema.read (schema.toPayload record) = accepted record

namespace Schema

variable {schema : Schema ρ}

theorem isDocument_list {records : List ρ} (h : ∀ record ∈ records, schema.Restores record) :
    (Payload.list (records.map schema.toPayload)).IsDocument :=
  .list (List.forall_mem_map.2 fun record hrecord => (h record hrecord).isDocument)

theorem listOf_toPayload {records : List ρ} (h : ∀ record ∈ records, schema.Restores record) :
    listOf schema.read (.list (records.map schema.toPayload)) = accepted records :=
  listOf_accepted fun record hrecord => (h record hrecord).read_toPayload

theorem isDocument_option {found : Option ρ}
    (h : ∀ record, found = some record → schema.Restores record) :
    (Payload.orNull schema.toPayload found).IsDocument :=
  Payload.isDocument_orNull fun record hrecord => (h record hrecord).isDocument

theorem optional_toPayload {found : Option ρ}
    (h : ∀ record, found = some record → schema.Restores record)
    (hnull : ∀ record, schema.toPayload record ≠ .null) (name : String) :
    optional name schema.read (some (.orNull schema.toPayload found)) = accepted found :=
  optional_accepted schema.toPayload (fun record hrecord => (h record hrecord).read_toPayload)
    hnull name

theorem isDocument_values {records : Dictionary ρ} (hnames : records.keys.Nodup)
    (h : ∀ entry ∈ records, schema.Restores entry.2) :
    (Payload.object (records.map fun entry => (entry.1, schema.toPayload entry.2))).IsDocument :=
  Payload.isDocument_dictionary schema.toPayload hnames fun entry hentry => (h entry hentry).isDocument

theorem dictionaryOf_toPayload {records : Dictionary ρ}
    (h : ∀ entry ∈ records, schema.Restores entry.2) :
    dictionaryOf schema.read
      (.object (records.map fun entry => (entry.1, schema.toPayload entry.2))) = accepted records :=
  dictionaryOf_accepted fun entry hentry => (h entry hentry).read_toPayload

end Schema

namespace Exchange

/-- The value is turned into the record, the record survives being written, and it is turned into the
value that comes back. -/
structure Carries (exchange : Exchange m α ρ) (value : α) (record : ρ) (back : α) : Prop where
  ofValue_eq : exchange.ofValue value = .ok record
  restores : exchange.schema.Restores record
  toValue_eq : exchange.toValue record = pure back

variable [LawfulMonad m] {exchange : Exchange m α ρ}

theorem bind_eq_pure {β γ : Type} {first : m β} {next : β → m γ} {middle : β} {result : γ}
    (hfirst : first = pure middle) (hnext : next middle = pure result) :
    first >>= next = pure result := by
  rw [hfirst, pure_bind, hnext]

/-- A list is exchanged when each of its values is. -/
theorem exists_list {values backs : List α}
    (h : List.Forall₂ (fun value back => ∃ record, exchange.Carries value record back)
      values backs) :
    ∃ records, values.mapM exchange.ofValue = .ok records ∧
      (∀ record ∈ records, exchange.schema.Restores record) ∧
      records.mapM exchange.toValue = pure backs := by
  induction h with
  | nil => exact ⟨[], rfl, by simp, by simp⟩
  | cons hfirst _ ih =>
      obtain ⟨record, hrecord⟩ := hfirst
      obtain ⟨records, hof, hrestores, hto⟩ := ih
      refine ⟨record :: records, ?_, List.forall_mem_cons.2 ⟨hrecord.restores, hrestores⟩, ?_⟩
      · rw [List.mapM_cons, hrecord.ofValue_eq, hof]
        rfl
      · rw [List.mapM_cons, hrecord.toValue_eq, hto, pure_bind, pure_bind]

theorem exists_option {found : Option α}
    (h : ∀ value, found = some value → ∃ record, exchange.Carries value record value) :
    ∃ record, found.mapM exchange.ofValue = .ok record ∧
      (∀ some_record, record = some some_record → exchange.schema.Restores some_record) ∧
      record.mapM exchange.toValue = pure found := by
  cases found with
  | none => exact ⟨none, rfl, by simp, rfl⟩
  | some value =>
      obtain ⟨record, hrecord⟩ := h value rfl
      refine ⟨some record, ?_, ?_, ?_⟩
      · rw [Option.mapM_some, hrecord.ofValue_eq]
        rfl
      · rintro _ ⟨⟩
        exact hrecord.restores
      · rw [Option.mapM_some, hrecord.toValue_eq, map_pure]

/-- A dictionary is exchanged value by value, under the names that it has. -/
theorem exists_dictionary {values : Dictionary α}
    (h : ∀ entry ∈ values, ∃ record, exchange.Carries entry.2 record entry.2) :
    ∃ records : Dictionary ρ,
      (values.mapM fun entry => do return (entry.1, ← exchange.ofValue entry.2)) = .ok records ∧
      (∀ entry ∈ records, exchange.schema.Restores entry.2) ∧
      (records.mapM fun entry => do return (entry.1, ← exchange.toValue entry.2)) = pure values ∧
      records.keys = values.keys := by
  -- Entries are converted from the first to the last; a name is passed through.
  induction values with
  | nil => exact ⟨[], rfl, by simp, by simp, rfl⟩
  | cons entry rest ih =>
      rw [List.forall_mem_cons] at h
      obtain ⟨⟨record, hrecord⟩, hrest⟩ := h
      obtain ⟨records, hof, hrestores, hto, hnames⟩ := ih hrest
      refine ⟨(entry.1, record) :: records, ?_,
        List.forall_mem_cons.2 ⟨hrecord.restores, hrestores⟩, ?_, ?_⟩
      · rw [List.mapM_cons, hrecord.ofValue_eq, hof]
        rfl
      · rw [List.mapM_cons, hrecord.toValue_eq, hto]
        simp only [pure_bind]
      · exact congrArg (entry.1 :: ·) hnames

end Exchange

end Appraisal
