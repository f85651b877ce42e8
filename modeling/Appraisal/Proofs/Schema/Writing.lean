import Appraisal.Model.Basic
import Appraisal.Proofs.Decimal.Text
import Appraisal.Proofs.Moment.Text
import Appraisal.Proofs.Schema.Conversion

/-!
# Writing and reading single values

Options are found by the names under which they are written, and every other single value by its own form.
-/

namespace Appraisal

/-!
## Options are told apart by their names

Every set of options that is written down and read back lists all of its options, each under a name of its own.
-/

namespace Named

/-- Every option is offered and found by its name. -/
class Faithful (α : Type) [Named α] : Prop where
  ofName?_name : ∀ option : α, ofName? (name option) = some option

/-- No two members of a vocabulary have the same name. -/
theorem name_injective {α : Type} [Named α] [Faithful α] : Function.Injective (name : α → String) := by
  intro first second h
  have hfound := Faithful.ofName?_name first
  rw [h, Faithful.ofName?_name] at hfound
  exact (Option.some.inj hfound).symm

instance : Faithful FieldValueType := ⟨fun option => by cases option <;> rfl⟩

instance : Faithful FinancialModelType := ⟨fun option => by cases option <;> rfl⟩

instance : Faithful FootnoteCategory := ⟨fun option => by cases option <;> rfl⟩

instance : Faithful Operation := ⟨fun option => by cases option <;> rfl⟩

instance : Faithful OutputFormat := ⟨fun option => by cases option <;> rfl⟩

instance : Faithful Severity := ⟨fun option => by cases option <;> rfl⟩

instance : Faithful SourceType := ⟨fun option => by cases option <;> rfl⟩

end Named

/-!
## What is written is read back

A payload that is written from a record is a document: its numbers are finite floating-point numbers and
integers, and the fields of an object have distinct names.  Each kind of single value is read back from the
form in which it is written, as long as it passes the checks of its kind; and whatever has been read passes
them.
-/

open Reading

namespace Payload

/-- The payload is a document of texts, truth values, integers and finite floating-point numbers. -/
inductive IsDocument : Payload → Prop
  | null : IsDocument null
  | bool (value : Bool) : IsDocument (bool value)
  | int (value : Int) : IsDocument (int value)
  | float {value : Binary64} (finite : value.isFinite = true) : IsDocument (float value)
  | text (value : String) : IsDocument (text value)
  | list {items : List Payload} (parts : ∀ item ∈ items, IsDocument item) : IsDocument (list items)
  | object {fields : List (String × Payload)} (names : (fields.map Prod.fst).Nodup)
      (parts : ∀ field ∈ fields, IsDocument field.2) : IsDocument (object fields)

/-- The exact numbers of the payload lie within the range of texts, and no object of it has two fields of
one name. -/
inductive WellFormed : Payload → Prop
  | null : WellFormed null
  | bool (value : Bool) : WellFormed (bool value)
  | int {value : Int} (digits : (Text.digitCount value.natAbs : Int) ≤ Decimal.maxTextExponent + 1) :
      WellFormed (int value)
  | float (value : Binary64) : WellFormed (float value)
  | decimal {value : Decimal} (textual : value.Textual) : WellFormed (decimal value)
  | text (value : String) : WellFormed (text value)
  | list {items : List Payload} (parts : ∀ item ∈ items, WellFormed item) : WellFormed (list items)
  | object {fields : List (String × Payload)} (names : (fields.map Prod.fst).Nodup)
      (parts : ∀ field ∈ fields, WellFormed field.2) : WellFormed (object fields)

theorem isDocument_orNull {α : Type} {write : α → Payload} {found : Option α}
    (h : ∀ value, found = some value → (write value).IsDocument) :
    (orNull write found).IsDocument := by
  cases found with
  | none => exact .null
  | some value => exact h value rfl

theorem isDocument_ofText? (found : Option String) : (ofText? found).IsDocument :=
  isDocument_orNull fun value _ => .text value

theorem isDocument_ofFloat? {found : Option Binary64}
    (h : ∀ x, found = some x → x.isFinite = true) : (ofFloat? found).IsDocument :=
  isDocument_orNull fun x hx => .float (h x hx)

theorem isDocument_ofNat? (found : Option Nat) : (ofNat? found).IsDocument :=
  isDocument_orNull fun n _ => .int n

theorem isDocument_texts (texts : List String) : (list (texts.map text)).IsDocument :=
  .list (List.forall_mem_map.2 fun value _ => .text value)

/-- A dictionary is a document when its values are, as its names are distinct. -/
theorem isDocument_dictionary {α : Type} (write : α → Payload) {values : Dictionary α}
    (hnames : values.keys.Nodup) (h : ∀ entry ∈ values, (write entry.2).IsDocument) :
    (object (values.map fun entry => (entry.1, write entry.2))).IsDocument := by
  refine .object ?_ (List.forall_mem_map.2 h)
  rwa [List.map_map]

theorem WellFormed.field {fields : List (String × Payload)} {name : String} {payload : Payload}
    (h : (Payload.object fields).WellFormed) (hfield : fieldOf? fields name = some payload) :
    payload.WellFormed := by
  cases h with
  | object names parts =>
      unfold fieldOf? at hfield
      rcases Option.or_eq_some_iff.1 hfield with hname | ⟨-, hname⟩
      · exact parts _ (Dictionary.mem_of_get? hname)
      · exact parts _ (Dictionary.mem_of_get? hname)

theorem WellFormed.item {items : List Payload} {item : Payload} (h : (Payload.list items).WellFormed)
    (hitem : item ∈ items) : item.WellFormed := by
  cases h with
  | list parts => exact parts item hitem

end Payload

namespace Reading

variable {α β : Type}

/-! ### Accepted parts -/

@[simp] theorem within_accepted (step : String) (value : α) :
    (accepted value).within step = accepted value := rfl

@[simp] theorem map_accepted (f : α → β) (value : α) :
    f <$> accepted value = accepted (f value) := rfl

@[simp] theorem seq_accepted (f : α → β) (value : α) :
    accepted f <*> accepted value = accepted (f value) := rfl

@[simp] theorem andThen_accepted (value : α) (next : α → Reading β) :
    (accepted value).andThen next = next value := rfl

variable {read : Reader α}

/-- A required field is read when its payload is. -/
theorem required_accepted {payload : Payload} {value : α} (h : read payload = accepted value)
    (name : String) : required name read (some payload) = accepted value := by
  rw [required, h, within_accepted]

theorem orUsual_accepted {payload : Payload} {value : α} (h : read payload = accepted value)
    (name : String) (usual : α) : orUsual name read usual (some payload) = accepted value := by
  rw [orUsual, h, within_accepted]

/-- An optional value is read as it was written: nothing as null, anything else as itself. -/
theorem orNull_accepted (write : α → Payload) {found : Option α}
    (hread : ∀ value, found = some value → read (write value) = accepted value)
    (hnull : ∀ value, write value ≠ .null) :
    orNull read (.orNull write found) = accepted found := by
  cases found with
  | none => rfl
  | some value =>
      show orNull read (write value) = _
      unfold orNull
      split
      · next h => exact absurd h (hnull value)
      · rw [hread value rfl, map_accepted]

theorem optional_accepted (write : α → Payload) {found : Option α}
    (hread : ∀ value, found = some value → read (write value) = accepted value)
    (hnull : ∀ value, write value ≠ .null) (name : String) :
    optional name read (some (.orNull write found)) = accepted found :=
  orUsual_accepted (orNull_accepted write hread hnull) name none

/-- A list is read item by item as it was written. -/
theorem itemsFrom_accepted {write : α → Payload} {values : List α}
    (h : ∀ value ∈ values, read (write value) = accepted value) (position : Nat) :
    itemsFrom read position (values.map write) = accepted values := by
  induction values generalizing position with
  | nil => rfl
  | cons value rest ih =>
      rw [List.forall_mem_cons] at h
      simp [itemsFrom, h.1, ih h.2]

theorem listOf_accepted {write : α → Payload} {values : List α}
    (h : ∀ value ∈ values, read (write value) = accepted value) :
    listOf read (.list (values.map write)) = accepted values :=
  itemsFrom_accepted h 0

/-- A dictionary is read value by value as it was written. -/
theorem dictionaryOf_accepted {write : α → Payload} {values : Dictionary α}
    (h : ∀ entry ∈ values, read (write entry.2) = accepted entry.2) :
    dictionaryOf read (.object (values.map fun entry => (entry.1, write entry.2))) =
      accepted values := by
  show entries read _ = _
  induction values with
  | nil => rfl
  | cons entry rest ih =>
      rw [List.forall_mem_cons] at h
      simp [entries, h.1, ih h.2]

theorem orFault_accepted {test : Bool} (h : test = true) (fault : Fault) (value : α) :
    orFault test fault value = accepted value :=
  if_pos h

end Reading

namespace Schema

/-! ### Single values -/

/-- A text that is not empty passes the check of its field. -/
theorem read_nonEmptyText {value : String} (h : value ≠ "") :
    nonEmptyText (.text value) = accepted value :=
  orFault_accepted (decide_eq_true h) _ value

theorem ensures_nonEmptyText (payload : Payload) :
    Ensures (fun value => value ≠ "") (nonEmptyText payload) := by
  intro value h
  rw [nonEmptyText, value?_andThen] at h
  obtain ⟨_, -, hvalue⟩ := Option.bind_eq_some_iff.1 h
  obtain ⟨hne, rfl⟩ := orFault_eq_some hvalue
  exact of_decide_eq_true hne

theorem read_textUpTo {most : Nat} {value : String} (h : value.toList.length ≤ most) :
    textUpTo most (.text value) = accepted value :=
  orFault_accepted (decide_eq_true h) _ value

theorem ensures_textUpTo {most : Nat} (payload : Payload) :
    Ensures (fun value => value.toList.length ≤ most) (textUpTo most payload) := by
  intro value h
  rw [textUpTo, value?_andThen] at h
  obtain ⟨_, -, hvalue⟩ := Option.bind_eq_some_iff.1 h
  obtain ⟨hshort, rfl⟩ := orFault_eq_some hvalue
  exact of_decide_eq_true hshort

theorem optional_text (name : String) (found : Option String) :
    optional name Schema.text (some (.ofText? found)) = accepted found :=
  optional_accepted .text (fun _ _ => rfl) nofun name

/-- A member of a vocabulary is read from its name. -/
theorem read_option {α : Type} [Named α] [Named.Faithful α] (value : α) :
    option α (Named.toPayload value) = accepted value := by
  simp only [option, Named.toPayload, Named.ofPayload?, Named.Faithful.ofName?_name]

theorem optional_option {α : Type} [Named α] [Named.Faithful α] (name : String) (found : Option α) :
    optional name (Schema.option α) (some (.orNull Named.toPayload found)) = accepted found :=
  optional_accepted Named.toPayload (fun value _ => read_option value) nofun name

theorem listOf_text (texts : List String) :
    listOf Schema.text (.list (texts.map .text)) = accepted texts :=
  listOf_accepted fun _ _ => rfl

/-- A valid moment is read from either of the texts written for it. -/
theorem read_moment {moment : Moment} (h : moment.Valid) :
    Schema.moment (.text moment.isoText) = accepted moment ∧
      Schema.moment (.text moment.zuluText) = accepted moment := by
  unfold Schema.moment
  rw [Moment.ofPayload_isoText h, Moment.ofPayload_zuluText h]
  exact ⟨rfl, rfl⟩

theorem ensures_moment (payload : Payload) : Ensures Moment.Valid (Schema.moment payload) := by
  intro moment h
  unfold Schema.moment at h
  cases hread : Moment.ofPayload payload with
  | error fault =>
      rw [hread] at h
      cases h
  | ok value =>
      rw [hread] at h
      obtain rfl := Option.some.inj h
      exact Moment.valid_ofPayload hread

theorem read_positiveInteger {n : Int} (h : 0 < n) : positiveInteger (.int n) = accepted n :=
  orFault_accepted (decide_eq_true h) _ n

theorem optional_positiveInteger {found : Option Int} (h : ∀ n, found = some n → 0 < n)
    (name : String) : optional name positiveInteger (some (.ofInt? found)) = accepted found :=
  optional_accepted .int (fun n hn => read_positiveInteger (h n hn)) nofun name

theorem ensures_positiveInteger (payload : Payload) :
    Ensures (fun n => 0 < n) (positiveInteger payload) := by
  intro n h
  rw [positiveInteger, value?_andThen] at h
  obtain ⟨_, -, hn⟩ := Option.bind_eq_some_iff.1 h
  obtain ⟨hpos, rfl⟩ := orFault_eq_some hn
  exact of_decide_eq_true hpos

theorem read_natural (n : Nat) : natural (.int n) = accepted n :=
  orFault_accepted (decide_eq_true (Int.natCast_nonneg n)) (.atLeast 0) _

theorem optional_natural (name : String) (found : Option Nat) :
    optional name natural (some (.ofNat? found)) = accepted found :=
  optional_accepted (fun n : Nat => .int n) (fun n _ => read_natural n) nofun name

theorem read_positiveReal {x : Binary64} (h : isAbove x 0 = true) :
    positiveReal (.float x) = accepted x :=
  orFault_accepted h _ x

theorem ensures_positiveReal (payload : Payload) :
    Ensures (fun x => isAbove x 0 = true) (positiveReal payload) := by
  intro x h
  rw [positiveReal, value?_andThen] at h
  obtain ⟨_, -, hx⟩ := Option.bind_eq_some_iff.1 h
  obtain ⟨habove, rfl⟩ := orFault_eq_some hx
  exact habove

theorem optional_nonNegativeReal {found : Option Binary64}
    (h : ∀ x, found = some x → isAtLeast x 0 = true) (name : String) :
    optional name nonNegativeReal (some (.ofFloat? found)) = accepted found :=
  optional_accepted .float (fun x hx => orFault_accepted (h x hx) _ x) nofun name

/-- A share is read from its number. -/
theorem read_share {x : Binary64} (h : IsShare x) : share (.float x) = accepted x := by
  show (orFault (isAtMost x 1) (.atMost 1) x).andThen _ = _
  rw [orFault_accepted h.1, andThen_accepted, orFault_accepted h.2]

theorem optional_share {found : Option Binary64} (h : ∀ x, found = some x → IsShare x)
    (name : String) : optional name share (some (.ofFloat? found)) = accepted found :=
  optional_accepted .float (fun x hx => read_share (h x hx)) nofun name

/-- A number between zero and one is finite. -/
theorem isFinite_of_isShare {x : Binary64} (h : IsShare x) : x.isFinite = true := by
  obtain ⟨hmost, hleast⟩ := h
  cases x with
  | finite negative significand scale => rfl
  | infinite negative => cases negative <;> (revert hmost hleast; decide)
  | nan =>
      revert hmost
      decide

/-! ### Decimal numbers -/

/-- The number is finite and its digits lie within the range of texts. -/
def Exact (x : Decimal) : Prop :=
  x.isFinite = true ∧ x.Textual

theorem read_decimal {x : Decimal} (h : x.isFinite = true) :
    decimal (.decimal x) = accepted x :=
  orFault_accepted h _ x

/-- An exact number is read from its text. -/
theorem read_decimalText {x : Decimal} (h : Exact x) :
    decimal (.text x.toText) = accepted x := by
  have hany : anyDecimal (.text x.toText) = accepted x := by
    simp only [anyDecimal, Decimal.ofText?_toText h.1 h.2]
  rw [decimal, hany, andThen_accepted, orFault_accepted h.1]

theorem optional_decimal {found : Option Decimal} (h : ∀ x, found = some x → x.isFinite = true)
    (name : String) : optional name decimal (some (.ofDecimal? found)) = accepted found :=
  optional_accepted .decimal (fun x hx => read_decimal (h x hx)) nofun name

theorem orNull_decimalText {found : Option Decimal} (h : ∀ x, found = some x → Exact x) :
    orNull decimal (.ofText? (found.map Decimal.toText)) = accepted found := by
  have hwrite : Payload.ofText? (found.map Decimal.toText) =
      .orNull (fun x => .text x.toText) found := by
    cases found <;> rfl
  rw [hwrite]
  exact orNull_accepted _ (fun x hx => read_decimalText (h x hx)) nofun

theorem optional_decimalText {found : Option Decimal} (h : ∀ x, found = some x → Exact x)
    (name : String) :
    optional name decimal (some (.ofText? (found.map Decimal.toText))) = accepted found :=
  orUsual_accepted (orNull_decimalText h) name none

/-- Whatever is read from a written payload can be written as a text. -/
theorem ensures_exact {payload : Payload} (hpayload : payload.WellFormed) :
    Ensures Exact (decimal payload) := by
  intro x h
  rw [decimal, value?_andThen] at h
  obtain ⟨_, hany, hx⟩ := Option.bind_eq_some_iff.1 h
  obtain ⟨hfinite, rfl⟩ := orFault_eq_some hx
  refine ⟨hfinite, ?_⟩
  -- A decimal and an integer are exact as they are; the others are exact because a text was read.
  cases hpayload with
  | decimal textual =>
      obtain rfl := Option.some.inj hany
      exact textual
  | int digits =>
      obtain rfl := Option.some.inj hany
      exact Decimal.textual_ofInt digits
  | float value =>
      simp only [anyDecimal] at hany
      split at hany
      · next hread =>
          obtain rfl := Option.some.inj hany
          exact Decimal.textual_of_ofChars? hread
      · cases hany
  | text value =>
      simp only [anyDecimal] at hany
      split at hany
      · next hread =>
          obtain rfl := Option.some.inj hany
          exact Decimal.textual_of_ofChars? hread
      · cases hany
  | null => cases hany
  | bool value => cases hany
  | list parts => cases hany
  | object names parts => cases hany

end Schema

end Appraisal
