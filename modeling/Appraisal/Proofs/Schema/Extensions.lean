import Appraisal.Proofs.Schema.Reading

/-!
# Further inputs that cannot be taken apart

The field of further inputs is taken apart before anything is checked.  It cannot be done when the field
has no members, or when an item of the list, behind pairs only, has no members or is a pair whose name
cannot be looked up.  The object that holds the field is then neither accepted nor refused.
-/

namespace Appraisal

open Reading

/-- The value of a field under one of the two spellings of its name. -/
def Payload.spelled? (name : String) : Payload → Option Payload
  | object fields => fieldOf? fields name
  | _ => none

namespace Extensions

/-! ## What stands in the way -/

/-- The name cannot be looked up. -/
def Unhashable : Payload → Prop
  | .list _ | .object _ => True
  | .decimal (.nan _ signaling _) => signaling = true
  | _ => False

/-- The item is a pair of a name that can be looked up and a value. -/
def IsPair (item : Payload) : Prop :=
  ∃ name value, members? item = some [name, value] ∧ ¬ Unhashable name

/-- The item has no members, or it is a pair whose name cannot be looked up. -/
def Obstructs (item : Payload) : Prop :=
  members? item = none ∨ ∃ name value, members? item = some [name, value] ∧ Unhashable name

/-- Some item stands in the way, and nothing but pairs comes before it. -/
def Obstructed (items : List Payload) : Prop :=
  ∃ before item after, items = before ++ item :: after ∧
    (∀ other ∈ before, IsPair other) ∧ Obstructs item

/-- The field of further inputs cannot be taken apart; what stands for nothing always can. -/
def Indivisible (field : Payload) : Prop :=
  match members? field with
  | some items => Obstructed items
  | none => field.isVacant = false

/-- The payload holds further inputs that cannot be taken apart. -/
def HoldsIndivisible (payload : Payload) : Prop :=
  ∃ field, payload.field? "extensions" = some field ∧ Indivisible field

/-- The failure of taking the further inputs of a payload apart. -/
def failure? (payload : Payload) : Option Failure :=
  (payload.field? "extensions").bind fun field => (ofField field).breakdown?

/-! ## Pairs -/

theorem not_obstructed_nil : ¬ Obstructed [] := by
  rintro ⟨before, item, after, hitems, -⟩
  simp at hitems

/-- An obstruction is met at the first item, or further behind when the first item is a pair. -/
theorem obstructed_cons_iff {item : Payload} {rest : List Payload} :
    Obstructed (item :: rest) ↔ Obstructs item ∨ IsPair item ∧ Obstructed rest := by
  constructor
  · rintro ⟨before, other, after, hitems, hbefore, hother⟩
    -- The obstructing item is the first one, or the first one stands before it.
    cases before with
    | nil =>
        obtain ⟨rfl, rfl⟩ := List.cons.inj hitems
        exact .inl hother
    | cons first others =>
        obtain ⟨rfl, rfl⟩ := List.cons.inj hitems
        rw [List.forall_mem_cons] at hbefore
        exact .inr ⟨hbefore.1, others, other, after, rfl, hbefore.2, hother⟩
  · rintro (hitem | ⟨hitem, before, other, after, rfl, hbefore, hother⟩)
    · exact ⟨[], item, rest, rfl, by simp, hitem⟩
    · exact ⟨item :: before, other, after, rfl, List.forall_mem_cons.2 ⟨hitem, hbefore⟩, hother⟩

theorem checkName_of_unhashable {name : Payload} (h : Unhashable name) :
    ∃ message, checkName name = .abandoned (.wrongKind message) := by
  unfold Unhashable at h
  split at h
  · exact ⟨_, rfl⟩
  · exact ⟨_, rfl⟩
  · subst h
    exact ⟨_, rfl⟩
  · exact h.elim

theorem checkName_of_not_unhashable {name : Payload} (h : ¬ Unhashable name) :
    checkName name = .accepted () := by
  unfold checkName
  split
  · exact absurd trivial h
  · exact absurd trivial h
  · exact absurd rfl h
  · rfl

theorem pairAt_pair {item name value : Payload} (h : members? item = some [name, value])
    (position : Nat) :
    pairAt position item = (checkName name).andThen fun _ => .accepted (name, value) := by
  simp only [pairAt, h]

theorem pairAt_of_obstructs {item : Payload} (h : Obstructs item) (position : Nat) :
    ∃ message, pairAt position item = .abandoned (.wrongKind message) := by
  rcases h with hmembers | ⟨name, value, hmembers, hname⟩
  · exact ⟨_, by simp only [pairAt, hmembers]; rfl⟩
  · obtain ⟨message, hcheck⟩ := checkName_of_unhashable hname
    rw [pairAt_pair hmembers, hcheck]
    exact ⟨message, rfl⟩

theorem pairAt_of_isPair {item : Payload} (h : IsPair item) (position : Nat) :
    ∃ pair, pairAt position item = .accepted pair := by
  obtain ⟨name, value, hmembers, hname⟩ := h
  rw [pairAt_pair hmembers, checkName_of_not_unhashable hname]
  exact ⟨(name, value), rfl⟩

theorem pairAt_refused {item : Payload} (hitem : ¬ Obstructs item) (hpair : ¬ IsPair item)
    (position : Nat) : ∃ issues, pairAt position item = .refused issues := by
  unfold pairAt
  split
  · next name value hmembers =>
      by_cases hname : Unhashable name
      · exact absurd (.inr ⟨name, value, hmembers, hname⟩) hitem
      · exact absurd ⟨name, value, hmembers, hname⟩ hpair
  · -- The item has members, but their number is not two.
    exact ⟨_, rfl⟩
  · next hmembers => exact absurd (.inl hmembers) hitem

/-- Pairs are stored one after the other until an item is none. -/
theorem putPairs_of_obstructed {items : List Payload} (h : Obstructed items) (entries : Entries)
    (position : Nat) :
    ∃ message, putPairs entries position items = .abandoned (.wrongKind message) := by
  -- What has been stored does not matter for what comes next, so the entries are arbitrary.
  induction items generalizing entries position with
  | nil => exact absurd h not_obstructed_nil
  | cons item rest ih =>
      rcases obstructed_cons_iff.1 h with hitem | ⟨hitem, hrest⟩
      · obtain ⟨message, hpair⟩ := pairAt_of_obstructs hitem position
        exact ⟨message, by rw [putPairs, hpair]; rfl⟩
      · obtain ⟨pair, hpair⟩ := pairAt_of_isPair hitem position
        obtain ⟨message, hmessage⟩ := ih hrest (put entries pair.1 pair.2) (position + 1)
        exact ⟨message, by rw [putPairs, hpair, ← hmessage]; rfl⟩

theorem breakdown?_putPairs {items : List Payload} (h : ¬ Obstructed items) (entries : Entries)
    (position : Nat) : (putPairs entries position items).breakdown? = none := by
  induction items generalizing entries position with
  | nil => rfl
  | cons item rest ih =>
      rw [obstructed_cons_iff, not_or, not_and] at h
      rw [putPairs]
      by_cases hitem : IsPair item
      · obtain ⟨pair, hpair⟩ := pairAt_of_isPair hitem position
        rw [hpair]
        exact ih (h.2 hitem) _ _
      · -- A refusal ends the reading before the rest is looked at.
        obtain ⟨issues, hissues⟩ := pairAt_refused h.1 hitem position
        rw [hissues]
        rfl

/-! ## Fields -/

/-- The names of an object are texts, and the members of a text are texts. -/
theorem not_obstructed_names (fields : List (String × Payload)) :
    ¬ Obstructed (fields.map fun field => .text field.1) := by
  rintro ⟨before, item, after, hitems, -, hitem⟩
  have hmem : item ∈ fields.map fun field => Payload.text field.1 := by simp [hitems]
  obtain ⟨field, -, rfl⟩ := List.mem_map.1 hmem
  rcases hitem with hmembers | ⟨name, value, hmembers, hname⟩
  · cases hmembers
  · have hchar : name ∈ field.1.toList.map fun c => Payload.text (String.singleton c) := by
      simp [Option.some.inj hmembers]
    obtain ⟨c, -, rfl⟩ := List.mem_map.1 hchar
    exact hname

theorem members?_of_isVacant {field : Payload} (hvacant : field.isVacant = true)
    {items : List Payload} (h : members? field = some items) : items = [] := by
  cases field with
  | list members =>
      obtain rfl := Option.some.inj h
      simpa [Payload.isVacant] using hvacant
  | object fields =>
      obtain rfl := Option.some.inj h
      simpa [Payload.isVacant] using hvacant
  | text value =>
      obtain rfl := Option.some.inj h
      simpa [Payload.isVacant] using hvacant
  | _ => cases h

theorem isVacant_of_indivisible {field : Payload} (h : Indivisible field) :
    field.isVacant = false := by
  unfold Indivisible at h
  split at h
  · next items hmembers =>
      cases hvacant : field.isVacant with
      | false => rfl
      | true =>
          rw [members?_of_isVacant hvacant hmembers] at h
          exact absurd h not_obstructed_nil
  · exact h

/-- A field that cannot be taken apart abandons the reading with a failure of its kind. -/
theorem ofField_of_indivisible {field : Payload} (h : Indivisible field) :
    ∃ message, ofField field = .abandoned (.wrongKind message) := by
  have hvacant := isVacant_of_indivisible h
  unfold Indivisible at h
  unfold ofField
  rw [hvacant, if_neg Bool.false_ne_true]
  -- Something with members that are obstructed, or without members altogether.
  split at h
  · next items hmembers =>
      split
      · -- An object is never read as a list of its names, and that list would be harmless.
        next fields =>
          obtain rfl := Option.some.inj hmembers
          exact absurd h (not_obstructed_names fields)
      · rw [hmembers]
        exact putPairs_of_obstructed h [] 0
  · next hmembers =>
      split
      · cases hmembers
      · rw [hmembers]
        exact ⟨_, rfl⟩

theorem breakdown?_ofField {field : Payload} (h : ¬ Indivisible field) :
    (ofField field).breakdown? = none := by
  unfold Indivisible at h
  unfold ofField
  split
  · rfl
  · next hvacant =>
      split at h
      · next items hmembers =>
          split
          · rfl
          · rw [hmembers]
            exact breakdown?_putPairs h [] 0
      · exact absurd (by simpa using hvacant) h

/-! ## Records -/

theorem failure?_eq_none_iff {payload : Payload} :
    failure? payload = none ↔ ¬ HoldsIndivisible payload := by
  unfold failure? HoldsIndivisible
  cases payload.field? "extensions" with
  | none => simp
  | some field =>
      by_cases h : Indivisible field
      · obtain ⟨message, hmessage⟩ := ofField_of_indivisible h
        simp [h, hmessage, breakdown?]
      · simp [h, breakdown?_ofField h]


@[simp] theorem failure?_null : failure? .null = none := rfl

theorem wrongKind_of_failure? {payload : Payload} {failure : Failure}
    (h : failure? payload = some failure) : ∃ message, failure = .wrongKind message := by
  obtain ⟨field, -, hfield⟩ := Option.bind_eq_some_iff.1 h
  by_cases hindivisible : Indivisible field
  · obtain ⟨message, hmessage⟩ := ofField_of_indivisible hindivisible
    rw [hmessage] at hfield
    exact ⟨message, (Option.some.inj hfield).symm⟩
  · rw [breakdown?_ofField hindivisible] at hfield
    cases hfield

variable {α β : Type} {read : Reader α}

@[simp] theorem breakdown?_readName (name : Payload) : (readName name).breakdown? = none := by
  cases name <;> rfl

theorem breakdown?_read (h : ∀ payload, (read payload).breakdown? = none) (entries : Entries) :
    (Extensions.read read entries).breakdown? = none := by
  induction entries with
  | nil => rfl
  | cons entry rest ih => simp [Extensions.read, h, ih]

/-- Collecting breaks down with the field, and with nothing else. -/
theorem breakdown?_collect (known : List String) (fields : List (String × Payload)) :
    (collect known fields).breakdown? = failure? (.object fields) := by
  unfold collect
  rw [breakdown?_andThen fun _ => breakdown?_accepted _]
  cases hfield : fields.lookup "extensions" with
  | none =>
      simp only [failure?, Payload.field?, hfield]
      rfl
  | some field => simp [failure?, Payload.field?, hfield]

/-- Taking the further inputs apart is all that can end the reading of a record. -/
theorem breakdown?_record {title : String} {names : List String}
    {ofFields : Reading (Dictionary α) → (String → Option Payload) → Reading β}
    (hread : ∀ payload, (read payload).breakdown? = none)
    (hfields : ∀ extensions field, extensions.breakdown? = none →
      (ofFields extensions field).breakdown? = none) (payload : Payload) :
    (record title names read ofFields payload).breakdown? = failure? payload := by
  unfold record
  split
  · rw [breakdown?_andThen fun entries =>
      hfields _ _ (by rw [breakdown?_within, breakdown?_read hread])]
    exact breakdown?_collect _ _
  · next hpayload =>
    cases payload <;> first | rfl | exact absurd rfl (hpayload _)

theorem value?_record {title : String} {names : List String}
    {ofFields : Reading (Dictionary α) → (String → Option Payload) → Reading β}
    {payload : Payload} {value : β}
    (h : (record title names read ofFields payload).value? = some value) :
    ∃ fields entries, payload = .object fields ∧
      (ofFields ((Extensions.read read entries).within "extensions") (fieldOf? fields)).value? =
        some value := by
  unfold record at h
  split at h
  · rw [value?_andThen] at h
    obtain ⟨entries, -, hvalue⟩ := Option.bind_eq_some_iff.1 h
    exact ⟨_, entries, rfl, hvalue⟩
  · cases h

theorem ensures_read_of {property : α → Prop} {entries : Entries}
    (h : ∀ entry ∈ entries, Ensures property (read entry.2)) :
    Ensures (fun values => ∀ entry ∈ values, property entry.2) (Extensions.read read entries) := by
  -- The entries are read in order, and all of them are read or none.
  induction entries with
  | nil =>
      intro values hvalues
      obtain rfl := Option.some.inj hvalues
      exact fun entry hentry => by cases hentry
  | cons entry rest ih =>
      intro values hvalues
      rw [List.forall_mem_cons] at h
      simp only [Extensions.read, value?_seq, value?_map, value?_within, Option.bind_map,
        Option.bind_assoc, Option.bind_eq_some_iff, Option.map_eq_some_iff,
        Function.comp_apply] at hvalues
      obtain ⟨name, -, value, hvalue, others, hothers, rfl⟩ := hvalues
      exact List.forall_mem_cons.2 ⟨h.1 value hvalue, ih h.2 others hothers⟩

/-- Values read one by one have the property that each of them has. -/
theorem ensures_read {property : α → Prop} (h : ∀ payload, Ensures property (read payload))
    (entries : Entries) :
    Ensures (fun values => ∀ entry ∈ values, property entry.2) (Extensions.read read entries) :=
  ensures_read_of fun entry _ => h entry.2

end Extensions

/-! ## The user input and the model -/

@[simp] theorem ValuationRecord.breakdown?_read (payload : Payload) :
    (read payload).breakdown? = Extensions.failure? payload := by
  refine Extensions.breakdown?_record NumberRecord.breakdown?_read (fun extensions field h => ?_)
    payload
  simp [h, readInput]

@[simp] theorem PropertyRecord.breakdown?_read (payload : Payload) :
    (read payload).breakdown? = Extensions.failure? payload := by
  refine Extensions.breakdown?_record NumberRecord.breakdown?_read (fun extensions field h => ?_)
    payload
  simp [h, ValuationRecord.readInput]

namespace UserInputRecord

/-- The property or the valuation holds further inputs that cannot be taken apart. -/
def HoldsIndivisible (payload : Payload) : Prop :=
  ∃ part ∈ ["propertyInfo", "valuationInputs"], ∃ inputs,
    payload.spelled? part = some inputs ∧ Extensions.HoldsIndivisible inputs

/-- The failure of taking further inputs apart, those of the property first. -/
def failure? (payload : Payload) : Option Failure :=
  ((payload.spelled? "propertyInfo").bind Extensions.failure?).or
    ((payload.spelled? "valuationInputs").bind Extensions.failure?)

@[simp] theorem breakdown?_read (payload : Payload) :
    (read payload).breakdown? = failure? payload := by
  cases payload with
  | object fields => simp [read, record, failure?, Payload.spelled?]
  | _ => rfl

theorem failure?_eq_none_iff {payload : Payload} :
    failure? payload = none ↔ ¬ HoldsIndivisible payload := by
  have hpart (part : String) : (payload.spelled? part).bind Extensions.failure? = none ↔
      ¬ ∃ inputs, payload.spelled? part = some inputs ∧ Extensions.HoldsIndivisible inputs := by
    rw [Option.bind_eq_none_iff, not_exists]
    exact forall_congr' fun inputs => by rw [Extensions.failure?_eq_none_iff, not_and]
  simp only [failure?, HoldsIndivisible, Option.or_eq_none_iff, hpart, List.mem_cons,
    List.not_mem_nil, or_false, exists_eq_or_imp, exists_eq_left, not_or]

theorem wrongKind_of_failure? {payload : Payload} {failure : Failure}
    (h : failure? payload = some failure) : ∃ message, failure = .wrongKind message := by
  have hpart {part : String} (h : (payload.spelled? part).bind Extensions.failure? = some failure) :
      ∃ message, failure = .wrongKind message := by
    obtain ⟨inputs, -, hinputs⟩ := Option.bind_eq_some_iff.1 h
    exact Extensions.wrongKind_of_failure? hinputs
  rcases Option.or_eq_some_iff.1 h with hproperty | ⟨-, hvaluation⟩
  · exact hpart hproperty
  · exact hpart hvaluation

end UserInputRecord

namespace ModelRecord

/-- The user input of the model holds further inputs that cannot be taken apart. -/
def HoldsIndivisible (payload : Payload) : Prop :=
  ∃ content input, payload.spelled? "customModel" = some content ∧
    content.spelled? "userInput" = some input ∧ UserInputRecord.HoldsIndivisible input

/-- The failure of taking further inputs apart. -/
def failure? (payload : Payload) : Option Failure :=
  ((payload.spelled? "customModel").bind (Payload.spelled? "userInput")).bind
    UserInputRecord.failure?

theorem breakdown?_readContent (payload : Payload) :
    (ContentRecord.read payload).breakdown? =
      (payload.spelled? "userInput").bind UserInputRecord.failure? := by
  cases payload with
  | object fields => simp [ContentRecord.read, record, Payload.spelled?]
  | _ => rfl

theorem breakdown?_readAs (recordName : String) (payload : Payload) :
    (readAs recordName payload).breakdown? = failure? payload := by
  cases payload with
  | object fields =>
      simp [readAs, record, ofFields, failure?, Payload.spelled?, breakdown?_readContent,
        Option.bind_assoc]
  | _ => rfl

theorem breakdown?_readDirectCap (payload : Payload) :
    (readDirectCap payload).breakdown? = failure? payload := by
  have hdirect (model : ModelRecord) : model.directCap.breakdown? = none := by
    unfold directCap
    repeat' split
    · rfl
    · rfl
    · exact breakdown?_orFault _ _ _
  rw [readDirectCap, breakdown?_andThen hdirect, breakdown?_readAs]

theorem failure?_eq_none_iff {payload : Payload} :
    failure? payload = none ↔ ¬ HoldsIndivisible payload := by
  simp only [failure?, HoldsIndivisible, Option.bind_eq_none_iff, Option.bind_eq_some_iff,
    UserInputRecord.failure?_eq_none_iff]
  constructor
  · rintro h ⟨content, input, hcontent, hinput, hholds⟩
    exact h input ⟨content, hcontent, hinput⟩ hholds
  · rintro h input ⟨content, hcontent, hinput⟩ hholds
    exact h ⟨content, input, hcontent, hinput, hholds⟩

theorem wrongKind_of_failure? {payload : Payload} {failure : Failure}
    (h : failure? payload = some failure) : ∃ message, failure = .wrongKind message := by
  obtain ⟨input, -, hinput⟩ := Option.bind_eq_some_iff.1 h
  exact UserInputRecord.wrongKind_of_failure? hinput

end ModelRecord
end Appraisal
