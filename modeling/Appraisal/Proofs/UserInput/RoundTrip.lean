import Appraisal.Proofs.UserInput.Recordable

/-!
# The user input survives being written and read

A user input whose parts can be recorded is carried by a record: the record is written as a document, which
is read back as the same record and turned into the same user input.  That covers every user input that
was read from a payload; an identifier that has been drawn is kept from then on.
-/

namespace Appraisal

open Reading Schema

/-! ## Numbers -/

namespace NumberRecord

/-- How numbers are exchanged with their records. -/
def exchange : Exchange (Except Failure) SourcedValue NumberRecord :=
  { schema, ofValue, toValue }

theorem number_ofDecimal? {value : Option Decimal}
    (h : ∀ x, value = some x → x.isFinite = true) (source : SourceReference) :
    SourcedValue.number { value := .ofDecimal? value, source } = value := by
  cases value with
  | none => rfl
  | some x =>
      show Payload.finiteOnly x = some x
      rw [Payload.finiteOnly, if_pos (h x rfl)]

/-- A sourced value comes back as it was. -/
theorem carries {sourced : SourcedValue} (h : sourced.Recordable) :
    ∃ record, exchange.Carries sourced record sourced := by
  obtain ⟨⟨value, hgiven, hvalue⟩, hsource⟩ := h
  obtain ⟨record, hrecord⟩ := hsource.carries
  obtain ⟨payload, source⟩ := sourced
  -- A recordable value is a finite number or missing, and both are kept by the record.
  obtain rfl : payload = .ofDecimal? value := hgiven
  have hfinite (x : Decimal) (hx : value = some x) : x.isFinite = true := (hvalue x hx).1
  refine ⟨{ value, source := record },
    { ofValue_eq := ?ofValue
      restores := { isDocument := ?document, read_toPayload := ?read }
      toValue_eq := ?toValue }⟩
  case ofValue =>
    refine bind_eq_ok.2 ⟨record, hrecord.ofValue_eq, ?_⟩
    rw [number_ofDecimal? hfinite, ofFields, optional_decimal hfinite]
    rfl
  case document =>
    refine .object (by simp) ?_
    simp only [List.forall_mem_cons]
    exact ⟨Payload.isDocument_ofText? _, hrecord.restores.isDocument, List.forall_mem_nil _⟩
  case read =>
    have hread : Reading.required "source" SourceRecord.read (some record.toPayload) =
        accepted record := required_accepted hrecord.restores.read_toPayload _
    show ofFields (some (.ofText? (value.map Decimal.toText)))
      (Reading.required "source" SourceRecord.read (some record.toPayload)) = _
    rw [ofFields, optional_decimalText hvalue, hread]
    rfl
  case toValue =>
    exact bind_eq_ok.2 ⟨source, hrecord.toValue_eq, rfl⟩

theorem toPayload_ne_null (number : NumberRecord) : number.toPayload ≠ .null :=
  Payload.noConfusion

theorem optional_toPayload {found : Option NumberRecord}
    (h : ∀ number, found = some number → schema.Restores number) (name : String) :
    optional name read (some (.orNull toPayload found)) = accepted found :=
  Schema.optional_toPayload h toPayload_ne_null name

/-- A record with further inputs is read as it was written, when no field of it is taken for one of them. -/
theorem record_written {β : Type} {title : String} {names : List String}
    {ofFields : Reading (Dictionary NumberRecord) → (String → Option Payload) → Reading β}
    {numbers : Dictionary NumberRecord} {fields : List (String × Payload)}
    (hknown : ∀ field ∈ fields, field.1 ∈ Extensions.spellings names)
    (h : ∀ entry ∈ numbers, schema.Restores entry.2) :
    Extensions.record title names read ofFields
      (.object (("extensions", dictionaryPayload numbers) :: fields)) =
      ofFields (accepted numbers)
        (fieldOf? (("extensions", dictionaryPayload numbers) :: fields)) :=
  Extensions.record_written hknown fun entry hentry => (h entry hentry).read_toPayload

end NumberRecord

/-! ## Line items -/

namespace LineItemRecord

/-- How line items are exchanged with their records. -/
def exchange : Exchange Build LineItem LineItemRecord :=
  { schema, ofValue := ofItem, toValue := toItem }

/-- An item that has an identifier is built again without drawing one. -/
theorem make_eq_pure {item : LineItem} (hid : item.id ≠ "") (hamount : item.amount.isFinite = true) :
    LineItem.make item.id item.label (.decimal item.amount) item.source item.category item.notes
      item.flaggedForReview = pure item := by
  have hkept : LineItem.idOr item.id = pure item.id := by
    rw [LineItem.idOr, if_neg hid]
  rw [LineItem.make, hkept, pure_bind, amountOf_decimal hamount]
  rfl

/-- A line item that has an identifier does not draw one. -/
theorem carries {item : LineItem} (h : item.Recordable) :
    ∃ record, exchange.Carries item record item := by
  obtain ⟨record, hrecord⟩ := h.source.carries
  have hread : Reading.required "source" SourceRecord.read (some record.toPayload) =
      accepted record := required_accepted hrecord.restores.read_toPayload _
  refine ⟨{
    id := item.id
    label := item.label
    amount := item.amount
    source := record
    category := item.category
    notes := item.notes
    flaggedForReview := item.flaggedForReview },
    { ofValue_eq := ?ofValue
      restores := { isDocument := ?document, read_toPayload := ?read }
      toValue_eq := ?toValue }⟩
  case ofValue =>
    refine bind_eq_ok.2 ⟨record, hrecord.ofValue_eq, ?_⟩
    rw [ofFields, required_accepted (read_nonEmptyText h.label),
      required_accepted (read_decimal h.amount.1), optional_text, optional_text]
    rfl
  case document =>
    refine .object (by simp) ?_
    simp only [List.forall_mem_cons]
    exact ⟨.text _, .text _, .text _, hrecord.restores.isDocument, Payload.isDocument_ofText? _,
      Payload.isDocument_ofText? _, .bool _, List.forall_mem_nil _⟩
  case read =>
    show ofFields (some (.text item.id)) (some (.text item.label))
      (some (.text item.amount.toText))
      (Reading.required "source" SourceRecord.read (some record.toPayload))
      (some (.ofText? item.category)) (some (.ofText? item.notes))
      (some (.bool item.flaggedForReview)) = _
    rw [ofFields, required_accepted (read_nonEmptyText h.label),
      required_accepted (read_decimalText h.amount), hread, optional_text, optional_text]
    rfl
  case toValue =>
    show (do
      let source ← Build.ofExcept (SourceRecord.exchange.toValue record)
      LineItem.make item.id item.label (.decimal item.amount) source item.category item.notes
        item.flaggedForReview) = _
    rw [hrecord.toValue_eq]
    exact make_eq_pure h.id h.amount.1

end LineItemRecord

/-! ## Inputs with fixed names and further ones -/

namespace ValuationRecord

/-- How valuation inputs are exchanged with their records. -/
def exchange : Exchange (Except Failure) ValuationInputs ValuationRecord :=
  { schema, ofValue := ofInputs, toValue := toInputs }

theorem carries {inputs : ValuationInputs} (h : inputs.Recordable) :
    ∃ record, exchange.Carries inputs record inputs := by
  obtain ⟨capRate, hcapOf, hcap, hcapTo⟩ := Exchange.exists_option
    fun value hvalue => NumberRecord.carries (h.capRate value hvalue)
  obtain ⟨askingPrice, haskingOf, hasking, haskingTo⟩ := Exchange.exists_option
    fun value hvalue => NumberRecord.carries (h.askingPrice value hvalue)
  obtain ⟨vacancyRate, hvacancyOf, hvacancy, hvacancyTo⟩ := Exchange.exists_option
    fun value hvalue => NumberRecord.carries (h.vacancyRate value hvalue)
  obtain ⟨extensions, hfurtherOf, hfurther, hfurtherTo, hkept⟩ := Exchange.exists_dictionary
    fun entry hentry => NumberRecord.carries (h.extensions.values entry hentry)
  refine ⟨{ extensions, capRate, askingPrice, vacancyRate },
    { ofValue_eq := ?ofValue
      restores := { isDocument := ?document, read_toPayload := ?read }
      toValue_eq := ?toValue }⟩
  case ofValue =>
    exact bind_eq_ok.2 ⟨capRate, hcapOf, bind_eq_ok.2 ⟨askingPrice, haskingOf,
      bind_eq_ok.2 ⟨vacancyRate, hvacancyOf, bind_eq_ok.2 ⟨extensions, hfurtherOf, rfl⟩⟩⟩⟩
  case document =>
    refine .object (by simp) ?_
    simp only [List.forall_mem_cons]
    exact ⟨isDocument_values (hkept ▸ h.extensions.distinct) hfurther,
      isDocument_option hcap, isDocument_option hasking,
      isDocument_option hvacancy, List.forall_mem_nil _⟩
  case read =>
    show read (toPayload { extensions, capRate, askingPrice, vacancyRate }) = _
    unfold read toPayload
    rw [NumberRecord.record_written ?_ hfurther]
    show mk <$> accepted extensions
      <*> optional "capRate" NumberRecord.read (some (.orNull NumberRecord.toPayload capRate))
      <*> optional "askingPrice" NumberRecord.read (some (.orNull NumberRecord.toPayload askingPrice))
      <*> optional "vacancyRate" NumberRecord.read
        (some (.orNull NumberRecord.toPayload vacancyRate)) = _
    · rw [NumberRecord.optional_toPayload hcap, NumberRecord.optional_toPayload hasking,
        NumberRecord.optional_toPayload hvacancy]
      rfl
    · simp [Extensions.spellings]
  case toValue =>
    exact bind_eq_ok.2 ⟨_, hcapTo, bind_eq_ok.2 ⟨_, haskingTo,
      bind_eq_ok.2 ⟨_, hvacancyTo, bind_eq_ok.2 ⟨_, hfurtherTo, rfl⟩⟩⟩⟩

end ValuationRecord

namespace PropertyRecord

open ValuationRecord (readInput)

/-- How descriptions of properties are exchanged with their records. -/
def exchange : Exchange (Except Failure) PropertyInfo PropertyRecord :=
  { schema, ofValue := ofInfo, toValue := toInfo }

theorem carries {info : PropertyInfo} (h : info.Recordable) :
    ∃ record, exchange.Carries info record info := by
  obtain ⟨squareFootage, hsquareOf, hsquare, hsquareTo⟩ := Exchange.exists_option
    fun value hvalue => NumberRecord.carries (h.squareFootage value hvalue)
  obtain ⟨units, hunitsOf, hunits, hunitsTo⟩ := Exchange.exists_option
    fun value hvalue => NumberRecord.carries (h.units value hvalue)
  obtain ⟨yearBuilt, hyearOf, hyear, hyearTo⟩ := Exchange.exists_option
    fun value hvalue => NumberRecord.carries (h.yearBuilt value hvalue)
  obtain ⟨lotSize, hlotOf, hlot, hlotTo⟩ := Exchange.exists_option
    fun value hvalue => NumberRecord.carries (h.lotSize value hvalue)
  obtain ⟨extensions, hfurtherOf, hfurther, hfurtherTo, hkept⟩ := Exchange.exists_dictionary
    fun entry hentry => NumberRecord.carries (h.extensions.values entry hentry)
  refine ⟨{ extensions, squareFootage, units, yearBuilt, lotSize },
    { ofValue_eq := ?ofValue
      restores := { isDocument := ?document, read_toPayload := ?read }
      toValue_eq := ?toValue }⟩
  case ofValue =>
    exact bind_eq_ok.2 ⟨squareFootage, hsquareOf, bind_eq_ok.2 ⟨units, hunitsOf,
      bind_eq_ok.2 ⟨yearBuilt, hyearOf, bind_eq_ok.2 ⟨lotSize, hlotOf,
        bind_eq_ok.2 ⟨extensions, hfurtherOf, rfl⟩⟩⟩⟩⟩
  case document =>
    refine .object (by simp) ?_
    simp only [List.forall_mem_cons]
    exact ⟨isDocument_values (hkept ▸ h.extensions.distinct) hfurther,
      isDocument_option hsquare, isDocument_option hunits,
      isDocument_option hyear, isDocument_option hlot, List.forall_mem_nil _⟩
  case read =>
    show read (toPayload { extensions, squareFootage, units, yearBuilt, lotSize }) = _
    unfold read toPayload
    rw [NumberRecord.record_written ?_ hfurther]
    show mk <$> accepted extensions
      <*> optional "squareFootage" NumberRecord.read
        (some (.orNull NumberRecord.toPayload squareFootage))
      <*> optional "units" NumberRecord.read (some (.orNull NumberRecord.toPayload units))
      <*> optional "yearBuilt" NumberRecord.read (some (.orNull NumberRecord.toPayload yearBuilt))
      <*> optional "lotSize" NumberRecord.read (some (.orNull NumberRecord.toPayload lotSize)) = _
    · rw [NumberRecord.optional_toPayload hsquare, NumberRecord.optional_toPayload hunits,
        NumberRecord.optional_toPayload hyear, NumberRecord.optional_toPayload hlot]
      rfl
    · simp [Extensions.spellings]
  case toValue =>
    exact bind_eq_ok.2 ⟨_, hsquareTo, bind_eq_ok.2 ⟨_, hunitsTo, bind_eq_ok.2 ⟨_, hyearTo,
      bind_eq_ok.2 ⟨_, hlotTo, bind_eq_ok.2 ⟨_, hfurtherTo, rfl⟩⟩⟩⟩⟩

end PropertyRecord

/-! ## The whole user input -/

namespace UserInputRecord

/-- How user inputs are exchanged with their records. -/
def exchange : Exchange Build UserInput UserInputRecord :=
  { schema, ofValue := ofInput, toValue := toInput }

theorem exists_items {items : List LineItem} (h : ∀ item ∈ items, item.Recordable) :
    ∃ records, items.mapM LineItemRecord.ofItem = .ok records ∧
      (∀ record ∈ records, LineItemRecord.schema.Restores record) ∧
      records.mapM LineItemRecord.toItem = pure items :=
  Exchange.exists_list (List.forall₂_same.2 fun item hitem => LineItemRecord.carries (h item hitem))

/-- A user input comes back from its document when its parts do. -/
theorem restores {input : UserInputRecord}
    (hrevenue : ∀ item ∈ input.revenueItems, LineItemRecord.schema.Restores item)
    (hexpense : ∀ item ∈ input.expenseItems, LineItemRecord.schema.Restores item)
    (hadjustment : ∀ item ∈ input.adjustmentItems, LineItemRecord.schema.Restores item)
    (hproperty : ∀ info, input.propertyInfo = some info → PropertyRecord.schema.Restores info)
    (hvaluation : ∀ inputs, input.valuationInputs = some inputs →
      ValuationRecord.schema.Restores inputs) : schema.Restores input where
  isDocument := by
    refine .object (by simp) ?_
    simp only [List.forall_mem_cons]
    exact ⟨isDocument_list hrevenue, isDocument_list hexpense, isDocument_list hadjustment,
      isDocument_option hproperty, isDocument_option hvaluation, List.forall_mem_nil _⟩
  read_toPayload := by
    have hitems {records : List LineItemRecord}
        (h : ∀ record ∈ records, LineItemRecord.schema.Restores record) :
        listOf LineItemRecord.read (.list (records.map LineItemRecord.toPayload)) =
          accepted records := listOf_toPayload h
    have hpropertyRead : optional "propertyInfo" PropertyRecord.read
        (some (.orNull PropertyRecord.toPayload input.propertyInfo)) = accepted input.propertyInfo :=
      Schema.optional_toPayload hproperty (fun _ => Payload.noConfusion) _
    have hvaluationRead : optional "valuationInputs" ValuationRecord.read
        (some (.orNull ValuationRecord.toPayload input.valuationInputs)) =
        accepted input.valuationInputs :=
      Schema.optional_toPayload hvaluation (fun _ => Payload.noConfusion) _
    show mk <$> Reading.required "revenueItems" (listOf LineItemRecord.read)
        (some (.list (input.revenueItems.map LineItemRecord.toPayload)))
      <*> Reading.required "expenseItems" (listOf LineItemRecord.read)
        (some (.list (input.expenseItems.map LineItemRecord.toPayload)))
      <*> orUsual "adjustmentItems" (listOf LineItemRecord.read) []
        (some (.list (input.adjustmentItems.map LineItemRecord.toPayload)))
      <*> optional "propertyInfo" PropertyRecord.read
        (some (.orNull PropertyRecord.toPayload input.propertyInfo))
      <*> optional "valuationInputs" ValuationRecord.read
        (some (.orNull ValuationRecord.toPayload input.valuationInputs)) = _
    rw [required_accepted (hitems hrevenue), required_accepted (hitems hexpense),
      orUsual_accepted (hitems hadjustment), hpropertyRead, hvaluationRead]
    rfl

theorem carries {input : UserInput} (h : input.Recordable) :
    ∃ record, exchange.Carries input record input := by
  obtain ⟨revenueItems, hrevenueOf, hrevenue, hrevenueTo⟩ := exists_items h.revenueItems
  obtain ⟨expenseItems, hexpenseOf, hexpense, hexpenseTo⟩ := exists_items h.expenseItems
  obtain ⟨adjustmentItems, hadjustmentOf, hadjustment, hadjustmentTo⟩ :=
    exists_items h.adjustmentItems
  obtain ⟨propertyInfo, hpropertyOf, hproperty, hpropertyTo⟩ := Exchange.exists_option
    fun info hinfo => PropertyRecord.carries (h.propertyInfo info hinfo)
  obtain ⟨valuationInputs, hvaluationOf, hvaluation, hvaluationTo⟩ := Exchange.exists_option
    fun inputs hinputs => ValuationRecord.carries (h.valuationInputs inputs hinputs)
  refine ⟨{ revenueItems, expenseItems, adjustmentItems, propertyInfo, valuationInputs },
    { ofValue_eq := ?ofValue
      restores := restores hrevenue hexpense hadjustment hproperty hvaluation
      toValue_eq := ?toValue }⟩
  case ofValue =>
    exact bind_eq_ok.2 ⟨revenueItems, hrevenueOf, bind_eq_ok.2 ⟨expenseItems, hexpenseOf,
      bind_eq_ok.2 ⟨adjustmentItems, hadjustmentOf, bind_eq_ok.2 ⟨propertyInfo, hpropertyOf,
        bind_eq_ok.2 ⟨valuationInputs, hvaluationOf, rfl⟩⟩⟩⟩⟩
  case toValue =>
    have hpropertyBack : Build.ofExcept (propertyInfo.mapM PropertyRecord.toInfo) =
        pure input.propertyInfo := congrArg Build.ofExcept hpropertyTo
    have hvaluationBack : Build.ofExcept (valuationInputs.mapM ValuationRecord.toInputs) =
        pure input.valuationInputs := congrArg Build.ofExcept hvaluationTo
    exact Exchange.bind_eq_pure hrevenueTo <| Exchange.bind_eq_pure hexpenseTo <|
      Exchange.bind_eq_pure hadjustmentTo <| Exchange.bind_eq_pure hpropertyBack <|
        Exchange.bind_eq_pure hvaluationBack rfl

end UserInputRecord

namespace Schema

/-- A user input that was read from a payload has a record, and reading the document of that record gives
the same user input again, for which no identifier is drawn. -/
theorem parseUserInput_roundTrip {payload : Payload} (hpayload : payload.WellFormed)
    {supply rest : IdSupply} {input : UserInput}
    (h : parseUserInput payload supply = .ok (input, rest)) (hboxes : input.HasFiniteBoxes) :
    ∃ record, UserInputRecord.ofInput input = .ok record ∧ record.toPayload.IsDocument ∧
      ∀ later, parseUserInput record.toPayload later = .ok (input, later) := by
  obtain ⟨record, hcarries⟩ :=
    UserInputRecord.carries (UserInputRecord.recordable_of_parse hpayload h hboxes)
  refine ⟨record, hcarries.ofValue_eq, hcarries.restores.isDocument, fun later => ?_⟩
  have hparsed : UserInputRecord.schema.parse record.toPayload = .ok record :=
    congrArg (parsed UserInputRecord.title) hcarries.restores.read_toPayload
  have hinput : record.toInput = pure input := hcarries.toValue_eq
  rw [parseUserInput, hparsed]
  exact congrFun hinput later

/-- A number that was found on a page at a moment counted in seconds. -/
def foundNumber (value : Payload) (confidence : Payload) : List (String × Payload) :=
  [("value", value),
    ("source", .object
      [("source_type", .text "parsed_document"), ("reference", .object [("id", .text "p1")]),
        ("display_path", .text "rent roll p.1"), ("timestamp", .int 1704067200),
        ("confidence", confidence),
        ("document_location", .object
          [("file_name", .text "roll.pdf"), ("file_type", .text "pdf"), ("page", .text "1"),
            ("bounding_box", .object
              [("x", .int 1), ("y", .int 2), ("width", .int 30), ("height", .text "4.5")])])])]

/-- A user input in which names are spelled in both ways, numbers have all forms, further inputs stand in
both places and an identifier is missing. -/
def mixedPayload : Payload :=
  .object
    [("revenue_items", .list
        [.object ([("id", .text ""), ("label", .text "Rent"), ("amount", .text "1200.50")] ++
          (foundNumber .null (.text "0.5")).drop 1)]),
      ("expenseItems", .list []),
      ("valuation_inputs", .object
        [("cap_rate", .object (foundNumber (.float (.ofInt 1)) .null)),
          ("extensions", .object [("parking", .object (foundNumber (.text "12.0") (.int 1)))]),
          ("laundry", .object (foundNumber (.int 7) .null))])]

theorem wellFormed_foundNumber {value confidence : Payload} (hvalue : value.WellFormed)
    (hconfidence : confidence.WellFormed) :
    (Payload.object (foundNumber value confidence)).WellFormed := by
  have hbox : (Payload.object
      [("x", .int 1), ("y", .int 2), ("width", .int 30), ("height", .text "4.5")]).WellFormed :=
    .object (by simp) (by simpa using
      ⟨.int (by decide +kernel), .int (by decide +kernel), .int (by decide +kernel), .text _⟩)
  have hlocation : (Payload.object
      [("file_name", .text "roll.pdf"), ("file_type", .text "pdf"), ("page", .text "1"),
        ("bounding_box", _)]).WellFormed :=
    .object (by simp) (by simpa using ⟨.text _, .text _, .text _, hbox⟩)
  have hreference : (Payload.object [("id", .text "p1")]).WellFormed :=
    .object (by simp) (by simpa using .text _)
  have hsource : (Payload.object
      [("source_type", .text "parsed_document"), ("reference", _),
        ("display_path", .text "rent roll p.1"), ("timestamp", .int 1704067200),
        ("confidence", confidence), ("document_location", _)]).WellFormed :=
    .object (by simp) (by simpa using
      ⟨.text _, hreference, .text _, .int (by decide +kernel), hconfidence, hlocation⟩)
  exact .object (by simp [foundNumber]) (by simpa [foundNumber] using ⟨hvalue, hsource⟩)

theorem wellFormed_mixedPayload : mixedPayload.WellFormed := by
  have hsource := wellFormed_foundNumber .null (.text "0.5")
  have hitem : (Payload.object ([("id", .text ""), ("label", .text "Rent"),
      ("amount", .text "1200.50")] ++ (foundNumber .null (.text "0.5")).drop 1)).WellFormed := by
    cases hsource with
    | object names parts =>
        refine .object (by simp [foundNumber]) (List.forall_mem_append.2 ⟨?_, ?_⟩)
        · simpa using ⟨.text _, .text _, .text _⟩
        · exact fun field hfield => parts field (List.mem_of_mem_drop hfield)
  have hextensions : (Payload.object
      [("parking", .object (foundNumber (.text "12.0") (.int 1)))]).WellFormed :=
    .object (by simp) (by simpa using wellFormed_foundNumber (.text _) (.int (by decide +kernel)))
  have hvaluation : (Payload.object
      [("cap_rate", .object (foundNumber (.float (.ofInt 1)) .null)), ("extensions", _),
        ("laundry", .object (foundNumber (.int 7) .null))]).WellFormed :=
    .object (by simp) (by simpa using
      ⟨wellFormed_foundNumber (.float _) .null, hextensions,
        wellFormed_foundNumber (.int (by decide +kernel)) .null⟩)
  exact .object (by simp) (by simpa using ⟨.list (by simpa using hitem), .list (by simp), hvaluation⟩)

theorem parseUserInput_roundTrip_mixed :
    ∃ input rest, parseUserInput mixedPayload .fresh = .ok (input, rest) ∧
      ∃ record, UserInputRecord.ofInput input = .ok record ∧ record.toPayload.IsDocument ∧
        ∀ later, parseUserInput record.toPayload later = .ok (input, later) := by
  have hanswer : (parseUserInput mixedPayload .fresh).toOption.any
      (fun answer => decide answer.1.HasFiniteBoxes) = true := by decide +kernel
  obtain ⟨⟨input, rest⟩, hsome, hboxes⟩ := (Option.any_eq_true _ _).1 hanswer
  have hinput := toOption_eq_some.1 hsome
  exact ⟨input, rest, hinput,
    parseUserInput_roundTrip wellFormed_mixedPayload hinput (of_decide_eq_true hboxes)⟩

end Schema
end Appraisal
