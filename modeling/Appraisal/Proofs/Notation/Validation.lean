import Appraisal.Notation.Basic
import Appraisal.Proofs.Notation.Concatenation
import Appraisal.Proofs.Notation.Generation

/-!
# Texts that are valid by construction

A text is valid when the parts that it is put together of are, and so is the reference made from a checked source,
up to braces in what it points at.
-/

namespace Appraisal

/-!
## Texts that are put together

A text that is put together of plain parts and of tokens is read as it was put together: its references are
those of the tokens, in order, and none of its opening signs is left unclosed.  A plain part must have no
opening sign in it and must not end with the first half of one.
-/

namespace Notation

/-- A part of a text adds these references to what follows it, and no unclosed opening sign. -/
structure Adds (part : List Char) (found : List Reference) : Prop where
  references : ∀ rest, referencesIn (part ++ rest) = found ++ referencesIn rest
  closed : ∀ position rest,
    unclosedFrom position (part ++ rest) = unclosedFrom (position + part.length) rest

theorem adds_nil : Adds [] [] :=
  ⟨fun _ => rfl, fun _ _ => rfl⟩

/-- What two texts add to the references is added by both in turn. -/
theorem Adds.append {first second : List Char} {found others : List Reference}
    (hfirst : Adds first found) (hsecond : Adds second others) :
    Adds (first ++ second) (found ++ others) where
  references rest := by
    rw [List.append_assoc, hfirst.references, hsecond.references, List.append_assoc]
  closed position rest := by
    rw [List.append_assoc, hfirst.closed, hsecond.closed, List.length_append, Nat.add_assoc]

/-! ### Parts -/

/-- A part in which every opening sign is closed adds its own references. -/
theorem adds_of_closed {part : List Char} (h : Closed part) (hlast : part.getLast? ≠ some '$') :
    Adds part (referencesIn part) where
  references _ := Settled.referencesIn_append ⟨h, .inl hlast⟩
  closed position _ := Settled.unclosedFrom_append ⟨h, .inl hlast⟩ position

theorem referencesIn_of_unopened {text : List Char} (h : Unopened text) : referencesIn text = [] := by
  have hfree : TokenFree text [] := tokenFree_of_unopened h (by simp)
  have hskipped := segmentsAfter_append hfree []
  rw [List.append_nil, List.append_nil, segmentsAfter] at hskipped
  rw [referencesIn, hskipped]
  unfold plainSegment
  split <;> rfl

/-- A plain part adds no reference. -/
theorem adds_plain {text : List Char} (h : Unopened text) (hlast : text.getLast? ≠ some '$') :
    Adds text [] := by
  have hclosed : Closed text := fun before after hsplit =>
    absurd ⟨before, after, by rw [hsplit, List.append_assoc]⟩ h
  simpa [referencesIn_of_unopened h] using adds_of_closed hclosed hlast

theorem adds_of_not_mem {text : List Char} (h : '$' ∉ text) : Adds text [] :=
  adds_plain (unopened_of_not_mem h) fun hlast => h (List.mem_of_getLast? hlast)

/-- A token adds its reference. -/
theorem adds_token {token : Token} (h : token.WellFormed) (hvalue : Unopened token.refValue) :
    Adds token.chars [token.reference] := by
  have hlast : token.chars.getLast? ≠ some '$' := by
    rw [Token.chars, List.getLast?_concat]
    decide
  have hread : referencesIn token.chars = [token.reference] := by
    have hscan := h.scan? []
    rw [List.append_nil] at hscan
    rw [referencesIn, segmentsAfter_of_some [] hscan]
    simp [plainSegment, segmentsAfter, Segment.reference?]
  simpa [hread] using adds_of_closed (h.closed_chars hvalue) hlast

theorem adds_reference {reference : Reference} (h : reference.Writable)
    (hvalue : Unopened reference.refValue.toList) : Adds reference.token.chars [reference] := by
  simpa [reference_token] using adds_token h.wellFormed hvalue

/-! ### References in known words -/

theorem isWord_known : ∀ word ∈ knownSourceTypes ++ knownRefTypes, IsWord word.toList := by
  decide

/-- A reference in known words can be written. -/
theorem writable_of_known {reference : Reference} (hkey : IsWord reference.valueKey.toList)
    (hsource : reference.sourceType ∈ knownSourceTypes)
    (hkind : reference.refType ∈ knownRefTypes) (hvalue : reference.refValue ≠ "")
    (hunclosed : closing ∉ reference.refValue.toList) : reference.Writable where
  valueKey := hkey
  sourceType := isWord_known _ (List.mem_append_left _ hsource)
  refType := isWord_known _ (List.mem_append_right _ hkind)
  refValue := hvalue
  unclosed := hunclosed

/-! ### Whole texts -/

/-- A text that is put together is read as it was put together. -/
theorem Adds.references_eq {text : String} {found : List Reference} (h : Adds text.toList found) :
    Notation.references text = found := by
  have htext := h.references []
  rwa [List.append_nil, show referencesIn [] = [] by simp [referencesIn, segmentsAfter, plainSegment],
    List.append_nil] at htext

/-- A text that is put together of tokens with known words has no fault. -/
theorem Adds.validate_eq_nil {text : String} {found : List Reference} (h : Adds text.toList found)
    (hwords : ∀ reference ∈ found, wordErrors reference = []) : validate text = [] := by
  have hclosed : unclosedFrom 0 text.toList = [] := by
    simpa [unclosedFrom] using h.closed 0 []
  rw [validate, hclosed, h.references_eq, List.map_nil, List.nil_append, List.flatMap_eq_nil_iff]
  exact hwords

/-!
## References to sources

A checked source points at something, so the reference that is made from it never points at nothing: it
names the identifier of the source, or else its key, or else its position.  Its words are known ones by
construction.  An identifier or a key may be any text, though, and whether the token of the reference can be
read back depends on nothing else.
-/

/-- The kind of a reference and what it points at, as the pointer of a source gives them: the identifier if
there is one, else the key, else the position. -/
inductive PointsAt (pointer : ReferenceKey) : String → String → Prop
  | id {id} (h : pointer.id = some id) (hne : id ≠ "") : PointsAt pointer "id" id
  | key {key} (hid : ReferenceKey.isGiven pointer.id = false) (h : pointer.key = some key)
      (hne : key ≠ "") : PointsAt pointer "key" key
  | index {index} (hid : ReferenceKey.isGiven pointer.id = false)
      (hkey : ReferenceKey.isGiven pointer.key = false) (h : pointer.index = some index)
      (hnonneg : 0 ≤ index) : PointsAt pointer "index" (toString index)

variable {source : SourceReference} {pointer : ReferenceKey} {refType refValue : String}

theorem isGiven_iff {text : Option String} :
    ReferenceKey.isGiven text = true ↔ ∃ given, text = some given ∧ given ≠ "" := by
  cases text <;> simp [ReferenceKey.isGiven]

/-- The reference written to a source points at it by the first of the keys that the source has. -/
theorem pointsAt_referenceTo (h : source.Sound) (valueKey : String) :
    PointsAt source.reference (referenceTo valueKey source).refType
      (referenceTo valueKey source).refValue := by
  obtain ⟨hempty, hindex, -⟩ := h
  -- An identifier goes before a key, and a key before an index.
  cases hid : ReferenceKey.isGiven source.reference.id with
  | true =>
      obtain ⟨id, hsome, hne⟩ := isGiven_iff.1 hid
      simp only [referenceTo, hid, if_true]
      rw [hsome, Option.getD_some]
      exact .id hsome hne
  | false =>
      cases hkey : ReferenceKey.isGiven source.reference.key with
      | true =>
          obtain ⟨key, hsome, hne⟩ := isGiven_iff.1 hkey
          simp only [referenceTo, hid, hkey, Bool.false_eq_true, if_false, if_true]
          rw [hsome, Option.getD_some]
          exact .key hid hsome hne
      | false =>
          have hisSome : source.reference.index.isSome = true := by
            simpa [ReferenceKey.isEmpty, hid, hkey] using hempty
          obtain ⟨index, hsome⟩ := Option.isSome_iff_exists.1 hisSome
          simp only [referenceTo, hid, hkey, Bool.false_eq_true, if_false]
          rw [hsome, Option.map_some, Option.getD_some]
          exact .index hid hkey hsome (hindex index hsome)

theorem PointsAt.ne_empty (h : PointsAt pointer refType refValue) : refValue ≠ "" := by
  cases h with
  | id _ hne => exact hne
  | key _ _ hne => exact hne
  | index _ _ _ hnonneg =>
      obtain ⟨n, rfl⟩ := Int.eq_ofNat_of_zero_le hnonneg
      have hdigits : Nat.repr n ≠ "" := by
        rw [← String.toList_inj.ne, Nat.toList_repr]
        exact Nat.toDigits_ne_nil
      exact hdigits

theorem PointsAt.known (h : PointsAt pointer refType refValue) : refType ∈ knownRefTypes := by
  cases h <;> decide

theorem notationWord_mem (sourceType : SourceType) : sourceType.notationWord ∈ knownSourceTypes := by
  cases sourceType <;> decide

/-- A reference in known words is written without fault and read back exactly when no sign of the notation
stands in what it points at. -/
theorem validate_generate_iff {reference : Reference} (hkey : IsWord reference.valueKey.toList)
    (hsource : reference.sourceType ∈ knownSourceTypes)
    (hkind : reference.refType ∈ knownRefTypes) (hvalue : reference.refValue ≠ "") :
    (validate (generate reference) = [] ∧ references (generate reference) = [reference]) ↔
      closing ∉ reference.refValue.toList ∧ Unopened reference.refValue.toList := by
  constructor
  · rintro ⟨hvalid, hread⟩
    have hmem : reference ∈ references (generate reference) := hread ▸ List.mem_singleton_self _
    have hclosed := (validate_eq_nil_iff.1 hvalid).1
    exact ⟨(writable_of_mem_references hmem).unclosed, unopened_of_mem_references hclosed hmem⟩
  · rintro ⟨hunclosed, hunopened⟩
    have hwritable := writable_of_known hkey hsource hkind hvalue hunclosed
    have hadds : Adds (generate reference).toList [reference] := by
      rw [generate, String.toList_ofList]
      exact adds_reference hwritable hunopened
    refine ⟨hadds.validate_eq_nil ?_, hadds.references_eq⟩
    exact List.forall_mem_singleton.2 (wordErrors_eq_nil_iff.2 ⟨hsource, hkind⟩)

/-- The reference to a value with a checked source points at the identifier, the key or the position of the
source and never at nothing, in known words.  Its token has no fault and is read back, as one piece, exactly
when no closing brace and no opening sign stands in what the reference points at. -/
theorem referenceTo_exact {given source : SourceReference} {valueKey : String}
    (hsource : given.check = .ok source) (hkey : IsWord valueKey.toList) :
    let reference := referenceTo valueKey source
    reference.valueKey = valueKey ∧ reference.refValue ≠ "" ∧
      PointsAt source.reference reference.refType reference.refValue ∧
      reference.sourceType ∈ ["userInput", "calculated", "sourceDocument", "assumption"] ∧
      reference.refType ∈ ["index", "key", "id"] ∧
      ((validate (generate reference) = [] ∧ references (generate reference) = [reference]) ↔
        '\x7d' ∉ reference.refValue.toList ∧ ¬ ['$', '\x7b'] <:+: reference.refValue.toList) ∧
      (references (generate reference) = [reference] →
        parse (generate reference) = [.reference reference.token]) := by
  obtain ⟨rfl, hsound⟩ := (SourceReference.check_eq_ok_iff given source).1 hsource
  intro reference
  have hpoints := pointsAt_referenceTo hsound valueKey
  have hword := notationWord_mem source.sourceType
  refine ⟨rfl, hpoints.ne_empty, hpoints, hword, hpoints.known,
    validate_generate_iff hkey hword hpoints.known hpoints.ne_empty, fun hread => ?_⟩
  have hmem : reference ∈ references (generate reference) := hread ▸ List.mem_singleton_self _
  exact segments_generate (writable_of_mem_references hmem)

/-- A source with an empty key, and an identifier in which an opening sign stands. -/
def signedSource : SourceReference :=
  { SourceReference.plain "2024-01-02T03:04:05Z" .parsedDocument
      { index := some 0, key := some "", id := some "net $\x7bnoi" } "lease.pdf" with
    confidence := some (.whole 1) }

theorem referenceTo_exact_signed :
    signedSource.check = .ok signedSource ∧ IsWord "noi".toList ∧
      let reference := referenceTo "noi" signedSource
      reference.valueKey = "noi" ∧ reference.refValue ≠ "" ∧
        PointsAt signedSource.reference reference.refType reference.refValue ∧
        reference.sourceType ∈ ["userInput", "calculated", "sourceDocument", "assumption"] ∧
        reference.refType ∈ ["index", "key", "id"] ∧
        ((validate (generate reference) = [] ∧ references (generate reference) = [reference]) ↔
          '\x7d' ∉ reference.refValue.toList ∧ ¬ ['$', '\x7b'] <:+: reference.refValue.toList) ∧
        (references (generate reference) = [reference] →
          parse (generate reference) = [.reference reference.token]) := by
  have hchecked : signedSource.check = .ok signedSource := rfl
  have hkey : IsWord "noi".toList := by decide
  exact ⟨hchecked, hkey, referenceTo_exact hchecked hkey⟩

end Notation

end Appraisal
