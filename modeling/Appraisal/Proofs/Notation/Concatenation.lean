import Appraisal.Proofs.Notation.Closing

/-!
# Texts that are put one behind the other

A text without fault is read as it stands, whatever follows: each of its opening signs has its closing brace
in the text already, so the scanner never looks beyond its end.  Only an opening sign that the two texts
make up between them could change that.
-/

namespace Appraisal
namespace Notation

variable {α : Type} {reading : Segment → List α}

/-- Plain pieces are read character by character, so it does not matter where they are cut. -/
def Seamless (reading : Segment → List α) : Prop :=
  ∀ first second, reading (.plain (first ++ second)) = reading (.plain first) ++ reading (.plain second)

/-- The references in some characters. -/
def referencesIn (text : List Char) : List Reference :=
  (segmentsAfter [] text).filterMap Segment.reference?

/-- The characters are read in the same way when these others follow them. -/
structure Settled (text following : List Char) : Prop where
  closed : Closed text
  apart : Apart text following

/-- The fault as it is found in a text that so many characters precede. -/
def NotationError.behind (preceding : Nat) : NotationError → NotationError
  | unclosed position => .unclosed (position + preceding)
  | sourceType given => .sourceType given
  | refType given => .refType given

/-! ## Tokens before the seam -/

theorem Settled.of_append {before after following : List Char}
    (h : Settled (before ++ after) following) : Settled after following where
  closed := h.closed.of_append
  apart := h.apart.of_append

theorem Settled.tail {c : Char} {text following : List Char} (h : Settled (c :: text) following) :
    Settled text following :=
  Settled.of_append (show Settled ([c] ++ text) following from h)

/-- An opening sign at the front of the characters has its closing brace among them. -/
theorem Settled.exists_opening {text following : List Char} (h : Settled text following)
    (hne : text ≠ []) (hopening : opening <+: text ++ following) :
    ∃ after, text = opening ++ after ∧ closesFirst after = true := by
  obtain ⟨after, rfl⟩ := opening_prefix_of_append hne h.apart hopening
  exact ⟨after, rfl, h.closed [] after rfl⟩

/-- The token at the front of the characters is the same when others follow. -/
theorem Settled.scan?_append {text following : List Char} (h : Settled text following)
    (hne : text ≠ []) :
    scan? (text ++ following) = (scan? text).map fun found => (found.1, found.2 ++ following) := by
  cases hscan : scan? text with
  | some found =>
      obtain ⟨htoken, htext⟩ := scan?_eq_some_iff.1 hscan
      exact scan?_eq_some_iff.2 ⟨htoken, by rw [htext, List.append_assoc]⟩
  | none =>
      rw [Option.map_none, Option.eq_none_iff_forall_ne_some]
      rintro ⟨token, rest⟩ hfound
      obtain ⟨after, rfl, hcloses⟩ := h.exists_opening hne (opening_prefix_of_scan? hfound)
      obtain ⟨body, behind, rfl, -⟩ := closesFirst_iff.1 hcloses
      obtain ⟨between, hbefore, -⟩ := scan?_of_append (by simp) hfound
      rw [hscan] at hbefore
      cases hbefore

/-! ## Readings of a text -/

theorem flatMap_plainSegment (h : Seamless reading) (reversed : List Char) :
    (plainSegment reversed).flatMap reading = reading (.plain reversed.reverse) := by
  cases reversed with
  | nil => exact (List.self_eq_append_right.1 (h [] [])).symm
  | cons c reversed => simp [plainSegment]

/-- Plain characters that were skipped before a text are read before it. -/
theorem flatMap_segmentsAfter (h : Seamless reading) (reversed text : List Char) :
    (segmentsAfter reversed text).flatMap reading =
      reading (.plain reversed.reverse) ++ (segmentsAfter [] text).flatMap reading := by
  induction text generalizing reversed with
  | nil =>
      rw [segmentsAfter, segmentsAfter, flatMap_plainSegment h]
      simp [plainSegment]
  | cons c text ih =>
      cases hscan : scan? (c :: text) with
      | some found =>
          rw [segmentsAfter_of_some reversed hscan, segmentsAfter_of_some [] hscan,
            List.flatMap_append, flatMap_plainSegment h]
          rfl
      | none =>
          rw [segmentsAfter_of_none reversed hscan, segmentsAfter_of_none [] hscan, ih, ih [c],
            List.reverse_cons, h, List.append_assoc]
          rfl

/-- Two texts of which the first is settled are read one after the other. -/
theorem Settled.flatMap_segmentsAfter {text following : List Char} (h : Settled text following)
    (hreading : Seamless reading) (reversed : List Char) :
    (segmentsAfter reversed (text ++ following)).flatMap reading =
      (segmentsAfter reversed text).flatMap reading ++
        (segmentsAfter [] following).flatMap reading := by
  -- The scan of the first text: its end, a token, a character that begins no token.
  fun_induction segmentsAfter reversed text with
  | case1 reversed =>
      rw [List.nil_append, Notation.flatMap_segmentsAfter hreading, flatMap_plainSegment hreading]
  | case2 reversed c text token rest hscan ih =>
      have hboth : scan? (c :: text ++ following) = some (token, rest ++ following) := by
        rw [h.scan?_append (by simp), hscan]
        rfl
      have hrest : Settled rest following := by
        rw [Notation.scan?_append hscan] at h
        exact h.of_append
      rw [segmentsAfter_of_some reversed hboth]
      simp [ih hrest]
  | case3 reversed c text hscan ih =>
      have hboth : scan? (c :: (text ++ following)) = none := by
        rw [← List.cons_append, h.scan?_append (by simp), hscan]
        rfl
      rw [List.cons_append, segmentsAfter_of_none reversed hboth]
      exact ih h.tail

/-- The references of two texts set side by side are those of the first and then those of the second. -/
theorem Settled.referencesIn_append {text following : List Char} (h : Settled text following) :
    referencesIn (text ++ following) = referencesIn text ++ referencesIn following := by
  simp only [referencesIn, List.filterMap_eq_flatMap_toList]
  exact h.flatMap_segmentsAfter (fun _ _ => rfl) []

/-! ## Unclosed opening signs -/

theorem closesFirst_append_right {text : List Char} (h : closesFirst text = true)
    (following : List Char) : closesFirst (text ++ following) = true := by
  obtain ⟨body, rest, rfl, hbody⟩ := closesFirst_iff.1 h
  rw [List.append_assoc, List.cons_append]
  exact closesFirst_append hbody (rest ++ following)

/-- A settled text leaves no opening unclosed; what follows it keeps its errors, further behind. -/
theorem Settled.unclosedFrom_append {text following : List Char} (h : Settled text following)
    (position : Nat) :
    unclosedFrom position (text ++ following) = unclosedFrom (position + text.length) following := by
  induction text generalizing position with
  | nil => rfl
  | cons c text ih =>
      -- An opening of the first text is closed there, and stays so whatever follows.
      have hcloses : ((after? opening (c :: (text ++ following))).isSome &&
          !closesFirst (text ++ following).tail) = false := by
        rw [Bool.and_eq_false_imp, after?_opening_isSome_iff]
        intro hopening
        obtain ⟨after, hafter, hcloses⟩ := h.exists_opening (by simp) hopening
        obtain ⟨-, rfl⟩ := List.cons.inj hafter
        simpa using closesFirst_append_right hcloses following
      rw [List.cons_append, unclosedFrom, hcloses, if_neg Bool.false_ne_true, ih h.tail,
        List.length_cons, Nat.add_assoc, Nat.add_comm 1]

theorem unclosedFrom_add (position preceding : Nat) (text : List Char) :
    unclosedFrom (position + preceding) text = (unclosedFrom position text).map (· + preceding) := by
  induction text generalizing position with
  | nil => rfl
  | cons c text ih =>
      rw [unclosedFrom, unclosedFrom, Nat.add_right_comm, ih]
      split <;> rfl

/-! ## Whole texts -/

/-- A text without errors is settled before any text that does not complete its last dollar sign to an
opening. -/
theorem settled_of_validate {first second : String} (hvalid : validate first = [])
    (hapart : ¬(first.toList.getLast? = some '$' ∧ second.toList.head? = some '\x7b')) :
    Settled first.toList second.toList :=
  ⟨(validate_eq_nil_iff.1 hvalid).1, not_and_or.1 hapart⟩

/-- What a resolver puts in the place of a piece. -/
def Segment.resolved (resolver : Reference → String) : Segment → List Char
  | .plain chars => chars
  | .reference token => (resolver token.reference).toList

theorem replace_eq_flatMap (text : String) (resolver : Reference → String) :
    replace text resolver = String.ofList ((parse text).flatMap (Segment.resolved resolver)) :=
  rfl

theorem wordErrors_behind (preceding : Nat) (reference : Reference) :
    (wordErrors reference).map (NotationError.behind preceding) = wordErrors reference := by
  unfold wordErrors
  split <;> split <;> rfl

/-- A text without fault and another text, between which no opening sign lies, are read one after the other;
the faults are those of the second one, which stands behind the first. -/
theorem validate_append {first second : String} (hvalid : validate first = [])
    (hapart : ¬(first.toList.getLast? = some '$' ∧ second.toList.head? = some '\x7b')) :
    references (first ++ second) = references first ++ references second ∧
      (∀ resolver, replace (first ++ second) resolver =
        replace first resolver ++ replace second resolver) ∧
      validate (first ++ second) =
        (validate second).map (NotationError.behind first.length) := by
  have hsettled := settled_of_validate hvalid hapart
  have hreferences : references (first ++ second) = references first ++ references second := by
    have happend := hsettled.referencesIn_append
    rwa [← String.toList_append] at happend
  refine ⟨hreferences, fun resolver => ?_, ?_⟩
  · simp only [replace_eq_flatMap, parse, String.toList_append]
    rw [hsettled.flatMap_segmentsAfter (fun _ _ => rfl), String.ofList_append]
  · have hfirst : (references first).flatMap wordErrors = [] :=
      List.flatMap_eq_nil_iff.2 (validate_eq_nil_iff.1 hvalid).2
    have hunclosed : unclosedFrom 0 (first ++ second).toList =
        (unclosedFrom 0 second.toList).map (· + first.length) := by
      rw [String.toList_append, hsettled.unclosedFrom_append, unclosedFrom_add, String.length_toList]
    rw [validate, validate, hunclosed, hreferences, List.flatMap_append, hfirst, List.nil_append,
      List.map_append, List.map_map, List.map_map, List.map_flatMap]
    simp only [wordErrors_behind]
    rfl

/-- A text with faults: it begins with what could close a token, and then opens two tokens, of which the
outer one swallows the inner. -/
def faultyText : String :=
  "\x7d$\x7bnoi, tooltip:x-key:$\x7bnoi, tooltip:calculated-y:$\x7d"

theorem validate_append_faulty :
    validate faultlessText = [] ∧
      ¬(faultlessText.toList.getLast? = some '$' ∧ faultyText.toList.head? = some '\x7b') ∧
      references (faultlessText ++ faultyText) =
        references faultlessText ++ references faultyText ∧
      (∀ resolver, replace (faultlessText ++ faultyText) resolver =
        replace faultlessText resolver ++ replace faultyText resolver) ∧
      validate (faultlessText ++ faultyText) =
        (validate faultyText).map (NotationError.behind faultlessText.length) := by
  have hvalid : validate faultlessText = [] := by decide +kernel
  have hapart : ¬(faultlessText.toList.getLast? = some '$' ∧
      faultyText.toList.head? = some '\x7b') := by decide +kernel
  exact ⟨hvalid, hapart, validate_append hvalid hapart⟩

end Notation
end Appraisal
