import Appraisal.Model.Assembly
import Appraisal.Proofs.Notation.Gap
import Appraisal.Proofs.Notation.Validation

/-!
# The summary that is written for a model

The summary is put together of sentences.  The sentence about a result adds one reference to it, all others
add none, and no opening sign is left unclosed; so the references of a summary are those of the key figures
that were computed, in order, and the summary is valid.  The identifiers of formulas that were not computed
are written as they are, and must not hold an opening sign.
-/

namespace Appraisal

open Notation (Adds Unopened IsWord adds_plain adds_of_not_mem adds_reference unopened_of_not_mem
  calculatedReference)

namespace FinancialModel

variable {results : Dictionary (Option Decimal)} {names : List String} {figure : String × String}

/-- Whether a formula has a value. -/
def isComputed (results : Dictionary (Option Decimal)) (id : String) : Bool :=
  (results.get? id).join.isSome

/-- A sentence as it stands after another one. -/
def following (sentence : String) : List Char :=
  ' ' :: sentence.toList

theorem toList_intercalate_space (first : String) (rest : List String) :
    (" ".intercalate (first :: rest)).toList = first.toList ++ rest.flatMap following := by
  induction rest generalizing first with
  | nil => simp
  | cons second rest ih => simp [ih, following]

/-! ## The first sentence -/

theorem not_mem_toDigits (n : Nat) : '$' ∉ Nat.toDigits 10 n := fun hmem =>
  absurd (Nat.isDigit_of_mem_toDigits (by decide) (by decide) hmem) (by decide)

/-- The opening sentence holds numbers and plain words only. -/
theorem adds_counts (revenues expenses : Nat) :
    Adds ("Extracted " ++ toString revenues ++ " revenue items and " ++ toString expenses ++
      " expense items.").toList [] := by
  refine adds_of_not_mem ?_
  simp [not_mem_toDigits]

/-! ## The sentences about key figures -/

/-- The template is some words, with no sign of the notation among them, and a gap for the value. -/
def IsFigureTemplate (template words : String) : Prop :=
  template = words ++ "\x7bvalue\x7d." ∧ '\x7b' ∉ words.toList ∧ '$' ∉ words.toList

/-- A filled template is its words, the reference and a full stop. -/
theorem fillTemplate_figure {template words : String} (h : IsFigureTemplate template words)
    (id : String) :
    Notation.fillTemplate template [("value", .reference (calculatedReference id))] =
      .ok (words ++ Notation.generate (calculatedReference id) ++ ".") := by
  obtain ⟨rfl, hgap, -⟩ := h
  have htemplate : (words ++ "\x7bvalue\x7d.").toList =
      words.toList ++ (Notation.gap "value" ++ ['.']) := by
    rw [String.toList_append]
    rfl
  have hfilled : Notation.fillGap (words ++ "\x7bvalue\x7d.").toList "value" (calculatedReference id) =
      words.toList ++ ((calculatedReference id).token.chars ++ ['.']) := by
    -- The words have no opening brace, so the gap behind them is the first of its name.
    have hbefore : Notation.BeginsNowhere (Notation.gap "value") words.toList
        (Notation.gap "value" ++ ['.']) :=
      Notation.beginsNowhere_of_not_mem hgap _ _
    rw [htemplate, Notation.fillGap, Notation.replaceFirst_append hbefore,
      Notation.replaceFirst_front (Notation.gap_ne_nil "value")]
  have htext : Notation.fillTemplate (words ++ "\x7bvalue\x7d.")
      [("value", .reference (calculatedReference id))] =
        .ok (String.ofList (Notation.fillGap (words ++ "\x7bvalue\x7d.").toList "value"
          (calculatedReference id))) := rfl
  rw [htext, hfilled, Notation.generate, String.append_assoc]
  simp

/-- There is a sentence about each figure that was computed. -/
theorem figureSentence?_eq {words : String} (h : IsFigureTemplate figure.2 words) :
    figureSentence? results figure = if isComputed results figure.1 then
      some (words ++ Notation.generate (calculatedReference figure.1) ++ ".") else none := by
  unfold figureSentence? isComputed
  rw [fillTemplate_figure h]
  cases (results.get? figure.1).join <;> rfl

theorem adds_calculatedReference {id : String} (h : IsWord id.toList) :
    Adds (calculatedReference id).token.chars [calculatedReference id] := by
  have hwritable : (calculatedReference id).Writable :=
    Notation.writable_of_known h (by simp [calculatedReference, Notation.knownSourceTypes])
      (by simp [calculatedReference, Notation.knownRefTypes])
      (by simpa [calculatedReference] using h.nonempty) (h.not_mem (by decide))
  exact adds_reference hwritable (unopened_of_not_mem (h.not_mem (by decide)))

/-- The sentence about a figure adds the reference to it and nothing else. -/
theorem adds_figureSentence {words : String} (hid : IsWord figure.1.toList)
    (hwords : '$' ∉ words.toList) :
    Adds (following (words ++ Notation.generate (calculatedReference figure.1) ++ "."))
      [calculatedReference figure.1] := by
  have hbefore : Adds (' ' :: words.toList) [] := adds_of_not_mem (by simp [hwords])
  have hafter : Adds ['.'] [] := adds_of_not_mem (by decide)
  have hsentence := (hbefore.append (adds_calculatedReference hid)).append hafter
  simpa [following, Notation.generate] using hsentence

/-- The sentences about figures add the references of those that were computed. -/
theorem adds_figures (results : Dictionary (Option Decimal)) {figures : List (String × String)}
    (h : ∀ figure ∈ figures, IsWord figure.1.toList ∧ ∃ words, IsFigureTemplate figure.2 words) :
    Adds ((figures.filterMap (figureSentence? results)).flatMap following)
      (((figures.map Prod.fst).filter (isComputed results)).map calculatedReference) := by
  induction figures with
  | nil => exact Notation.adds_nil
  | cons figure figures ih =>
      obtain ⟨⟨hid, words, htemplate⟩, hrest⟩ := List.forall_mem_cons.1 h
      cases hcomputed : isComputed results figure.1 with
      | false => simpa [figureSentence?_eq htemplate, hcomputed] using ih hrest
      | true =>
          have hsentence := (adds_figureSentence hid htemplate.2.2).append (ih hrest)
          simpa [figureSentence?_eq htemplate, hcomputed] using hsentence

/-- The identifiers of the key figures are words, and their sentences have one gap each. -/
theorem isFigureTemplate_keyFigures :
    ∀ figure ∈ keyFigures, IsWord figure.1.toList ∧ ∃ words, IsFigureTemplate figure.2 words := by
  simp only [keyFigures, List.forall_mem_cons]
  exact ⟨⟨by decide, "Gross potential income is ", rfl, by decide, by decide⟩,
    ⟨by decide, "After vacancy, effective gross income is ", rfl, by decide, by decide⟩,
    ⟨by decide, "Total operating expenses are ", rfl, by decide, by decide⟩,
    ⟨by decide, "Net operating income is ", rfl, by decide, by decide⟩,
    ⟨by decide, "Indicated property value is ", rfl, by decide, by decide⟩, List.forall_mem_nil _⟩

/-! ## The sentence about missing results -/

theorem unopened_names (h : ∀ name ∈ names, Unopened name.toList) :
    Unopened (", ".intercalate names).toList := by
  induction names with
  | nil => exact unopened_of_not_mem (by simp)
  | cons name names ih =>
      obtain ⟨hname, hnames⟩ := List.forall_mem_cons.1 h
      cases names with
      | nil => simpa using hname
      | cons second names =>
          have hrest : Unopened (", ".toList ++ (", ".intercalate (second :: names)).toList) :=
            (unopened_of_not_mem (by decide)).append (ih hnames) (.inl (by decide))
          have hall := hname.append hrest (.inr (by simp))
          simpa using hall

/-- The closing sentence names results that could not be computed, and refers to none of them. -/
theorem adds_uncomputed (h : ∀ name ∈ uncomputed results, Unopened name.toList) :
    Adds ((uncomputedSentence results).flatMap following) [] := by
  unfold uncomputedSentence
  split
  · exact Notation.adds_nil
  · next hnames =>
      have hlist := unopened_names h
      have hwords : Unopened " Not computed due to missing inputs: ".toList :=
        unopened_of_not_mem (by decide)
      have hfull : Unopened ['.'] := unopened_of_not_mem (by decide)
      have hsentence := (hwords.append hlist (.inl (by decide))).append hfull (.inr (by decide))
      have hpart := adds_plain hsentence (by rw [List.getLast?_concat]; decide)
      simpa [following] using hpart

/-! ## The whole summary -/

/-- The summary refers to the key figures that have been computed, in order. -/
theorem adds_writeSummary (input : UserInput) {trail : AuditTrail}
    (h : ∀ name ∈ uncomputed trail.results, Unopened name.toList) :
    Adds (writeSummary input trail).toList
      (((keyFigures.map Prod.fst).filter (isComputed trail.results)).map calculatedReference) := by
  have hcounts := adds_counts input.revenueItems.length input.expenseItems.length
  have hfigures := adds_figures trail.results isFigureTemplate_keyFigures
  have hsummary := (hcounts.append hfigures).append (adds_uncomputed h)
  rw [writeSummary, List.append_assoc, List.singleton_append, toList_intercalate_space]
  simpa using hsummary

/-- The summary of a user input and an evaluation is valid, and refers to the key figures that were computed,
in order and to nothing else; so what it refers to has a value. -/
theorem writeSummary_references (input : UserInput) (trail : AuditTrail)
    (h : ∀ id, (id, none) ∈ trail.results → ¬ Notation.opening <:+: id.toList) :
    Notation.validate (writeSummary input trail) = [] ∧
      Notation.references (writeSummary input trail) =
        (["grossPotentialIncome", "effectiveGrossIncome", "totalOperatingExpenses",
          "netOperatingIncome", "propertyValue"].filter fun id =>
            (trail.results.get? id).join.isSome).map
          (fun id => { valueKey := id, sourceType := "calculated", refType := "key", refValue := id }) ∧
      ∀ reference ∈ Notation.references (writeSummary input trail),
        ∃ value, trail.results.get? reference.refValue = some (some value) := by
  have huncomputed : ∀ name ∈ uncomputed trail.results, Unopened name.toList := by
    intro name hname
    obtain ⟨entry, hentry, rfl⟩ := List.mem_map.1 hname
    obtain ⟨hmem, hnone⟩ := List.mem_filter.1 hentry
    refine h entry.1 ?_
    rwa [← Option.isNone_iff_eq_none.1 hnone]
  have hadds := adds_writeSummary input huncomputed
  have hreferences := hadds.references_eq
  refine ⟨hadds.validate_eq_nil ?_, hreferences, ?_⟩
  · intro reference hmem
    obtain ⟨id, -, rfl⟩ := List.mem_map.1 hmem
    rfl
  -- A reference stands for a key figure that was computed, so its value is among the results.
  · rw [hreferences]
    intro reference hmem
    obtain ⟨id, hid, rfl⟩ := List.mem_map.1 hmem
    obtain ⟨value, hvalue⟩ := Option.isSome_iff_exists.1 (List.mem_filter.1 hid).2
    exact ⟨value, Option.join_eq_some_iff.1 hvalue⟩

/-- A trail with two results and an unfinished formula whose name holds braces and ends with a dollar. -/
def raggedTrail : AuditTrail :=
  { modelId := "a"
    timestamp := "monday"
    calculations := []
    results := [("propertyValue", some .one), ("\x7bvalue\x7d$", none),
      ("grossPotentialIncome", some .zero), ("netOperatingIncome", none)]
    warnings := []
    processingTimeMs := none }

theorem writeSummary_references_ragged :
    let input : UserInput :=
      { revenueItems := [], expenseItems := [], adjustmentItems := []
        propertyInfo := none, valuationInputs := none }
    (∀ id, (id, none) ∈ raggedTrail.results → ¬ Notation.opening <:+: id.toList) ∧
      Notation.validate (writeSummary input raggedTrail) = [] ∧
      Notation.references (writeSummary input raggedTrail) =
        [{ valueKey := "grossPotentialIncome", sourceType := "calculated", refType := "key",
           refValue := "grossPotentialIncome" },
         { valueKey := "propertyValue", sourceType := "calculated", refType := "key",
           refValue := "propertyValue" }] ∧
      ∀ reference ∈ Notation.references (writeSummary input raggedTrail),
        ∃ value, raggedTrail.results.get? reference.refValue = some (some value) := by
  intro input
  have hunopened : ∀ id, (id, none) ∈ raggedTrail.results → ¬ Notation.opening <:+: id.toList := by
    have hall : ∀ entry ∈ raggedTrail.results, entry.2 = none →
        ¬ Notation.opening <:+: entry.1.toList := by decide +kernel
    exact fun id hmem => hall (id, none) hmem rfl
  have hsummary := writeSummary_references input raggedTrail hunopened
  have hcomputed : (["grossPotentialIncome", "effectiveGrossIncome", "totalOperatingExpenses",
      "netOperatingIncome", "propertyValue"].filter fun id =>
        (raggedTrail.results.get? id).join.isSome) = ["grossPotentialIncome", "propertyValue"] := by
    decide
  rw [hcomputed] at hsummary
  exact ⟨hunopened, hsummary⟩

end FinancialModel
end Appraisal
