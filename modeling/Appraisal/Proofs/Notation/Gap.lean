import Appraisal.Notation.Basic
import Appraisal.Proofs.Notation.Generation
import Appraisal.Proofs.Notation.Grammar

/-!
# Gaps in a text

A gap is replaced at its first occurrence.  Where an occurrence begins can be told part by part: no gap
begins inside a token or inside a gap of another name, because a brace opens both only once and the word
behind it ends differently; and whatever is written in a text at dollar signs, no gap begins before them
that did not begin there already.
-/

namespace Appraisal
namespace Notation

variable {pattern text following : List Char}

/-- The pattern begins nowhere in a text that some characters follow. -/
def BeginsNowhere (pattern text following : List Char) : Prop :=
  ∀ before after, text = before ++ after → after ≠ [] → ¬ pattern <+: after ++ following

theorem beginsNowhere_nil (pattern following : List Char) : BeginsNowhere pattern [] following := by
  rintro before after hsplit hafter
  exact absurd (List.append_eq_nil_iff.1 hsplit.symm).2 hafter

theorem beginsNowhere_cons {c : Char} : BeginsNowhere pattern (c :: text) following ↔
    ¬ pattern <+: c :: (text ++ following) ∧ BeginsNowhere pattern text following := by
  constructor
  · intro h
    refine ⟨h [] (c :: text) rfl (by simp), fun before after hsplit hafter => ?_⟩
    exact h (c :: before) after (by rw [hsplit, List.cons_append]) hafter
  · rintro ⟨hfront, hrest⟩ before after hsplit hafter
    cases before with
    | nil =>
        obtain rfl : c :: text = after := by simpa using hsplit
        exact hfront
    | cons d before =>
        obtain ⟨-, htext⟩ := List.cons.inj hsplit
        exact hrest before after htext hafter

theorem beginsNowhere_append {first second : List Char} :
    BeginsNowhere pattern (first ++ second) following ↔
      BeginsNowhere pattern first (second ++ following) ∧ BeginsNowhere pattern second following := by
  induction first with
  | nil => simp [beginsNowhere_nil]
  | cons c first ih =>
      rw [List.cons_append, beginsNowhere_cons, beginsNowhere_cons, ih, List.append_assoc, and_assoc]

theorem beginsNowhere_of_not_mem {c : Char} (h : c ∉ text) (pattern following : List Char) :
    BeginsNowhere (c :: pattern) text following := by
  rintro before after rfl hafter hbegins
  obtain ⟨d, after, rfl⟩ := List.exists_cons_of_ne_nil hafter
  obtain ⟨rfl, -⟩ := List.cons_prefix_cons.1 hbegins
  simp at h


/-! ## Replacing the first occurrence -/

/-- Characters in which the pattern does not begin are passed over. -/
theorem replaceFirst_append (h : BeginsNowhere pattern text following)
    (replacement : List Char) : replaceFirst pattern replacement (text ++ following) =
      text ++ replaceFirst pattern replacement following := by
  induction text with
  | nil => rfl
  | cons c text ih =>
      obtain ⟨hfront, hrest⟩ := beginsNowhere_cons.1 h
      have hmiss : after? pattern (c :: (text ++ following)) = none := by
        refine Option.eq_none_iff_forall_ne_some.2 fun rest hrest => hfront ?_
        rw [after?_eq_some.1 hrest]
        exact List.prefix_append pattern rest
      rw [List.cons_append, replaceFirst, hmiss]
      exact congrArg (c :: ·) (ih hrest)

theorem replaceFirst_front (hne : pattern ≠ []) (replacement following : List Char) :
    replaceFirst pattern replacement (pattern ++ following) = replacement ++ following := by
  obtain ⟨c, pattern, rfl⟩ := List.exists_cons_of_ne_nil hne
  have hfound : after? (c :: pattern) (c :: (pattern ++ following)) = some following :=
    after?_append (c :: pattern) following
  rw [List.cons_append, replaceFirst, hfound]

theorem replaceFirst_nil (hne : pattern ≠ []) (replacement : List Char) :
    replaceFirst pattern replacement [] = [] := by
  rw [replaceFirst, if_neg (by simpa using hne)]

/-! ## Gaps -/

variable {name other : String}

theorem gap_ne_nil (name : String) : gap name ≠ [] := by
  simp [gap]

theorem dollar_not_mem_gap (h : IsWord name.toList) : '$' ∉ gap name := by
  have hword : '$' ∉ name.toList := h.not_mem rfl
  simp [gap, hword]

/-- Behind an opening brace and a word, a gap begins only if it is the gap of that word. -/
theorem gap_prefix_iff {word rest : List Char} {c : Char} (hname : IsWord name.toList)
    (hword : IsWord word) (hc : isWordChar c = false) :
    gap name <+: '\x7b' :: (word ++ c :: rest) ↔ name.toList = word ∧ c = '\x7d' := by
  constructor
  · rintro ⟨behind, hbehind⟩
    have htail : name.toList ++ '\x7d' :: behind = word ++ c :: rest := by
      simpa [gap] using hbehind
    have hend : isWordChar '\x7d' = false := by decide
    have hrun : name.toList = word := by
      rw [← takeWhile_append_cons hname.characters hend behind, htail,
        takeWhile_append_cons hword.characters hc rest]
    rw [hrun, List.append_cancel_left_eq] at htail
    exact ⟨hrun, (List.cons.inj htail).1.symm⟩
  · rintro ⟨rfl, rfl⟩
    exact ⟨rest, by simp [gap]⟩

/-- No gap begins inside a gap of another name. -/
theorem beginsNowhere_gap (hname : IsWord name.toList) (hother : IsWord other.toList)
    (hne : other ≠ name) (following : List Char) :
    BeginsNowhere (gap name) (gap other) following := by
  have hfront : ¬ gap name <+: '\x7b' :: (other.toList ++ '\x7d' :: following) := by
    rw [gap_prefix_iff hname hother (by decide)]
    rintro ⟨hsame, -⟩
    exact hne (String.toList_inj.1 hsame.symm)
  have hbehind : '\x7b' ∉ other.toList ++ ['\x7d'] := by
    have hword : '\x7b' ∉ other.toList := hother.not_mem (by decide)
    simp [hword]
  refine beginsNowhere_cons.2 ⟨?_, beginsNowhere_of_not_mem hbehind _ _⟩
  simpa using hfront

/-- No gap begins inside a token, unless a brace opens in what the token points at. -/
theorem beginsNowhere_token {reference : Reference} (hname : IsWord name.toList)
    (h : reference.Writable) (hvalue : '\x7b' ∉ reference.refValue.toList)
    (following : List Char) : BeginsNowhere (gap name) reference.token.chars following := by
  have hdollar : ¬ gap name <+: '$' :: ('\x7b' :: (reference.token.body ++ [closing]) ++ following) := by
    simp [gap]
  have hbrace : ¬ gap name <+: '\x7b' :: (reference.token.body ++ [closing] ++ following) := by
    -- The word behind the brace is the key, and a comma follows it.
    obtain ⟨rest, hrest⟩ : ∃ rest, reference.token.body ++ [closing] ++ following =
        reference.valueKey.toList ++ ',' :: rest := by
      simp [Token.body, Token.stem, Reference.token]
    rw [hrest, gap_prefix_iff hname h.valueKey (by decide)]
    simp
  have hbody : '\x7b' ∉ reference.token.body ++ [closing] := by
    have hstem : '\x7b' ∉ reference.token.stem :=
      h.wellFormed.not_mem_stem (by decide) (by decide) (by decide)
    have hrefValue : '\x7b' ∉ reference.token.refValue := hvalue
    simp [Token.body, hstem, hrefValue, closing]
  rw [Token.chars_eq_body]
  exact beginsNowhere_cons.2 ⟨hdollar, beginsNowhere_cons.2
    ⟨hbrace, beginsNowhere_of_not_mem hbody _ _⟩⟩

/-! ## First occurrences -/

/-- The first gap of a name in a template stands behind this text. -/
structure FirstGap (template : List Char) (name : String) (before : List Char) : Prop where
  occurs : before ++ gap name <+: template
  first : ∀ earlier, earlier ++ gap name <+: template → before <+: earlier

/-- A gap that occurs in a template occurs there for a first time. -/
theorem exists_firstGap {template : List Char} (h : gap name <:+: template) :
    ∃ before, FirstGap template name before := by
  induction template with
  | nil => exact absurd (List.infix_nil.1 h) (gap_ne_nil name)
  | cons c template ih =>
      -- Where the template does not begin with the gap, one character goes in front of the place found
      -- behind it.
      by_cases hfront : gap name <+: c :: template
      · exact ⟨[], hfront, fun earlier _ => List.nil_prefix⟩
      · have hinside : gap name <:+: template := (List.infix_cons_iff.1 h).resolve_left hfront
        obtain ⟨before, hoccurs, hfirst⟩ := ih hinside
        refine ⟨c :: before, List.cons_prefix_cons.2 ⟨rfl, hoccurs⟩, fun earlier hearlier => ?_⟩
        cases earlier with
        | nil => exact absurd hearlier hfront
        | cons d earlier =>
            obtain ⟨rfl, hrest⟩ := List.cons_prefix_cons.1 hearlier
            exact List.cons_prefix_cons.2 ⟨rfl, hfirst earlier hrest⟩

theorem firstGap_front {template before : List Char} (h : gap name <+: template) :
    FirstGap template name before ↔ before = [] := by
  constructor
  · intro hfirst
    exact List.prefix_nil.1 (hfirst.first [] h)
  · rintro rfl
    exact ⟨h, fun earlier _ => List.nil_prefix⟩

/-- There is one first occurrence at most. -/
theorem FirstGap.eq {template before other : List Char} (h : FirstGap template name before)
    (hother : FirstGap template name other) : before = other :=
  (h.first other hother.occurs).eq_of_length_le (hother.first before h.occurs).length_le

/-- In a part of a text that ends before the first gap, no gap begins. -/
theorem beginsNowhere_of_firstGap {preceding whole : List Char}
    (hwhole : whole = preceding ++ (text ++ following))
    (h : ∀ before, FirstGap whole name before → preceding ++ text <+: before) :
    BeginsNowhere (gap name) text following := by
  rintro before after rfl hafter ⟨rest, hrest⟩
  have hoccurs : preceding ++ before ++ gap name <+: whole :=
    ⟨rest, by simp [hwhole, hrest]⟩
  have hinside : gap name <:+: whole := (List.suffix_append _ _).isInfix.trans hoccurs.isInfix
  obtain ⟨first, hfirst⟩ := exists_firstGap hinside
  have hlong := ((h first hfirst).trans (hfirst.first _ hoccurs)).length_le
  have hpos : 0 < after.length := List.length_pos_of_ne_nil hafter
  simp only [List.length_append] at hlong
  omega

/-- Characters in which the gap does not begin stand before its first occurrence. -/
theorem firstGap_append {front template before : List Char}
    (h : BeginsNowhere (gap name) front template) :
    FirstGap (front ++ template) name before ↔
      ∃ behind, before = front ++ behind ∧ FirstGap template name behind := by
  -- An occurrence in the whole text lies behind the front.
  have hbehind : ∀ earlier, earlier ++ gap name <+: front ++ template →
      ∃ behind, earlier = front ++ behind ∧ behind ++ gap name <+: template := by
    rintro earlier ⟨rest, hrest⟩
    rw [List.append_assoc] at hrest
    rcases split_append hrest.symm with ⟨inside, hinside, hfront, hafter⟩ | ⟨behind, rfl, htemplate⟩
    · exact absurd ⟨rest, hafter⟩ (h earlier inside hfront hinside)
    · exact ⟨behind, rfl, rest, by rw [htemplate, List.append_assoc]⟩
  constructor
  · rintro ⟨hoccurs, hfirst⟩
    obtain ⟨behind, rfl, hrest⟩ := hbehind before hoccurs
    refine ⟨behind, rfl, hrest, fun earlier hearlier => ?_⟩
    have hwhole : front ++ earlier ++ gap name <+: front ++ template := by
      rw [List.append_assoc]
      exact (List.prefix_append_right_inj front).2 hearlier
    exact (List.prefix_append_right_inj front).1 (hfirst _ hwhole)
  · rintro ⟨behind, rfl, hoccurs, hfirst⟩
    refine ⟨?_, fun earlier hearlier => ?_⟩
    · rw [List.append_assoc]
      exact (List.prefix_append_right_inj front).2 hoccurs
    · obtain ⟨later, rfl, hlater⟩ := hbehind earlier hearlier
      exact (List.prefix_append_right_inj front).2 (hfirst later hlater)

end Notation
end Appraisal
