import Appraisal.Notation.Basic
import Appraisal.Proofs.Notation.Grammar
import Appraisal.Proofs.Notation.Segmentation

/-!
# Opening signs and their closing braces

The faults of a text are the opening signs that no brace closes before the next one, and the unknown words
of its references.  In a text without fault no reference swallows another: what a reference points at holds
no opening sign, and every token of the text is read.
-/

namespace Appraisal
namespace Notation

/-- A brace closes every opening sign of the characters before the next one. -/
def Closed (text : List Char) : Prop :=
  ∀ before after, text = before ++ (opening ++ after) → closesFirst after = true

/-- An opening sign stands at a position of a text, and every closing brace behind it stands behind another
opening sign as well. -/
def UnclosedAt (text : String) (position : Nat) : Prop :=
  ∃ before after, text.toList = before ++ (opening ++ after) ∧ before.length = position ∧
    ∀ body rest, after = body ++ closing :: rest → opening <:+: body

/-! ## What closes an opening sign -/

theorem closesFirst_append {body : List Char} (h : Unopened body) (rest : List Char) :
    closesFirst (body ++ closing :: rest) = true := by
  induction body with
  | nil => rfl
  | cons c body ih =>
      have hstarts : ¬ opening <+: c :: body ++ closing :: rest :=
        h.not_starts (by simp) (.inr (by simp [closing]))
      have hafter : (after? opening (c :: (body ++ closing :: rest))).isSome = false :=
        Bool.eq_false_iff.2 fun hsome => hstarts (after?_opening_isSome_iff.1 hsome)
      rw [List.cons_append, closesFirst, hafter, ih (h.of_part (List.suffix_cons c body).isInfix)]
      simp

/-- A brace comes first when no opening sign stands before it. -/
theorem closesFirst_iff {text : List Char} :
    closesFirst text = true ↔ ∃ body rest, text = body ++ closing :: rest ∧ Unopened body := by
  constructor
  · intro h
    -- The recursion of the scan: it stops at a closing, at an opening, or at the end.
    induction text with
    | nil => cases h
    | cons c text ih =>
        rw [closesFirst] at h
        split at h
        · next hc => exact ⟨[], text, by rw [hc]; rfl, unopened_of_not_mem (by simp)⟩
        split at h
        · cases h
        · next hstarts =>
            obtain ⟨body, rest, rfl, hbody⟩ := ih h
            refine ⟨c :: body, rest, rfl, fun hinside => ?_⟩
            rcases List.infix_cons_iff.1 hinside with hstart | hinside
            · exact hstarts (after?_opening_isSome_iff.2 (hstart.trans (List.prefix_append _ _)))
            · exact hbody hinside
  · rintro ⟨body, rest, rfl, hbody⟩
    exact closesFirst_append hbody rest

theorem closesFirst_eq_false_iff {text : List Char} :
    closesFirst text = false ↔ ∀ body rest, text = body ++ closing :: rest → opening <:+: body := by
  rw [Bool.eq_false_iff, ne_eq, closesFirst_iff]
  simp [Unopened]

/-! ## The positions that are found -/

theorem mem_unclosedFrom_cons {start position : Nat} {c : Char} {text : List Char} :
    position ∈ unclosedFrom start (c :: text) ↔
      (start = position ∧ ∃ after, c :: text = opening ++ after ∧ closesFirst after = false) ∨
        position ∈ unclosedFrom (start + 1) text := by
  have hstarts : ((after? opening (c :: text)).isSome && !closesFirst text.tail) = true ↔
      ∃ after, c :: text = opening ++ after ∧ closesFirst after = false := by
    rw [Bool.and_eq_true, after?_opening_isSome_iff, Bool.not_eq_true']
    constructor
    · rintro ⟨⟨after, hafter⟩, hclosed⟩
      obtain ⟨-, rfl⟩ := List.cons.inj hafter
      exact ⟨after, hafter.symm, hclosed⟩
    · rintro ⟨after, hafter, hclosed⟩
      obtain ⟨-, rfl⟩ := List.cons.inj hafter
      exact ⟨⟨after, hafter.symm⟩, hclosed⟩
  rw [unclosedFrom]
  split
  · next h => rw [List.mem_cons, and_iff_left (hstarts.1 h), @eq_comm _ position]
  · next h => simp [mt hstarts.2 h]

/-- The positions counted are those of an opening that is not closed before the next one opens. -/
theorem mem_unclosedFrom_iff {start position : Nat} {text : List Char} :
    position ∈ unclosedFrom start text ↔ ∃ before after,
      text = before ++ (opening ++ after) ∧ start + before.length = position ∧
        closesFirst after = false := by
  -- What stands before the opening loses one character with each step, and the count gains one.
  induction text generalizing start with
  | nil => simp [unclosedFrom, opening]
  | cons c text ih =>
      rw [mem_unclosedFrom_cons, ih]
      constructor
      · rintro (⟨rfl, after, hafter, hclosed⟩ | ⟨before, after, rfl, rfl, hclosed⟩)
        · exact ⟨[], after, hafter, rfl, hclosed⟩
        · exact ⟨c :: before, after, rfl, by rw [List.length_cons]; omega, hclosed⟩
      · rintro ⟨before, after, hsplit, rfl, hclosed⟩
        cases before with
        | nil => exact .inl ⟨rfl, after, hsplit, hclosed⟩
        | cons d before =>
            obtain ⟨rfl, rfl⟩ := List.cons.inj hsplit
            exact .inr ⟨before, after, rfl, by rw [List.length_cons]; omega, hclosed⟩

/-- The positions that are found are those of the opening signs that no brace closes. -/
theorem mem_unclosedFrom_zero_iff {text : String} {position : Nat} :
    position ∈ unclosedFrom 0 text.toList ↔ UnclosedAt text position := by
  simp only [mem_unclosedFrom_iff, Nat.zero_add, closesFirst_eq_false_iff, UnclosedAt]

theorem le_of_mem_unclosedFrom {start position : Nat} {text : List Char}
    (h : position ∈ unclosedFrom start text) : start ≤ position := by
  obtain ⟨before, -, -, rfl, -⟩ := mem_unclosedFrom_iff.1 h
  exact Nat.le_add_right start before.length

theorem pairwise_unclosedFrom (start : Nat) (text : List Char) :
    (unclosedFrom start text).Pairwise (· < ·) := by
  induction text generalizing start with
  | nil => exact .nil
  | cons c text ih =>
      rw [unclosedFrom]
      split
      · exact (ih (start + 1)).cons fun _ => le_of_mem_unclosedFrom
      · exact ih (start + 1)

/-- No position is counted when every opening is closed. -/
theorem unclosedFrom_eq_nil_iff {start : Nat} {text : List Char} :
    unclosedFrom start text = [] ↔ Closed text := by
  simp only [List.eq_nil_iff_forall_not_mem, mem_unclosedFrom_iff, Closed]
  constructor
  · intro h before after hsplit
    exact Bool.of_not_eq_false fun hclosed => h _ ⟨before, after, hsplit, rfl, hclosed⟩
  · rintro h position ⟨before, after, hsplit, -, hclosed⟩
    rw [h before after hsplit] at hclosed
    cases hclosed

/-- A text is without errors when its openings are closed and its references use known words. -/
theorem validate_eq_nil_iff {text : String} :
    validate text = [] ↔
      Closed text.toList ∧ ∀ reference ∈ references text, wordErrors reference = [] := by
  rw [validate, List.append_eq_nil_iff, List.map_eq_nil_iff, unclosedFrom_eq_nil_iff,
    List.flatMap_eq_nil_iff]

theorem wordErrors_eq_nil_iff {reference : Reference} :
    wordErrors reference = [] ↔
      reference.sourceType ∈ knownSourceTypes ∧ reference.refType ∈ knownRefTypes := by
  rw [wordErrors, List.append_eq_nil_iff]
  simp

/-! ## Texts whose opening signs are closed -/

theorem Closed.of_append {before after : List Char} (h : Closed (before ++ after)) : Closed after :=
  fun front rear hsplit => h (before ++ front) rear (by rw [hsplit, List.append_assoc])

theorem unopened_braced {body : List Char} (h : Unopened body) :
    Unopened ('\x7b' :: (body ++ [closing])) := by
  have hbrace : Unopened ['\x7b'] := unopened_of_not_mem (by decide)
  have hlast : Unopened [closing] := unopened_of_not_mem (by decide)
  exact hbrace.append (h.append hlast (.inr (by decide))) (.inl (by decide))

/-- Behind its own opening sign, a token can have one only in what it points at. -/
theorem Token.WellFormed.unopened_body_iff {token : Token} (h : token.WellFormed) :
    Unopened token.body ↔ Unopened token.refValue := by
  have hstem := h.dollar_not_mem_stem
  constructor
  · intro hbody
    exact hbody.of_part (List.suffix_append _ _).isInfix
  · intro hvalue
    exact (unopened_of_not_mem hstem).append hvalue
      (.inl fun hlast => hstem (List.mem_of_getLast? hlast))

theorem Token.WellFormed.closed_chars {token : Token} (h : token.WellFormed)
    (hvalue : Unopened token.refValue) : Closed token.chars := by
  have hbody : Unopened token.body := h.unopened_body_iff.2 hvalue
  intro before after hsplit
  rw [Token.chars_eq_body] at hsplit
  cases before with
  | nil =>
      rw [← List.append_cancel_left hsplit]
      exact closesFirst_append hbody []
  | cons c before =>
      obtain ⟨-, htail⟩ := List.cons.inj hsplit
      exact absurd ⟨before, after, by rw [List.append_assoc]; exact htail.symm⟩ (unopened_braced hbody)

/-- A token whose opening sign is closed has no other one in it. -/
theorem Token.WellFormed.unopened_body {token : Token} (h : token.WellFormed) {rest : List Char}
    (hclosed : Closed (token.chars ++ rest)) : Unopened token.body := by
  have hchars : token.chars ++ rest = [] ++ (opening ++ (token.body ++ closing :: rest)) := by
    simp [Token.chars_eq_body]
  obtain ⟨front, more, hsplit, hfront⟩ := closesFirst_iff.1 (hclosed [] _ hchars)
  -- The brace that closes the opening sign is not before that of the token.
  obtain ⟨between, rfl, -⟩ := split_of_not_mem h.closing_not_mem_body hsplit
  exact hfront.of_part (List.prefix_append _ _).isInfix

/-- In a closed text no reference swallows the opening of another one. -/
theorem Exact.unopened_refValue {segments : List Segment} (h : Exact segments)
    (hclosed : Closed (segments.flatMap Segment.raw)) {token : Token}
    (hmem : .reference token ∈ segments) : Unopened token.refValue := by
  obtain ⟨before, after, rfl⟩ := List.append_of_mem hmem
  rw [List.flatMap_append, List.flatMap_cons] at hclosed
  cases h.of_append with
  | reference htoken _ => exact htoken.unopened_body_iff.1 (htoken.unopened_body hclosed.of_append)

/-- No token starts inside a token whose opening sign is closed. -/
theorem Token.WellFormed.scan?_inside {token : Token} (h : token.WellFormed)
    {before inside rest : List Char} (hclosed : Closed (token.chars ++ rest))
    (hchars : token.chars = before ++ inside) (hbefore : before ≠ []) (hinside : inside ≠ []) :
    Notation.scan? (inside ++ rest) = none := by
  have hlast : inside.getLast? = some closing := by
    have hend := congrArg List.getLast? hchars
    rwa [List.getLast?_append_of_ne_nil _ hinside, Token.chars, List.getLast?_concat, eq_comm] at hend
  obtain ⟨c, before, rfl⟩ := List.exists_cons_of_ne_nil hbefore
  obtain ⟨-, htail⟩ : '$' = c ∧ '\x7b' :: (token.body ++ [closing]) = before ++ inside := by
    simpa [Token.chars_eq_body, opening] using hchars
  have hunopened := unopened_braced (h.unopened_body hclosed)
  rw [htail] at hunopened
  cases hscan : Notation.scan? (inside ++ rest) with
  | none => rfl
  | some found =>
      have hapart : Apart inside rest := .inl (by simp [hlast, closing])
      have hopened : opening <+: inside :=
        opening_prefix_of_append hinside hapart (opening_prefix_of_scan? hscan)
      exact absurd hopened.isInfix (hunopened.of_part (List.suffix_append before inside).isInfix)

/-- Where a token starts a reference starts, when all opening signs are closed. -/
theorem Exact.exists_reference {segments : List Segment} (h : Exact segments)
    (hclosed : Closed (segments.flatMap Segment.raw)) {before after rest : List Char} {found : Token}
    (htext : segments.flatMap Segment.raw = before ++ after)
    (hscan : scan? after = some (found, rest)) :
    ∃ front token rear, segments = front ++ .reference token :: rear ∧
      front.flatMap Segment.raw = before := by
  -- The found token begins inside the first segment or after it; inside, only at the start of a reference.
  induction h generalizing before with
  | nil =>
      obtain ⟨-, rfl⟩ := List.append_eq_nil_iff.1 htext.symm
      cases hscan
  | @reference token segments htoken _ ih =>
      rw [List.flatMap_cons, Segment.raw] at htext hclosed
      rcases split_append htext with ⟨inside, hinside, hchars, rfl⟩ | ⟨between, rfl, hrest⟩
      · cases before with
        | nil => exact ⟨[], token, segments, rfl, rfl⟩
        | cons c before =>
            rw [htoken.scan?_inside hclosed hchars (by simp) hinside] at hscan
            cases hscan
      · obtain ⟨front, other, rear, rfl, rfl⟩ := ih hclosed.of_append hrest
        exact ⟨.reference token :: front, other, rear, rfl, rfl⟩
  | @plain text segments _ hfree _ _ ih =>
      rw [List.flatMap_cons, Segment.raw] at htext hclosed
      rcases split_append htext with ⟨inside, hinside, rfl, rfl⟩ | ⟨between, rfl, hrest⟩
      · rw [hfree before inside rfl hinside] at hscan
        cases hscan
      · obtain ⟨front, other, rear, rfl, rfl⟩ := ih hclosed.of_append hrest
        exact ⟨.plain text :: front, other, rear, rfl, rfl⟩

theorem length_reconstruct (segments : List Segment) :
    (reconstruct segments).length = (segments.flatMap Segment.raw).length := by
  rw [reconstruct, String.length_ofList]

/-- When all opening signs are closed, the tokens of a text are its references. -/
theorem tokenAt_iff {text : String} (hclosed : Closed text.toList) {position : Nat} :
    TokenAt text position ↔ ∃ before token after,
      parse text = before ++ .reference token :: after ∧ (reconstruct before).length = position := by
  have hexact := exact_parse text
  have hraw := raw_parse text
  simp only [length_reconstruct]
  constructor
  · rintro ⟨found, rest, hfound, hdrop⟩
    -- A token is not empty, so there is text left at its position.
    have hposition : position < text.toList.length := by
      rw [← List.drop_eq_nil_iff.not.trans not_le, hdrop]
      simp [Token.chars_eq_body, opening]
    have htext : (parse text).flatMap Segment.raw =
        text.toList.take position ++ text.toList.drop position := by
      rw [hraw, List.take_append_drop]
    obtain ⟨before, token, after, hparse, hbefore⟩ :=
      hexact.exists_reference (hraw.symm ▸ hclosed) htext (scan?_eq_some_iff.2 ⟨hfound, hdrop⟩)
    refine ⟨before, token, after, hparse, ?_⟩
    rw [hbefore, List.length_take, min_eq_left hposition.le]
  · rintro ⟨before, token, after, hparse, rfl⟩
    rw [hparse] at hexact hraw
    cases hexact.of_append with
    | reference htoken _ =>
        refine ⟨token, after.flatMap Segment.raw, htoken, ?_⟩
        rw [← hraw, List.flatMap_append, List.drop_left]
        rfl

theorem unopened_of_mem_references {text : String} (hclosed : Closed text.toList)
    {reference : Reference} (hmem : reference ∈ references text) :
    Unopened reference.refValue.toList := by
  obtain ⟨segment, hsegment, hreference⟩ := List.mem_filterMap.1 hmem
  cases segment with
  | plain text => cases hreference
  | reference token =>
      obtain rfl : token.reference = reference := by simpa [Segment.reference?] using hreference
      have hvalue := (exact_parse text).unopened_refValue ((raw_parse text).symm ▸ hclosed) hsegment
      simpa [Token.reference] using hvalue

/-- The faults of a text are, from left to right, the positions of the opening signs that no brace closes,
and then the unknown words of its references.  In a text without fault every token is a reference that is
read, no reference points at text with an opening sign in it, and all words are known. -/
theorem validate_exact (text : String) :
    (∃ positions : List Nat, positions.Pairwise (· < ·) ∧
      (∀ position, position ∈ positions ↔ UnclosedAt text position) ∧
      validate text = positions.map .unclosed ++ (references text).flatMap fun reference =>
        (if reference.sourceType ∈ ["userInput", "calculated", "sourceDocument", "assumption"] then []
          else [.sourceType reference.sourceType]) ++
        if reference.refType ∈ ["index", "key", "id"] then [] else [.refType reference.refType]) ∧
      (validate text = [] →
        (∀ position, TokenAt text position ↔ ∃ before token after,
          parse text = before ++ .reference token :: after ∧
            (reconstruct before).length = position) ∧
        ∀ reference ∈ references text, ¬ opening <:+: reference.refValue.toList ∧
          reference.sourceType ∈ ["userInput", "calculated", "sourceDocument", "assumption"] ∧
          reference.refType ∈ ["index", "key", "id"]) := by
  refine ⟨⟨unclosedFrom 0 text.toList, pairwise_unclosedFrom 0 text.toList,
    fun _ => mem_unclosedFrom_zero_iff, rfl⟩, fun hvalid => ?_⟩
  obtain ⟨hclosed, hwords⟩ := validate_eq_nil_iff.1 hvalid
  exact ⟨fun _ => tokenAt_iff hclosed, fun reference hmem =>
    ⟨unopened_of_mem_references hclosed hmem, wordErrors_eq_nil_iff.1 (hwords reference hmem)⟩⟩

/-- A text without fault: two of its opening signs start no token, its reference is spread out and points at
a text with signs in it, and it ends with half an opening sign. -/
def faultlessText : String :=
  "$\x7brent\x7d is $\x7bnoi,\t tooltip:calculated-key:net $ \x7b0\x7d, $ \x7b$\x7ba,\x7d $"

theorem validate_exact_faultless :
    validate faultlessText = [] ∧
      (∀ position, TokenAt faultlessText position ↔ ∃ before token after,
        parse faultlessText = before ++ .reference token :: after ∧
          (reconstruct before).length = position) ∧
      ∀ reference ∈ references faultlessText, ¬ opening <:+: reference.refValue.toList ∧
        reference.sourceType ∈ ["userInput", "calculated", "sourceDocument", "assumption"] ∧
        reference.refType ∈ ["index", "key", "id"] := by
  have hvalid : validate faultlessText = [] := by decide +kernel
  exact ⟨hvalid, (validate_exact faultlessText).2 hvalid⟩

end Notation
end Appraisal
