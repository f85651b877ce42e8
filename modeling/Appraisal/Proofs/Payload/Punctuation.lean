import Appraisal.Proofs.Decimal.Text
import Mathlib.Data.List.TakeWhile

/-!
# Amounts in running text

A text stands for the same amount when commas are put in anywhere and blanks are put around it.  So a number
that has been written down is read back from its text however the text is punctuated, with its sign, its
coefficient and its exponent; and whatever is taken for an amount stands for itself.
-/

namespace Appraisal

namespace Text

variable {inClass : Char → Bool} {before cs ds after : List Char}

theorem trim_append_left (hbefore : ∀ c ∈ before, inClass c = true) :
    trim inClass (before ++ cs) = trim inClass cs := by
  unfold trim
  rw [List.dropWhile_append_of_pos hbefore]

theorem trim_append_right (hafter : ∀ c ∈ after, inClass c = true) :
    trim inClass (cs ++ after) = trim inClass cs := by
  have hreversed : ∀ c ∈ after.reverse, inClass c = true := fun c hc => hafter c (List.mem_reverse.1 hc)
  unfold trim
  rw [List.dropWhile_append]
  split
  · next hempty =>
      -- Nothing but the class stands before, so nothing at all is left.
      have hnone : after.dropWhile inClass = [] := List.dropWhile_eq_nil_iff.2 hafter
      rw [hnone, List.isEmpty_iff.1 hempty]
  · rw [List.reverse_append, List.dropWhile_append_of_pos hreversed]

/-- Only characters of the class are taken from the ends. -/
theorem exists_eq_append_trim (inClass : Char → Bool) (cs : List Char) :
    ∃ before after, (∀ c ∈ before, inClass c = true) ∧ (∀ c ∈ after, inClass c = true) ∧
      cs = before ++ trim inClass cs ++ after := by
  have hfront := List.takeWhile_append_dropWhile (p := inClass) (l := cs)
  have hback := List.takeWhile_append_dropWhile (p := inClass) (l := (cs.dropWhile inClass).reverse)
  refine ⟨cs.takeWhile inClass, ((cs.dropWhile inClass).reverse.takeWhile inClass).reverse,
    fun c hc => List.mem_takeWhile_imp hc,
    fun c hc => List.mem_takeWhile_imp (List.mem_reverse.1 hc), ?_⟩
  rw [List.append_assoc, trim, ← List.reverse_append, hback, List.reverse_reverse, hfront]

/-- What is trimmed in the end need not be trimmed before characters are left out. -/
theorem trim_filter_trim (inClass kept : Char → Bool) (cs : List Char) :
    trim inClass ((trim inClass cs).filter kept) = trim inClass (cs.filter kept) := by
  obtain ⟨before, after, hbefore, hafter, heq⟩ := exists_eq_append_trim inClass cs
  have hfront : ∀ c ∈ before.filter kept, inClass c = true :=
    fun c hc => hbefore c (List.mem_of_mem_filter hc)
  have hback : ∀ c ∈ after.filter kept, inClass c = true :=
    fun c hc => hafter c (List.mem_of_mem_filter hc)
  conv_rhs => rw [heq, List.filter_append, List.filter_append, trim_append_right hback,
    trim_append_left hfront]

end Text

open Text (isBlank trim digitCount)

namespace Decimal

/-- The blanks around a text do not count when it is read as a number. -/
theorem ofChars?_congr {cs ds : List Char} (h : trim isBlank cs = trim isBlank ds) :
    ofChars? cs = ofChars? ds := by
  have hplain : plainDigits cs = plainDigits ds := by
    unfold plainDigits
    rw [h]
  unfold ofChars?
  rw [hplain]

theorem textual_of_lt {negative : Bool} {coefficient : Nat} {exponent : Int}
    (hexponent : exponent.natAbs < 10 ^ 17) (hdigits : digitCount coefficient < 10 ^ 17) :
    (finite negative coefficient exponent).Textual := by
  have hmost : maxTextExponent = 999999999999999999 := rfl
  have hleast : leastTextExponent = -1999999999999999997 := rfl
  refine ⟨?_, by omega⟩
  split <;> omega

end Decimal

namespace Payload

variable {plain written : List Char} {x : Decimal}

/-- A text that is made from another one by putting in commas anywhere and blanks in front and behind. -/
inductive Punctuated (plain : List Char) : List Char → Prop
  | plain : Punctuated plain plain
  | comma {before after : List Char} (h : Punctuated plain (before ++ after)) :
      Punctuated plain (before ++ ',' :: after)
  | front {c : Char} {written : List Char} (hc : isBlank c = true) (h : Punctuated plain written) :
      Punctuated plain (c :: written)
  | behind {c : Char} {written : List Char} (hc : isBlank c = true) (h : Punctuated plain written) :
      Punctuated plain (written ++ [c])

theorem ne_comma_of_isBlank {c : Char} (h : isBlank c = true) : c ≠ ',' := by
  rintro rfl
  revert h
  decide

/-- Commas and outer blanks are gone once the commas are dropped and the ends are trimmed. -/
theorem Punctuated.trim_filter (h : Punctuated plain written) :
    trim isBlank (written.filter (· ≠ ',')) = trim isBlank (plain.filter (· ≠ ',')) := by
  -- Each step adds one sign, and that sign is dropped or trimmed.
  induction h with
  | plain => rfl
  | comma _ ih =>
      rw [List.filter_append] at ih
      rw [List.filter_append, List.filter_cons_of_neg (by simp), ih]
  | @front c written hc _ ih =>
      rw [List.filter_cons_of_pos (by simpa using ne_comma_of_isBlank hc), ← ih]
      exact Text.trim_append_left (List.forall_mem_singleton.2 hc)
  | @behind c written hc _ ih =>
      rw [List.filter_append, List.filter_cons_of_pos (by simpa using ne_comma_of_isBlank hc),
        List.filter_nil, ← ih]
      exact Text.trim_append_right (List.forall_mem_singleton.2 hc)

theorem amountOfChars?_eq_bind (cs : List Char) :
    amountOfChars? cs = (Decimal.ofChars? (cs.filter (· ≠ ','))).bind finiteOnly := by
  unfold amountOfChars?
  rw [Decimal.ofChars?_congr (Text.trim_filter_trim isBlank (· ≠ ',') cs)]
  cases Decimal.ofChars? (cs.filter (· ≠ ',')) <;> rfl

/-- Punctuation does not change the amount that a text stands for. -/
theorem Punctuated.amount_eq (h : Punctuated plain written) :
    amountOfChars? written = amountOfChars? plain := by
  rw [amountOfChars?_eq_bind, amountOfChars?_eq_bind, Decimal.ofChars?_congr h.trim_filter]

/-! ## Numbers that are written down -/

theorem ne_comma_of_isNumberChar {c : Char} (h : Decimal.IsNumberChar c) : c ≠ ',' := by
  rintro rfl
  rcases h with hdigit | hmem
  · cases hdigit
  · revert hmem
    decide

theorem amountOfChars?_of_isNumberChar {cs : List Char} (h : ∀ c ∈ cs, Decimal.IsNumberChar c) :
    amountOfChars? cs = (Decimal.ofChars? cs).bind finiteOnly := by
  rw [amountOfChars?_eq_bind, List.filter_eq_self.2 fun c hc => by
    simpa using ne_comma_of_isNumberChar (h c hc)]

theorem amount?_text (chars : List Char) : (text (String.ofList chars)).amount? = amountOfChars? chars := by
  simp only [amount?, String.toList_ofList]

/-- The text of a finite number is read as that number. -/
theorem amount?_toText (hfinite : x.isFinite = true) (h : x.Textual) :
    (text x.toText).amount? = some x := by
  obtain ⟨negative, c, e, rfl⟩ := Decimal.exists_finite hfinite
  rw [Decimal.toText, amount?_text,
    amountOfChars?_of_isNumberChar (Decimal.isNumberChar_toChars negative c e), Decimal.ofChars?_toChars,
    Decimal.inTextRange?_of_textual h]
  rfl

theorem amount?_decimal (h : x.isFinite = true) : (decimal x).amount? = some x :=
  if_pos h

/-- A number is read back from its text, however the text is punctuated, with its sign, its coefficient and its
exponent; and what is taken for an amount is a finite number that is taken for itself. -/
theorem amount_survives :
    (∀ (negative : Bool) (coefficient : Nat) (exponent : Int), exponent.natAbs < 10 ^ 17 →
      digitCount coefficient < 10 ^ 17 →
      ∀ written, Punctuated (Decimal.finite negative coefficient exponent).toText.toList written →
        (text (String.ofList written)).amount? =
          some (Decimal.finite negative coefficient exponent)) ∧
      ∀ payload : Payload, payload.amount? = none ∨
        ∃ x, payload.amount? = some x ∧ x.isFinite = true ∧ (decimal x).amount? = some x := by
  constructor
  · intro negative coefficient exponent hexponent hdigits written hwritten
    have htextual : (Decimal.finite negative coefficient exponent).Textual :=
      Decimal.textual_of_lt hexponent hdigits
    have hread := amount?_toText rfl htextual
    rw [Decimal.toText, amount?_text] at hread
    rw [Decimal.toText, String.toList_ofList] at hwritten
    rw [amount?_text, hwritten.amount_eq, hread]
  · intro payload
    cases hamount : payload.amount? with
    | none => exact .inl rfl
    | some x =>
        have hfinite := isFinite_of_amount? hamount
        exact .inr ⟨x, rfl, hfinite, amount?_decimal hfinite⟩

/-- Two commas among the digits and blanks at both ends leave a negative amount its sign and its last zero. -/
theorem amount_survives_negative :
    (text " -,12.5,0\t").amount? = some (.finite true 1250 (-2)) := by
  have hplain : (Decimal.finite true 1250 (-2)).toText.toList = ['-', '1', '2', '.', '5', '0'] := by
    decide +kernel
  have hwritten : Punctuated (Decimal.finite true 1250 (-2)).toText.toList " -,12.5,0\t".toList := by
    rw [hplain]
    have hone : Punctuated ['-', '1', '2', '.', '5', '0'] ['-', '1', '2', '.', '5', ',', '0'] :=
      @Punctuated.comma _ ['-', '1', '2', '.', '5'] ['0'] .plain
    have htwo : Punctuated ['-', '1', '2', '.', '5', '0'] ['-', ',', '1', '2', '.', '5', ',', '0'] :=
      @Punctuated.comma _ ['-'] ['1', '2', '.', '5', ',', '0'] hone
    have hbehind : isBlank '\t' = true := by decide
    exact .front (by decide) (.behind hbehind htwo)
  have hread := amount_survives.1 true 1250 (-2) (by decide) (by decide +kernel) _ hwritten
  rwa [String.ofList_toList] at hread

end Payload
end Appraisal
