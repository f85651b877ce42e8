import Appraisal.Proofs.Decimal.Correct
import Appraisal.Proofs.Payload.Punctuation

/-!
# The text that is shown of a number

A number that is not whole is shown with all its digits, and its text is read back as that number.  A whole
number is rounded before it is written in positional notation, so its text denotes the nearest number of the
working precision: the number itself exactly when it has at most 28 digits before the zeros at its end.  A
whole number beyond the range of results is not shown at all.
-/

namespace Appraisal
namespace Decimal

open Text (AllDigits digitCount numeral readDigits signText)

variable {x y z : Decimal} {text : String} {p q : ℚ}

/-! ## Whole numbers -/

/-- The number has no fractional part. -/
def IsWhole (x : Decimal) : Prop :=
  ∃ n : Int, x.value = n

/-- Below the point all digits must be zero. -/
theorem exists_magnitude_eq_neg_iff (coefficient places : Nat) :
    (∃ n : Int, magnitude coefficient (-(places : Int)) = n) ↔ coefficient % tenTo places = 0 := by
  have hunit : (0 : ℚ) < 10 ^ places := by positivity
  have hquotient : magnitude coefficient (-(places : Int)) = coefficient / 10 ^ places := by
    rw [magnitude, zpow_neg, zpow_natCast, div_eq_mul_inv]
  rw [hquotient, ← Nat.dvd_iff_mod_eq_zero]
  constructor
  · rintro ⟨n, hn⟩
    rw [div_eq_iff hunit.ne'] at hn
    -- The equation is one of whole numbers once the places are multiplied away.
    have hproduct : (coefficient : Int) = n * tenTo places := by
      rw [← Int.cast_inj (α := ℚ)]
      push_cast
      rw [cast_tenTo, hn]
    exact Int.natCast_dvd_natCast.1 ⟨n, hproduct.trans (mul_comm ..)⟩
  · rintro ⟨quotient, rfl⟩
    refine ⟨quotient, ?_⟩
    rw [div_eq_iff hunit.ne']
    push_cast
    rw [cast_tenTo, mul_comm]

/-- A number is whole exactly when its digits behind the point are zeros. -/
theorem isWholeMultiple_iff (coefficient : Nat) (exponent : Int) :
    isWholeMultiple coefficient exponent = true ↔ ∃ n : Int, magnitude coefficient exponent = n := by
  unfold isWholeMultiple
  rw [Bool.or_eq_true, Bool.or_eq_true, Bool.and_eq_true, decide_eq_true_iff, decide_eq_true_iff,
    decide_eq_true_iff, decide_eq_true_iff]
  rcases le_or_gt 0 exponent with hpos | hneg
  · refine iff_of_true (.inl (.inl hpos)) ⟨(coefficient * tenTo (exponent - 0).toNat : Nat), ?_⟩
    rw [magnitude_eq_mul_of_le coefficient hpos, zpow_zero, mul_one, Int.cast_natCast]
  · obtain ⟨places, hplaces⟩ : ∃ places : Nat, exponent = -(places : Int) :=
      ⟨exponent.natAbs, by omega⟩
    have hdrop : (-exponent).toNat = places := by omega
    rw [hplaces, exists_magnitude_eq_neg_iff, ← hplaces, hdrop]
    constructor
    · rintro ((hpos | hzero) | ⟨-, hdivides⟩)
      · omega
      · rw [hzero, Nat.zero_mod]
      · exact hdivides
    · intro hdivides
      by_cases hzero : coefficient = 0
      · exact .inl (.inr hzero)
      · -- A multiple of a power of ten has more digits than that power has zeros.
        have hlarge := Nat.le_of_dvd (Nat.pos_of_ne_zero hzero) (Nat.dvd_of_mod_eq_zero hdivides)
        have hdigits : places < digitCount coefficient :=
          (Nat.pow_lt_pow_iff_right (by decide)).1 (hlarge.trans_lt (lt_tenTo_digitCount coefficient))
        exact .inr ⟨by omega, hdivides⟩

/-- The test for whole numbers is exact. -/
theorem isWhole_finite_iff (negative : Bool) (coefficient : Nat) (exponent : Int) :
    (finite negative coefficient exponent).IsWhole ↔ isWholeMultiple coefficient exponent = true := by
  rw [isWholeMultiple_iff, IsWhole, value_finite]
  -- The sign does not matter: negation takes integers to integers.
  cases negative with
  | false => rfl
  | true =>
      constructor
      · rintro ⟨n, hn⟩
        refine ⟨-n, ?_⟩
        rw [if_pos rfl, neg_eq_iff_eq_neg] at hn
        rw [hn, Int.cast_neg]
      · rintro ⟨n, hn⟩
        refine ⟨-n, ?_⟩
        rw [if_pos rfl, hn, Int.cast_neg]

/-- A whole number is rounded to a whole number. -/
theorem exists_nearest_eq (n : Int) : ∃ m : Int, nearest n = m := by
  rcases le_or_gt 0 (place n) with hpos | hneg
  · obtain ⟨more, hmore⟩ := Int.le.dest hpos
    rw [zero_add] at hmore
    refine ⟨nearestInt (n / 10 ^ place n) * 10 ^ more, ?_⟩
    rw [nearest, ← hmore, zpow_natCast]
    push_cast
    rfl
  · -- Digits behind the point may be kept, so all those before it are.
    have hsmall : |(n : ℚ)| < 10 ^ precision := by
      refine (lt_zpow_place n).trans_le ?_
      rw [← zpow_natCast]
      exact zpow_le_zpow_right₀ (by norm_num) (by omega)
    rw [← Int.cast_abs, Int.abs_eq_natAbs, ← cast_tenTo] at hsmall
    exact ⟨n, (held_intCast (by exact_mod_cast hsmall)).nearest_eq⟩

/-! ## Numbers without trailing zeros -/

/-- Zeros are left at the end only if the exponent could not grow any further. -/
theorem le_of_stripZeros {limit : Int} {coefficient : Nat} {exponent : Int} (hne : coefficient ≠ 0)
    (h : (stripZeros limit coefficient exponent).1 % 10 = 0) :
    limit ≤ (stripZeros limit coefficient exponent).2 := by
  induction coefficient, exponent using stripZeros.induct limit with
  | case1 coefficient exponent hstrip ih =>
      rw [stripZeros, if_pos hstrip] at h ⊢
      exact ih (by omega) h
  | case2 coefficient exponent hkept =>
      rw [stripZeros, if_neg hkept] at h ⊢
      by_contra hlt
      exact hkept ⟨hne, h, not_le.1 hlt⟩

/-- What is left of a number is the nearest one that can be held, and the last of its digits is no zero behind
the point. -/
theorem normalize_eq_ok {negative : Bool} {coefficient : Nat} {exponent : Int}
    (h : (finite negative coefficient exponent).normalize = .ok z) :
    ∃ sign kept last, z = finite sign kept last ∧
      z.value = nearest (finite negative coefficient exponent).value ∧
      magnitude kept last < overflowThreshold ∧ (kept % 10 = 0 → 0 ≤ last) := by
  unfold normalize at h
  dsimp only at h
  -- A zero, a number other than zero, and no number at all, which rounding never yields.
  split at h
  · next sign last hround =>
      obtain rfl := Except.ok.inj h
      refine ⟨sign, 0, 0, rfl, ?_, magnitude_zero_lt_overflowThreshold 0, fun _ => le_rfl⟩
      rw [← value_round hround, value_finite, value_finite, magnitude_zero, magnitude_zero]
  · next sign kept last hne hround =>
      obtain rfl := Except.ok.inj h
      have hmagnitude := magnitude_stripZeros maxExponent kept last
      refine ⟨_, _, _, rfl, ?_, ?_, fun hten => ?_⟩
      · rw [← value_round hround, value_finite, value_finite, hmagnitude]
      · rw [hmagnitude]
        exact magnitude_lt_of_round hround
      · have hkept : kept ≠ 0 := hne
        have hmost : 0 ≤ maxExponent := by decide
        exact hmost.trans (le_of_stripZeros hkept hten)
  · next answer hzero hfinite =>
      obtain ⟨sign, kept, last, rfl⟩ := exists_finite (round_isFinite h)
      exact absurd h (hfinite sign kept last)

/-- A whole number keeps no digit behind the point. -/
theorem nonneg_of_isWhole {negative : Bool} {coefficient : Nat} {exponent : Int}
    (h : (finite negative coefficient exponent).IsWhole) (hlast : coefficient % 10 = 0 → 0 ≤ exponent) :
    0 ≤ exponent := by
  by_contra hneg
  obtain ⟨places, hplaces⟩ : ∃ places : Nat, exponent = -((places + 1 : Nat) : Int) :=
    ⟨exponent.natAbs - 1, by omega⟩
  rw [isWhole_finite_iff, isWholeMultiple_iff, hplaces, exists_magnitude_eq_neg_iff,
    ← Nat.dvd_iff_mod_eq_zero] at h
  have hten : 10 ∣ tenTo (places + 1) := Dvd.intro_left (tenTo places) rfl
  exact hneg (hlast (Nat.mod_eq_zero_of_dvd (hten.trans h)))

/-! ## Positional notation -/

/-- The text counts as an amount of this value. -/
def Denotes (text : String) (q : ℚ) : Prop :=
  ∃ x, (Payload.text text).amount? = some x ∧ x.value = q

theorem Denotes.unique (hp : Denotes text p) (hq : Denotes text q) : p = q := by
  obtain ⟨x, hx, rfl⟩ := hp
  obtain ⟨y, hy, rfl⟩ := hq
  rw [Option.some.inj (hx.symm.trans hy)]

/-- A text denotes the value of the amount that is read from it. -/
theorem denotes_of_amount (h : (Payload.text text).amount? = some x) : Denotes text x.value :=
  ⟨x, h, rfl⟩

/-- Digits with a sign denote an integer, if there are not too many of them. -/
theorem amount?_digits (negative : Bool) {digits : List Char} (hdigits : AllDigits digits)
    (hne : digits ≠ []) (htextual : (finite negative (readDigits digits) 0).Textual) :
    (Payload.text (String.ofList (signText negative ++ digits))).amount? =
      some (finite negative (readDigits digits) 0) := by
  have hchars : ∀ c ∈ digits, IsNumberChar c := fun c hc => .inl (hdigits c hc)
  have hstarts : Text.StartsWithDigit digits := by
    obtain ⟨c, rest, rfl⟩ := List.exists_cons_of_ne_nil hne
    exact ⟨c, rest, rfl, hdigits c (List.mem_cons_self ..)⟩
  have hread := Text.readScientific?_whole hdigits hne Text.endsDigits_nil
  rw [List.append_nil] at hread
  rw [Payload.amount?_text, Payload.amountOfChars?_of_isNumberChar
    (List.forall_mem_append.2 ⟨isNumberChar_signText negative, hchars⟩),
    ofChars?_signText_append negative hchars hstarts, readFinite?, hread]
  exact congrArg (Option.bind · Payload.finiteOnly) (inTextRange?_of_textual htextual)

/-- A whole number of the range of results in positional notation denotes that number. -/
theorem denotes_wholeText (negative : Bool) {coefficient : Nat} {exponent : Int}
    (hexponent : 0 ≤ exponent) (hrange : magnitude coefficient exponent < overflowThreshold) :
    Denotes (wholeText (finite negative coefficient exponent))
      (finite negative coefficient exponent).value := by
  obtain ⟨count, hcount⟩ : ∃ count, count = if coefficient = 0 then 0 else exponent.toNat := ⟨_, rfl⟩
  have hmagnitude : magnitude (coefficient * tenTo count) 0 = magnitude coefficient exponent := by
    rw [magnitude_mul_tenTo, hcount]
    split
    · next hzero => rw [hzero, magnitude_zero, magnitude_zero]
    · rw [zero_add, Int.toNat_of_nonneg hexponent]
  -- The zeros put behind the digits multiply the number that they denote.
  have hvalue : readDigits (numeral coefficient ++ List.replicate count '0') =
      coefficient * tenTo count := by
    rw [Text.readDigits_append_digits, Text.readDigits_numeral, Text.readDigits_replicate_zero,
      List.length_replicate, add_zero]
    rfl
  have htextual : (finite negative (coefficient * tenTo count) 0).Textual :=
    textual_of_lt_overflowThreshold negative (hmagnitude ▸ hrange) (by decide) (by decide)
  have hread := amount?_digits negative
    (Text.allDigits_append.2 ⟨Text.allDigits_numeral coefficient, Text.allDigits_replicate count⟩)
    (List.append_ne_nil_of_left_ne_nil (Text.numeral_ne_nil coefficient) _) (by rwa [hvalue])
  rw [hvalue, ← List.append_assoc, hcount] at hread
  refine ⟨_, hread, ?_⟩
  rw [← hcount, value_finite, value_finite, hmagnitude]

/-! ## What is shown -/

/-- There are two ways to show a finite number: whole ones normalized and without an exponent, all others as
they are. -/
theorem shown_eq_ok {negative : Bool} {coefficient : Nat} {exponent : Int}
    (h : (finite negative coefficient exponent).shown = .ok text) :
    ((finite negative coefficient exponent).IsWhole ∧
      ∃ z, (finite negative coefficient exponent).normalize = .ok z ∧ text = z.wholeText) ∨
    (¬ (finite negative coefficient exponent).IsWhole ∧
      text = (finite negative coefficient exponent).toText) := by
  rw [isWhole_finite_iff]
  obtain ⟨isWhole, hwhole, h⟩ := bind_eq_ok.1 h
  obtain rfl := Except.ok.inj hwhole
  split at h
  · next hmultiple =>
      obtain ⟨z, hz, h⟩ := bind_eq_ok.1 h
      exact .inl ⟨hmultiple, z, hz, (pure_eq_ok.1 h).symm⟩
  · next hmultiple => exact .inr ⟨hmultiple, (pure_eq_ok.1 h).symm⟩

/-- What is shown of a whole number denotes the nearest number that can be held. -/
theorem denotes_of_isWhole (hfinite : x.isFinite = true) (hwhole : x.IsWhole)
    (h : x.shown = .ok text) : Denotes text (nearest x.value) := by
  obtain ⟨negative, coefficient, exponent, rfl⟩ := exists_finite hfinite
  rcases shown_eq_ok h with ⟨⟨n, hn⟩, z, hz, rfl⟩ | ⟨hfraction, -⟩
  · obtain ⟨sign, kept, last, rfl, hvalue, hrange, hlast⟩ := normalize_eq_ok hz
    have hkept : (finite sign kept last).IsWhole := by
      rw [IsWhole, hvalue, hn]
      exact exists_nearest_eq n
    rw [← hvalue]
    exact denotes_wholeText sign (nonneg_of_isWhole hkept hlast) hrange
  · exact absurd hwhole hfraction

/-- Infinities and undefined numbers are shown by their names. -/
theorem eq_toText_of_isFinite_eq_false (hinfinite : x.isFinite = false) (h : x.shown = .ok text) :
    text = x.toText := by
  obtain ⟨isWhole, hwhole, h⟩ := bind_eq_ok.1 h
  cases x with
  | finite negative coefficient exponent => cases hinfinite
  | infinite negative =>
      obtain rfl := Except.ok.inj hwhole
      exact (Except.ok.inj h).symm
  | nan negative signaling payload =>
      cases signaling with
      | false =>
          obtain rfl := Except.ok.inj hwhole
          exact (Except.ok.inj h).symm
      -- A signaling number is not shown at all.
      | true => cases hwhole

theorem eq_toText_of_not_isWhole (hfraction : ¬ x.IsWhole) (h : x.shown = .ok text) :
    text = x.toText := by
  by_cases hfinite : x.isFinite = true
  · obtain ⟨negative, coefficient, exponent, rfl⟩ := exists_finite hfinite
    rcases shown_eq_ok h with ⟨hwhole, -⟩ | ⟨-, htext⟩
    · exact absurd hwhole hfraction
    · exact htext
  · exact eq_toText_of_isFinite_eq_false (Bool.eq_false_iff.2 hfinite) h

/-- What can be read back from its text lies in the range of texts. -/
theorem textual_of_denotes_toText (hfinite : x.isFinite = true) (h : Denotes x.toText q) : x.Textual := by
  obtain ⟨negative, coefficient, exponent, rfl⟩ := exists_finite hfinite
  obtain ⟨y, hy, -⟩ := h
  rw [toText, Payload.amount?_text,
    Payload.amountOfChars?_of_isNumberChar (isNumberChar_toChars negative coefficient exponent),
    ofChars?_toChars] at hy
  obtain ⟨z, hz, hfinite⟩ := Option.bind_eq_some_iff.1 hy
  exact (Option.ite_none_right_eq_some.1 hz).1

/-- The text that is shown loses nothing of the number: a whole number needs no more than the digits that are
kept, and the digits of any other one lie within the range of texts. -/
def Legible (x : Decimal) : Prop :=
  (x.IsWhole → Held x.value) ∧ (¬ x.IsWhole → x.Textual)

/-- The text that is shown of a number denotes it exactly when nothing is lost. -/
theorem denotes_iff_legible (hfinite : x.isFinite = true) (h : x.shown = .ok text) :
    Denotes text x.value ↔ x.Legible := by
  -- A whole number is rounded before it is written, any other one is written as it is.
  by_cases hwhole : x.IsWhole
  · have hnearest := denotes_of_isWhole hfinite hwhole h
    constructor
    · intro hdenotes
      refine ⟨fun _ => ?_, absurd hwhole⟩
      rw [hdenotes.unique hnearest]
      exact held_nearest x.value
    · intro hlegible
      rwa [(hlegible.1 hwhole).nearest_eq] at hnearest
  · obtain rfl := eq_toText_of_not_isWhole hwhole h
    constructor
    · exact fun hdenotes => ⟨fun h => absurd h hwhole, fun _ => textual_of_denotes_toText hfinite hdenotes⟩
    · exact fun hlegible => denotes_of_amount (Payload.amount?_toText hfinite (hlegible.2 hwhole))

/-- Results of arithmetic are shown as they are. -/
theorem Rounded.legible (h : x.Rounded) : x.Legible := by
  refine ⟨fun _ => ?_, fun _ => h.textual⟩
  cases x with
  | finite negative coefficient exponent =>
      obtain ⟨sign, exact, place, hround⟩ := h
      rw [value_round hround]
      exact held_nearest _
  | infinite negative => exact held_zero
  | nan negative signaling payload => exact held_zero

/-- Only a whole number can be too large to be shown. -/
theorem shown_returns_iff_lt (hfinite : x.isFinite = true) :
    Returns x.shown ↔ (x.IsWhole → |x.value| < overflowThreshold) := by
  obtain ⟨negative, coefficient, exponent, rfl⟩ := exists_finite hfinite
  rw [shown_returns_iff, isWhole_finite_iff, abs_value_finite]
  rfl

end Decimal
end Appraisal
