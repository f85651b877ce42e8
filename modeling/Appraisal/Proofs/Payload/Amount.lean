import Appraisal.Payload.Basic

/-!
# Amounts are finite

A payload that counts as an amount stands for a finite number.  For a floating-point number this rests on
its text: behind the sign it starts with a digit, so it cannot be read as the name of an infinity or of an
undefined number.
-/

namespace Appraisal

namespace Text

/-- The first character is a plain digit. -/
def StartsWithDigit (cs : List Char) : Prop :=
  ∃ c rest, cs = c :: rest ∧ c.isDigit = true

theorem StartsWithDigit.append {cs : List Char} (h : StartsWithDigit cs) (after : List Char) :
    StartsWithDigit (cs ++ after) := by
  obtain ⟨c, rest, rfl, hc⟩ := h
  exact ⟨c, rest ++ after, rfl, hc⟩

theorem StartsWithDigit.take {cs : List Char} (h : StartsWithDigit cs) (count : Nat) :
    StartsWithDigit (cs.take (count + 1)) := by
  obtain ⟨c, rest, rfl, hc⟩ := h
  exact ⟨c, rest.take count, rfl, hc⟩

theorem StartsWithDigit.map {cs : List Char} (h : StartsWithDigit cs) {f : Char → Char}
    (hf : ∀ c, c.isDigit = true → (f c).isDigit = true) : StartsWithDigit (cs.map f) := by
  obtain ⟨c, rest, rfl, hc⟩ := h
  exact ⟨f c, rest.map f, rfl, hf c hc⟩

theorem isDigit_digitChar {d : Nat} (h : d ≤ 9) : (digitChar d).isDigit = true := by
  have hall : ∀ d : Fin 10, (digitChar d).isDigit = true := by decide
  exact hall ⟨d, by omega⟩

theorem startsWithDigit_numeral (n : Nat) : StartsWithDigit (numeral n) := by
  induction n using Nat.strongRecOn with
  | ind n ih =>
      unfold numeral
      split
      · next hsmall => exact ⟨_, [], rfl, isDigit_digitChar (by omega)⟩
      · exact (ih (n / 10) (by omega)).append _

/-- Blanks are trimmed off behind a character that is none, and never before it. -/
theorem trim_eq_append {inClass : Char → Bool} {before : List Char} {c : Char} (rest : List Char)
    (hbefore : ∀ other ∈ before, inClass other = false) (hc : inClass c = false) :
    ∃ kept, trim inClass (before ++ c :: rest) = before ++ c :: kept := by
  have hfront : (before ++ c :: rest).dropWhile inClass = before ++ c :: rest := by
    cases before with
    | nil => simp [hc]
    | cons first others => simp [hbefore first (List.mem_cons_self ..)]
  have hback : (rest.reverse ++ c :: before.reverse).dropWhile inClass =
      rest.reverse.dropWhile inClass ++ c :: before.reverse := by
    rw [List.dropWhile_append]
    split
    · next hempty => simp_all
    · rfl
  refine ⟨(rest.reverse.dropWhile inClass).reverse, ?_⟩
  simp [trim, hfront, hback]

theorem readSign_signText (negative : Bool) {cs : List Char} (h : StartsWithDigit cs) :
    readSign (signText negative ++ cs) = (negative, cs) := by
  obtain ⟨c, rest, rfl, hc⟩ := h
  -- A digit is no sign, so without a sign nothing is taken off.
  cases negative with
  | true => rfl
  | false =>
      change readSign (c :: rest) = _
      unfold readSign
      split
      · next heq =>
          cases heq
          exact absurd hc (by decide)
      · next heq =>
          cases heq
          exact absurd hc (by decide)
      · rfl

theorem eq_digitChar_of_isDigit {c : Char} (h : c.isDigit = true) :
    ∃ d, d ≤ 9 ∧ c = digitChar d := by
  have hbounds : 48 ≤ c.toNat ∧ c.toNat ≤ 57 := by
    rw [Char.isDigit, Bool.and_eq_true, decide_eq_true_eq, decide_eq_true_eq] at h
    exact ⟨UInt32.le_iff_toNat_le.1 h.1, UInt32.le_iff_toNat_le.1 h.2⟩
  refine ⟨c.toNat - 48, by omega, ?_⟩
  unfold digitChar
  rw [show 48 + (c.toNat - 48) = c.toNat by omega, Char.ofNat_toNat]

theorem isDigit_toLower {c : Char} (h : c.isDigit = true) : c.toLower.isDigit = true := by
  obtain ⟨d, hd, rfl⟩ := eq_digitChar_of_isDigit h
  have hall : ∀ d : Fin 10, (digitChar d).toLower.isDigit = true := by decide
  exact hall ⟨d, by omega⟩

end Text

namespace Binary64

open Text (StartsWithDigit startsWithDigit_numeral signText)

theorem startsWithDigit_digitsText (digits : Digits) : StartsWithDigit (digitsText digits) := by
  have hdigits := startsWithDigit_numeral digits.coefficient
  -- The four ways of writing the digits: with an exponent, as a whole, with a point inside, after leading
  -- zeros.
  unfold digitsText
  dsimp only
  split
  · obtain ⟨c, rest, heq, hc⟩ := hdigits
    rw [heq]
    split
    · next hone =>
        cases hone
        exact ⟨_, _, rfl, hc⟩
    · next hmany =>
        cases hmany
        exact ⟨_, _, rfl, hc⟩
    · next hnone => cases hnone
  · split
    · exact (hdigits.append _).append _
    · split
      · next hleading =>
          rw [Int.toNat_add hleading (by decide)]
          exact (hdigits.take _).append _
      · exact ⟨'0', _, rfl, by decide⟩

/-- A finite floating-point number is written as a sign and a numeral, never as a name. -/
theorem toChars_of_isFinite {x : Binary64} (h : x.isFinite = true) :
    ∃ negative cs, x.toChars = signText negative ++ cs ∧ StartsWithDigit cs := by
  cases x with
  | finite negative significand scale =>
      refine ⟨negative, _, rfl, ?_⟩
      split
      · exact ⟨'0', _, rfl, by decide⟩
      · exact startsWithDigit_digitsText _
  | infinite => cases h
  | nan => cases h

end Binary64

namespace Decimal

open Text (StartsWithDigit signText)

/-- Signs stay where they are when blanks and underscores are taken out and digits are made plain. -/
theorem plainDigits_signText (negative : Bool) {cs : List Char} (h : StartsWithDigit cs) :
    ∃ digits, plainDigits (signText negative ++ cs) = signText negative ++ digits ∧
      StartsWithDigit digits := by
  obtain ⟨c, rest, rfl, hc⟩ := h
  obtain ⟨d, hd, rfl⟩ := Text.eq_digitChar_of_isDigit hc
  have hblank : ∀ d : Fin 10, Text.isBlank (Text.digitChar d) = false := by decide
  have hminus : Text.isBlank '-' = false := by decide
  have hsign : ∀ other ∈ signText negative, Text.isBlank other = false := by
    cases negative with
    | true => simpa [signText] using hminus
    | false => simp [signText]
  obtain ⟨kept, hkept⟩ := Text.trim_eq_append rest hsign (hblank ⟨d, by omega⟩)
  have hunderscore : ∀ d : Fin 10, Text.digitChar d ≠ '_' := by decide
  unfold plainDigits
  rw [hkept, List.filter_append, List.map_append,
    List.filter_cons_of_pos (by simpa using hunderscore ⟨d, by omega⟩)]
  refine ⟨_, congrArg (· ++ _) (by cases negative <;> decide),
    StartsWithDigit.map ⟨_, _, rfl, hc⟩ ?_⟩
  intro other hother
  split
  · next value hvalue => exact Text.isDigit_digitChar (Text.digitValue?_le_nine hvalue)
  · exact hother

theorem readName?_eq_none (negative : Bool) {cs : List Char} (h : StartsWithDigit cs) :
    readName? negative cs = none := by
  obtain ⟨c, rest, rfl, hc⟩ := h
  unfold readName?
  simp [hc]

theorem isFinite_of_readFinite? {negative : Bool} {cs : List Char} {x : Decimal}
    (h : readFinite? negative cs = some x) : x.isFinite = true := by
  unfold readFinite? inTextRange? at h
  dsimp only at h
  repeat' split at h
  all_goals (cases h <;> rfl)

/-- A text that starts with a digit behind its sign is never read as an infinity or as no number. -/
theorem isFinite_of_ofChars? {negative : Bool} {cs : List Char} {x : Decimal}
    (hcs : StartsWithDigit cs) (h : ofChars? (signText negative ++ cs) = some x) :
    x.isFinite = true := by
  obtain ⟨digits, hplain, hdigits⟩ := plainDigits_signText negative hcs
  unfold ofChars? at h
  rw [hplain, Text.readSign_signText negative hdigits] at h
  dsimp only at h
  split at h
  · next y hread =>
      obtain rfl := Option.some.inj h
      exact isFinite_of_readFinite? hread
  · rw [readName?_eq_none negative (hdigits.map fun c => Text.isDigit_toLower)] at h
    cases h

end Decimal

theorem Payload.finiteOnly_eq_some {x y : Decimal} (h : finiteOnly x = some y) :
    y = x ∧ y.isFinite = true := by
  unfold finiteOnly at h
  split at h
  · next hfinite =>
      obtain rfl := Option.some.inj h
      exact ⟨rfl, hfinite⟩
  · cases h

/-- The amount that a payload stands for is a finite number. -/
theorem Payload.isFinite_of_amount? {payload : Payload} {x : Decimal}
    (h : payload.amount? = some x) : x.isFinite = true := by
  -- Only the text of a floating-point number is read without a test of its own.
  unfold amount? at h
  split at h
  · exact (finiteOnly_eq_some h).2
  · obtain rfl := Option.some.inj h
    rfl
  · split at h
    · next hfinite =>
        obtain ⟨negative, cs, hchars, hcs⟩ := Binary64.toChars_of_isFinite hfinite
        exact Decimal.isFinite_of_ofChars? hcs (hchars ▸ h)
    · cases h
  · unfold amountOfChars? at h
    split at h
    · exact (finiteOnly_eq_some h).2
    · cases h
  · cases h

end Appraisal
