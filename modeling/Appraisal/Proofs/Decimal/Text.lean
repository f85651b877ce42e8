import Appraisal.Proofs.Decimal.Range
import Appraisal.Proofs.Text.Digits

/-!
# The text of a decimal number can be read back

The text of a finite number holds digits, a point and signs only, so nothing of it is lost when blanks and
underscores are left out.  Wherever the point stands, the digits denote the coefficient and the length of
the fraction corrects the exponent.  A number whose digits lie within the range of texts is read back
with its coefficient and its exponent.  Outside of that range a text still belongs to one number only.
-/

namespace Appraisal
namespace Decimal

open Text

/-- The digits of the number lie within the range that a text may use. -/
def Textual : Decimal → Prop
  | finite _ c e =>
      (if c = 0 then e else digitCount c + e - 1) ≤ maxTextExponent ∧ leastTextExponent ≤ e
  | _ => True

instance : DecidablePred Textual
  | finite _ c e => inferInstanceAs (Decidable
      ((if c = 0 then e else digitCount c + e - 1) ≤ maxTextExponent ∧ leastTextExponent ≤ e))
  | infinite _ => isTrue trivial
  | nan _ _ _ => isTrue trivial

/-! ## Reading where the point was placed -/

/-- The exponent that is read behind the digits is lowered by the length of the fraction. -/
theorem readScientific?_placePoint {digits tail : List Char} {places : Int}
    (hdigits : AllDigits digits) (hne : digits ≠ []) (hplaces : places ≤ digits.length)
    (htail : EndsDigits tail) :
    readScientific? (placePoint digits places ++ tail) =
      (readExponent? tail).map fun exponent =>
        (readDigits digits, exponent + places - (digits.length : Int)) := by
  unfold placePoint
  split
  · next hfront =>
      -- All digits stand behind the point, after some zeros.
      have hfraction : AllDigits (List.replicate (-places).toNat '0' ++ digits) :=
        allDigits_append.2 ⟨allDigits_replicate _, hdigits⟩
      have hvalue : readDigits ('0' :: (List.replicate (-places).toNat '0' ++ digits)) =
          readDigits digits := by
        have hzeros := readDigits_zeros_append ((-places).toNat + 1) digits
        rwa [List.replicate_succ] at hzeros
      have hread := readScientific?_pointed (allDigits_replicate 1) hfraction (by simp) htail
      have hlength : ((List.replicate (-places).toNat '0' ++ digits).length : Int) =
          digits.length - places := by
        rw [List.length_append, List.length_replicate]
        omega
      have htext : ['0', '.'] ++ List.replicate (-places).toNat '0' ++ digits ++ tail =
          List.replicate 1 '0' ++ '.' :: (List.replicate (-places).toNat '0' ++ digits ++ tail) := by
        simp
      rw [htext, hread, List.replicate_one, List.singleton_append, hvalue, hlength]
      congr 1
      funext exponent
      rw [show exponent - ((digits.length : Int) - places) = exponent + places - digits.length by omega]
  · split
    · next hend =>
        -- No digit is left for a fraction, and none is missing.
        have hnone : places.toNat - digits.length = 0 := by omega
        rw [hnone, List.replicate_zero, List.append_nil, readScientific?_whole hdigits hne htail]
        congr 1
        funext exponent
        rw [show exponent + places - (digits.length : Int) = exponent by omega]
    · next hbetween =>
        have hread := readScientific?_pointed (hdigits.take places.toNat)
          (hdigits.drop places.toNat) (by simpa using hne) htail
        have hlength : ((digits.drop places.toNat).length : Int) = digits.length - places := by
          rw [List.length_drop]
          omega
        rw [List.append_assoc, List.cons_append, hread, List.take_append_drop, hlength]
        congr 1
        funext exponent
        rw [show exponent - ((digits.length : Int) - places) = exponent + places - digits.length by omega]

/-- An exponent is read back with its sign. -/
theorem readExponent?_exponentText (exponent : Int) :
    readExponent? (exponentText exponent) = some exponent := by
  have hdigits : numeral exponent.natAbs ≠ [] ∧ (numeral exponent.natAbs).all Char.isDigit = true :=
    ⟨numeral_ne_nil _, (allDigits_numeral _).all⟩
  unfold exponentText
  by_cases hnegative : exponent < 0
  · rw [if_pos hnegative, readExponent?, if_pos (.inr rfl)]
    simp only [readSign, if_pos hdigits, if_true, readDigits_numeral]
    rw [show -(exponent.natAbs : Int) = exponent by omega]
  · rw [if_neg hnegative, readExponent?, if_pos (.inr rfl)]
    simp only [readSign, if_pos hdigits, Bool.false_eq_true, if_false, readDigits_numeral]
    rw [show (exponent.natAbs : Int) = exponent by omega]

theorem endsDigits_exponentText (exponent : Int) : EndsDigits (exponentText exponent) :=
  ⟨not_startsWithDigit_cons (by decide) _, fun rest h => by cases h⟩

/-- Coefficient and exponent are read back, whichever of the two notations has been chosen. -/
theorem readScientific?_finiteText (c : Nat) (e : Int) :
    readScientific? (finiteText c e) = some (c, e) := by
  have hdigits := allDigits_numeral c
  have hne := numeral_ne_nil c
  have hcount : 0 < (numeral c).length := List.length_pos_iff.2 hne
  unfold finiteText
  dsimp only
  split
  · next hpositional =>
      have hplaces : e + (numeral c).length ≤ ((numeral c).length : Int) := by omega
      -- No exponent follows, so the length of the fraction alone is the exponent.
      have hread := readScientific?_placePoint hdigits hne hplaces endsDigits_nil
      rw [List.append_nil] at hread
      rw [hread, readDigits_numeral]
      have hexponent : (0 : Int) + (e + (numeral c).length) - (numeral c).length = e := by omega
      exact congrArg (fun exponent => some (c, exponent)) hexponent
  · next hscientific =>
      split
      · -- One place before the point would have been positional.
        omega
      · have hexponent : e + ((numeral c).length : Int) - 1 + 1 - (numeral c).length = e := by omega
        rw [readScientific?_placePoint hdigits hne (by omega) (endsDigits_exponentText _),
          readExponent?_exponentText, readDigits_numeral]
        exact congrArg (fun exponent => some (c, exponent)) hexponent

/-! ## The characters of a number -/

/-- A character that the text of a finite number may hold. -/
def IsNumberChar (c : Char) : Prop :=
  c.isDigit = true ∨ c ∈ ['-', '.', 'E', '+']

theorem isNumberChar_placePoint {digits : List Char} (h : AllDigits digits) (places : Int) :
    ∀ c ∈ placePoint digits places, IsNumberChar c := by
  have hzero (count : Nat) : ∀ c ∈ List.replicate count '0', IsNumberChar c :=
    fun c hc => .inl (allDigits_replicate count c hc)
  have hdigits (c : Char) (hc : c ∈ digits) : IsNumberChar c := .inl (h c hc)
  -- Zeros before the digits, zeros behind them, or a point among them.
  unfold placePoint
  split
  · simp only [List.forall_mem_append, List.forall_mem_cons, List.not_mem_nil, false_implies,
      implies_true, and_true]
    exact ⟨⟨⟨.inl rfl, .inr (by decide)⟩, hzero _⟩, hdigits⟩
  · split
    · exact List.forall_mem_append.2 ⟨hdigits, hzero _⟩
    · refine List.forall_mem_append.2 ⟨fun c hc => hdigits c (List.mem_of_mem_take hc), ?_⟩
      exact List.forall_mem_cons.2
        ⟨.inr (by decide), fun c hc => hdigits c (List.mem_of_mem_drop hc)⟩

theorem isNumberChar_finiteText (c : Nat) (e : Int) :
    ∀ character ∈ finiteText c e, IsNumberChar character := by
  have hplaced (places : Int) := isNumberChar_placePoint (allDigits_numeral c) places
  unfold finiteText
  dsimp only
  split
  · exact hplaced _
  · split
    · exact hplaced _
    · refine List.forall_mem_append.2 ⟨hplaced _, ?_⟩
      unfold exponentText
      refine List.forall_mem_cons.2 ⟨.inr (by decide), List.forall_mem_cons.2 ⟨?_, ?_⟩⟩
      · split
        · exact .inr (by decide)
        · exact .inr (by decide)
      · exact fun c hc => .inl (allDigits_numeral _ c hc)

theorem isNumberChar_signText (negative : Bool) : ∀ c ∈ signText negative, IsNumberChar c := by
  cases negative with
  | false => simp [signText]
  | true => simp [signText, IsNumberChar]

/-- The text of a finite number has no blank, no underscore and no digit of another script, so reading has
nothing to clean up. -/
theorem isNumberChar_toChars (negative : Bool) (c : Nat) (e : Int) :
    ∀ character ∈ (finite negative c e).toChars, IsNumberChar character :=
  List.forall_mem_append.2 ⟨isNumberChar_signText negative, isNumberChar_finiteText c e⟩

/-- No sign and no name of an infinity can be mistaken for the beginning of a number. -/
theorem startsWithDigit_finiteText (c : Nat) (e : Int) : StartsWithDigit (finiteText c e) := by
  have hplaced (places : Int) : StartsWithDigit (placePoint (numeral c) places) := by
    unfold placePoint
    split
    · exact ⟨'0', _, rfl, rfl⟩
    -- At least one digit stands before the point.
    · next hpositive =>
        split
        · exact (startsWithDigit_numeral c).append _
        · obtain ⟨count, hcount⟩ : ∃ count, places.toNat = count + 1 :=
            ⟨places.toNat - 1, by omega⟩
          rw [hcount]
          exact ((startsWithDigit_numeral c).take count).append _
  unfold finiteText
  dsimp only
  split
  · exact hplaced _
  · split
    · exact hplaced _
    · exact (hplaced _).append _

/-- The plain digit of a character, or the character itself if it is no digit. -/
def plainChar (c : Char) : Char :=
  match digitValue? c with
  | some d => digitChar d
  | none => c

theorem isBlank_of_isNumberChar {c : Char} (h : IsNumberChar c) : isBlank c = false := by
  rcases h with hdigit | hmem
  · obtain ⟨d, hd, rfl⟩ := eq_digitChar_of_isDigit hdigit
    have hall : ∀ d : Fin 10, isBlank (digitChar d) = false := by decide
    exact hall ⟨d, by omega⟩
  · simp only [List.mem_cons, List.not_mem_nil, or_false] at hmem
    rcases hmem with rfl | rfl | rfl | rfl <;> decide

theorem ne_underscore_of_isNumberChar {c : Char} (h : IsNumberChar c) : c ≠ '_' := by
  rintro rfl
  rcases h with hdigit | hmem
  · cases hdigit
  · revert hmem
    decide

theorem plainChar_of_isNumberChar {c : Char} (h : IsNumberChar c) : plainChar c = c := by
  rcases h with hdigit | hmem
  · obtain ⟨d, hd, rfl⟩ := eq_digitChar_of_isDigit hdigit
    have hall : ∀ d : Fin 10, plainChar (digitChar d) = digitChar d := by decide
    exact hall ⟨d, by omega⟩
  · simp only [List.mem_cons, List.not_mem_nil, or_false] at hmem
    rcases hmem with rfl | rfl | rfl | rfl <;> decide

theorem trim_eq_self {inClass : Char → Bool} {cs : List Char} (h : ∀ c ∈ cs, inClass c = false) :
    trim inClass cs = cs := by
  have hkeep {ds : List Char} (h : ∀ c ∈ ds, inClass c = false) : ds.dropWhile inClass = ds := by
    cases ds with
    | nil => rfl
    | cons d ds =>
        rw [List.dropWhile_cons_of_neg]
        simp [h d (List.mem_cons_self ..)]
  unfold trim
  rw [hkeep h, hkeep fun c hc => h c (List.mem_reverse.1 hc), List.reverse_reverse]

theorem plainDigits_eq_self {cs : List Char} (h : ∀ c ∈ cs, IsNumberChar c) :
    plainDigits cs = cs := by
  unfold plainDigits
  rw [trim_eq_self fun c hc => isBlank_of_isNumberChar (h c hc), List.filter_eq_self.2]
  · exact (List.map_congr_left fun c hc => plainChar_of_isNumberChar (h c hc)).trans
      (List.map_id'' (fun _ => rfl) cs)
  · intro c hc
    simpa using ne_underscore_of_isNumberChar (h c hc)

/-! ## Reading the text back -/

/-- The check of the range yields only numbers within it. -/
theorem textual_of_inTextRange? {negative : Bool} {c : Nat} {e : Int} {x : Decimal}
    (h : inTextRange? negative c e = some x) : x.Textual := by
  obtain ⟨hrange, hx⟩ := Option.ite_none_right_eq_some.1 h
  obtain rfl := Option.some.inj hx
  exact hrange

theorem inTextRange?_of_textual {negative : Bool} {c : Nat} {e : Int} (h : (finite negative c e).Textual) :
    inTextRange? negative c e = some (finite negative c e) :=
  if_pos h

/-- Whatever a text denotes lies within the range of texts. -/
theorem textual_of_ofChars? {cs : List Char} {x : Decimal} (h : ofChars? cs = some x) :
    x.Textual := by
  unfold ofChars? at h
  dsimp only at h
  -- A finite number is read only within the range that can be written again.
  split at h
  · next y hread =>
      obtain rfl := Option.some.inj h
      unfold readFinite? at hread
      split at hread
      · exact textual_of_inTextRange? hread
      · cases hread
  · unfold readName? at h
    dsimp only at h
    repeat' split at h
    all_goals (cases h <;> trivial)

theorem textual_ofInt {n : Int} (h : (digitCount n.natAbs : Int) ≤ maxTextExponent + 1) :
    (ofInt n).Textual := by
  show (if n.natAbs = 0 then (0 : Int) else digitCount n.natAbs + 0 - 1) ≤ maxTextExponent ∧
    leastTextExponent ≤ 0
  refine ⟨?_, by decide⟩
  split
  · decide
  · omega

/-- A result of rounding has an exponent between the least and the largest one, up to one place for a carry.
-/
theorem exponent_of_round {negative sign : Bool} {coefficient kept : Nat} {exponent last : Int}
    (h : round negative coefficient exponent = .ok (finite sign kept last)) :
    leastExponent ≤ last ∧ last ≤ maxExponent + 1 := by
  have hdigits := digitCount_pos coefficient
  have hbounds : leastExponent ≤ maxExponent := by decide
  have hlast : leastExponent ≤ lastKept coefficient exponent := Int.le_max_right _ _
  unfold round at h
  dsimp only at h
  split at h
  · simp only [Except.ok.injEq, finite.injEq] at h
    omega
  split at h
  · cases h
  -- The number has not been refused as too large.
  have hmost : lastKept coefficient exponent ≤ maxExponent := by
    have hprecision : 0 < precision := by decide
    unfold lastKept
    omega
  split at h
  · simp only [Except.ok.injEq, finite.injEq] at h
    omega
  split at h
  · split at h
    · cases h
    · simp only [Except.ok.injEq, finite.injEq] at h
      omega
  · simp only [Except.ok.injEq, finite.injEq] at h
    omega

/-- The range of results lies far within that of texts. -/
theorem textual_of_lt_overflowThreshold (negative : Bool) {coefficient : Nat} {exponent : Int}
    (h : magnitude coefficient exponent < overflowThreshold) (hleast : leastTextExponent ≤ exponent)
    (hmost : exponent ≤ maxTextExponent) : (finite negative coefficient exponent).Textual := by
  have hto : maxExponent + 1 ≤ maxTextExponent := by decide
  refine ⟨?_, hleast⟩
  split
  · exact hmost
  · next hne =>
      have hbelow : (10 : ℚ) ^ (digitCount coefficient + exponent - 1) < 10 ^ (maxExponent + 1) :=
        (le_magnitude hne exponent).trans_lt (h.trans overflowThreshold_lt)
      have hexponent := (zpow_lt_zpow_iff_right₀ (by norm_num)).1 hbelow
      omega

/-- Results of arithmetic can be written and read back. -/
theorem Rounded.textual {x : Decimal} (h : x.Rounded) : x.Textual := by
  cases x with
  | infinite negative => trivial
  | nan negative signaling payload => trivial
  | finite negative coefficient exponent =>
      obtain ⟨sign, exact, place, hround⟩ := h
      obtain ⟨hleast, hmost⟩ := exponent_of_round hround
      have hfrom : leastTextExponent ≤ leastExponent := by decide
      have hto : maxExponent + 1 ≤ maxTextExponent := by decide
      exact textual_of_lt_overflowThreshold negative (magnitude_lt_of_round hround)
        (hfrom.trans hleast) (hmost.trans hto)

/-- A text of digits, points and exponents denotes what is read behind its sign. -/
theorem ofChars?_signText_append (negative : Bool) {cs : List Char} (hchars : ∀ c ∈ cs, IsNumberChar c)
    (hdigit : StartsWithDigit cs) : ofChars? (signText negative ++ cs) = readFinite? negative cs := by
  have hplain : plainDigits (signText negative ++ cs) = signText negative ++ cs :=
    plainDigits_eq_self (List.forall_mem_append.2 ⟨isNumberChar_signText negative, hchars⟩)
  have hname : readName? negative (cs.map Char.toLower) = none :=
    readName?_eq_none negative (hdigit.map fun c => isDigit_toLower)
  unfold ofChars?
  rw [hplain, readSign_signText negative hdigit]
  dsimp only
  rw [hname]
  cases readFinite? negative cs <;> rfl

/-- Reading the text of a finite number comes down to checking its range. -/
theorem ofChars?_toChars (negative : Bool) (c : Nat) (e : Int) :
    ofChars? (finite negative c e).toChars = inTextRange? negative c e := by
  have hread := ofChars?_signText_append negative (isNumberChar_finiteText c e)
    (startsWithDigit_finiteText c e)
  rw [toChars, hread, readFinite?, readScientific?_finiteText]

/-- A finite number within the range of texts is what its text denotes. -/
theorem ofText?_toText {x : Decimal} (hfinite : x.isFinite = true) (h : x.Textual) :
    ofText? x.toText = some x := by
  obtain ⟨negative, c, e, rfl⟩ := exists_finite hfinite
  unfold ofText? toText
  rw [String.toList_ofList, ofChars?_toChars, inTextRange?_of_textual h]

/-! ## Two numbers never have one text -/

/-- The number that was written as some characters, whatever its digits and wherever its exponent lies. -/
def readWritten (cs : List Char) : Option Decimal :=
  let (negative, rest) := readSign cs
  match rest with
  | 'I' :: _ => some (infinite negative)
  | 'N' :: 'a' :: 'N' :: payload => some (nan negative false (readDigits payload))
  | 's' :: 'N' :: 'a' :: 'N' :: payload => some (nan negative true (readDigits payload))
  | digits => (readScientific? digits).map fun read => finite negative read.1 read.2

theorem readDigits_payload (payload : Nat) :
    readDigits (if payload = 0 then [] else numeral payload) = payload := by
  split
  · next hzero => exact hzero.symm
  · exact readDigits_numeral payload

theorem finiteText_ne_cons {d : Char} (hd : d.isDigit = false) (c : Nat) (e : Int) (rest : List Char) :
    finiteText c e ≠ d :: rest :=
  fun h => not_startsWithDigit_cons hd rest (h ▸ startsWithDigit_finiteText c e)

/-- Without bounds on the range, every number is read back from its characters. -/
theorem readWritten_toChars (x : Decimal) : readWritten x.toChars = some x := by
  cases x with
  | finite negative c e =>
      unfold readWritten toChars
      rw [readSign_signText negative (startsWithDigit_finiteText c e)]
      dsimp only
      -- No name begins with a digit.
      split
      · next h => exact absurd h (finiteText_ne_cons (by decide) c e _)
      · next h => exact absurd h (finiteText_ne_cons (by decide) c e _)
      · next h => exact absurd h (finiteText_ne_cons (by decide) c e _)
      · rw [readScientific?_finiteText]
        rfl
  | infinite negative => cases negative <;> rfl
  | nan negative signaling payload =>
      have hread := congrArg (fun read => some (nan negative signaling read)) (readDigits_payload payload)
      cases negative <;> cases signaling <;> exact hread

/-- The text of a number determines the number. -/
theorem toText_injective : Function.Injective toText := by
  intro x y h
  have hread := congrArg readWritten (String.ofList_injective h)
  rw [readWritten_toChars, readWritten_toChars] at hread
  exact Option.some.inj hread

end Decimal
end Appraisal
