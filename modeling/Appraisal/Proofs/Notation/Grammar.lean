import Appraisal.Notation.Basic
import Mathlib.Data.List.TakeWhile

/-!
# Tokens and their scanner

Which texts are tokens, which token stands in front of a text, and how far the scanner looks for it.
-/

namespace Appraisal

/-!
## The grammar of tokens

The scanner reads exactly the tokens of the grammar.  In front of a text there is at most one of them: the
words end at the first character that is none of a word, the blanks end at the tooltip, and what the
reference points at ends at the first closing brace.
-/

namespace Notation

open Text (isBlank)

/-- A word is not empty and consists of plain letters, plain digits and underscores. -/
structure IsWord (word : List Char) : Prop where
  nonempty : word ≠ []
  characters : ∀ c ∈ word, isWordChar c = true

theorem isWord_iff {word : List Char} : IsWord word ↔ word ≠ [] ∧ word.all isWordChar = true :=
  ⟨fun h => ⟨h.nonempty, List.all_eq_true.2 h.characters⟩,
    fun h => ⟨h.1, List.all_eq_true.1 h.2⟩⟩

instance (word : List Char) : Decidable (IsWord word) :=
  decidable_of_iff _ isWord_iff.symm

theorem IsWord.not_mem {word : List Char} (h : IsWord word) {c : Char}
    (hc : isWordChar c = false) : c ∉ word := fun hmem =>
  Bool.eq_false_iff.1 hc (h.characters c hmem)

/-- The tokens of the grammar. -/
structure Token.WellFormed (token : Token) : Prop where
  valueKey : IsWord token.valueKey
  blanks : ∀ c ∈ token.blanks, isBlank c = true
  sourceType : IsWord token.sourceType
  refType : IsWord token.refType
  refValue : token.refValue ≠ []
  unclosed : closing ∉ token.refValue

/-! ### Runs of characters -/

theorem takeWhile_append_cons {inClass : Char → Bool} {run : List Char} {c : Char}
    (hrun : ∀ d ∈ run, inClass d = true) (hc : inClass c = false) (rest : List Char) :
    (run ++ c :: rest).takeWhile inClass = run := by
  rw [List.takeWhile_append_of_pos hrun, List.takeWhile_cons_of_neg (by simp [hc]), List.append_nil]

theorem dropWhile_append_cons {inClass : Char → Bool} {run : List Char} {c : Char}
    (hrun : ∀ d ∈ run, inClass d = true) (hc : inClass c = false) (rest : List Char) :
    (run ++ c :: rest).dropWhile inClass = c :: rest := by
  rw [List.dropWhile_append_of_pos hrun, List.dropWhile_cons_of_neg (by simp [hc])]

theorem run?_append_cons {inClass : Char → Bool} {run : List Char} {c : Char}
    (hne : run ≠ []) (hrun : ∀ d ∈ run, inClass d = true) (hc : inClass c = false)
    (rest : List Char) : run? inClass (run ++ c :: rest) = some (run, c :: rest) := by
  unfold run?
  rw [takeWhile_append_cons hrun hc, dropWhile_append_cons hrun hc]
  cases run with
  | nil => contradiction
  | cons d run => rfl

theorem run?_sound {inClass : Char → Bool} {text run rest : List Char}
    (h : run? inClass text = some (run, rest)) :
    run ≠ [] ∧ ∀ c ∈ run, inClass c = true := by
  unfold run? at h
  split at h
  · simp at h
  · next c cs htake =>
      obtain ⟨rfl, -⟩ : c :: cs = run ∧ text.dropWhile inClass = rest := by simpa using h
      refine ⟨by simp, fun d hd => ?_⟩
      rw [← htake] at hd
      exact List.mem_takeWhile_imp hd

theorem isWord_of_run? {text word rest : List Char}
    (h : run? isWordChar text = some (word, rest)) : IsWord word :=
  ⟨(run?_sound h).1, (run?_sound h).2⟩

theorem IsWord.run? {word : List Char} (h : IsWord word) {c : Char} (hc : isWordChar c = false)
    (rest : List Char) : run? isWordChar (word ++ c :: rest) = some (word, c :: rest) :=
  run?_append_cons h.nonempty h.characters hc rest

theorem after?_append (expected rest : List Char) : after? expected (expected ++ rest) = some rest :=
  after?_eq_some.2 rfl

/-! ### Reading tokens -/

/-- Only well-formed tokens are found. -/
theorem wellFormed_of_scan? {text rest : List Char} {token : Token}
    (h : scan? text = some (token, rest)) : token.WellFormed := by
  simp only [scan?, Option.bind_eq_bind, Option.bind_eq_some_iff, Prod.exists, Option.pure_def,
    Option.some.injEq, Prod.mk.injEq] at h
  obtain ⟨_, -, key, _, hkey, _, -, _, -, source, _, hsource, _, -, kind, _, hkind, _, -, value, _,
    hvalue, _, -, rfl, -⟩ := h
  exact {
    valueKey := isWord_of_run? hkey
    blanks := fun c hc => List.mem_takeWhile_imp hc
    sourceType := isWord_of_run? hsource
    refType := isWord_of_run? hkind
    refValue := (run?_sound hvalue).1
    unclosed := fun hmem => by simpa using (run?_sound hvalue).2 closing hmem }

/-- A well-formed token is found where it is written. -/
theorem Token.WellFormed.scan? {token : Token} (h : token.WellFormed) (rest : List Char) :
    scan? (token.chars ++ rest) = some (token, rest) := by
  -- What follows the signs between the parts of the token, from the last part to the first.
  let fourth := token.refValue ++ closing :: rest
  let third := token.refType ++ ':' :: fourth
  let second := token.sourceType ++ '-' :: third
  let first := token.blanks ++ (tooltip ++ second)
  have htext : token.chars ++ rest = opening ++ (token.valueKey ++ ',' :: first) := by
    simp [Token.chars, first, second, third, fourth]
  have hkey : run? isWordChar (token.valueKey ++ ',' :: first) =
      some (token.valueKey, ',' :: first) := h.valueKey.run? rfl first
  have hblanks : first.takeWhile isBlank = token.blanks :=
    takeWhile_append_cons h.blanks (by decide) _
  have htooltip : first.dropWhile isBlank = tooltip ++ second :=
    dropWhile_append_cons h.blanks (by decide) _
  have hsource : run? isWordChar second = some (token.sourceType, '-' :: third) :=
    h.sourceType.run? rfl third
  have hkind : run? isWordChar third = some (token.refType, ':' :: fourth) :=
    h.refType.run? rfl fourth
  -- The value runs to the first closing brace, and has none of its own.
  have hvalue : run? (· ≠ closing) fourth = some (token.refValue, closing :: rest) :=
    run?_append_cons h.refValue (fun c hc => by simpa using ne_of_mem_of_not_mem hc h.unclosed)
      (by simp) rest
  have hsign (c : Char) (text : List Char) : after? [c] (c :: text) = some text :=
    after?_append [c] text
  rw [htext]
  unfold Notation.scan?
  simp only [Option.bind_eq_bind, Option.bind_some, after?_append, hkey, hsign, hblanks, htooltip,
    hsource, hkind, hvalue]
  rfl

/-- The scanner reads a token of the grammar whenever there is one, and no other. -/
theorem scan?_eq_some_iff {text rest : List Char} {token : Token} :
    scan? text = some (token, rest) ↔ token.WellFormed ∧ text = token.chars ++ rest := by
  constructor
  · intro h
    exact ⟨wellFormed_of_scan? h, scan?_append h⟩
  · rintro ⟨htoken, rfl⟩
    exact htoken.scan? rest

/-!
## How far a token reaches

A token ends at the first closing brace behind its opening sign, so the text behind that brace does not
decide whether there is a token.  A dollar sign inside a token stands in what the reference points at.
Where a text goes on with a dollar sign, a token that starts earlier therefore depends on what follows only
in that there must be a closing brace.
-/

/-- The characters of a token between its opening sign and what the reference points at. -/
def Token.stem (token : Token) : List Char :=
  token.valueKey ++ ',' :: token.blanks ++ tooltip ++ token.sourceType ++ '-' :: token.refType ++ [':']

/-- The characters of a token between its opening sign and its closing brace. -/
def Token.body (token : Token) : List Char :=
  token.stem ++ token.refValue

theorem Token.chars_eq_body (token : Token) : token.chars = opening ++ (token.body ++ [closing]) := by
  simp [Token.chars, Token.body, Token.stem]

theorem Token.WellFormed.not_mem_stem {token : Token} (h : token.WellFormed) {c : Char}
    (hword : isWordChar c = false) (hblank : isBlank c = false)
    (hsigns : c ∉ ',' :: '-' :: ':' :: tooltip) : c ∉ token.stem := by
  have hblanks : c ∉ token.blanks := fun hmem => Bool.eq_false_iff.1 hblank (h.blanks c hmem)
  obtain ⟨hcomma, hdash, hcolon, htooltip⟩ : c ≠ ',' ∧ c ≠ '-' ∧ c ≠ ':' ∧ c ∉ tooltip := by
    simpa using hsigns
  simp [Token.stem, h.valueKey.not_mem hword, h.sourceType.not_mem hword, h.refType.not_mem hword,
    hblanks, htooltip, hcomma, hdash, hcolon]

theorem Token.WellFormed.dollar_not_mem_stem {token : Token} (h : token.WellFormed) :
    '$' ∉ token.stem :=
  h.not_mem_stem (by decide) (by decide) (by decide)

theorem Token.WellFormed.closing_not_mem_body {token : Token} (h : token.WellFormed) :
    closing ∉ token.body := by
  have hstem : closing ∉ token.stem := h.not_mem_stem (by decide) (by decide) (by decide)
  simp [Token.body, hstem, h.unclosed]

/-! ### Places in a text -/

/-- A place in a text lies before the end of its first part, or in the second part. -/
theorem split_append {first second before after : List Char}
    (h : first ++ second = before ++ after) :
    (∃ inside, inside ≠ [] ∧ first = before ++ inside ∧ after = inside ++ second) ∨
      ∃ between, before = first ++ between ∧ second = between ++ after := by
  rcases List.append_eq_append_iff.1 h with ⟨between, hbefore, hsecond⟩ | ⟨inside, hfirst, hafter⟩
  · exact .inr ⟨between, hbefore, hsecond⟩
  · cases inside with
    | nil => exact .inr ⟨[], by simpa using hfirst.symm, by simpa using hafter.symm⟩
    | cons c inside => exact .inl ⟨c :: inside, by simp, hfirst, hafter⟩

/-- A character that is not in the front of a text stands behind it. -/
theorem split_of_not_mem {c : Char} {front back text rest : List Char} (hfront : c ∉ front)
    (h : front ++ back = text ++ c :: rest) :
    ∃ between, text = front ++ between ∧ back = between ++ c :: rest := by
  rcases split_append h with ⟨inside, hinside, rfl, hafter⟩ | ⟨between, htext, hback⟩
  · obtain ⟨d, inside, rfl⟩ := List.exists_cons_of_ne_nil hinside
    obtain ⟨rfl, -⟩ := List.cons.inj hafter
    simp at hfront
  · exact ⟨between, htext, hback⟩

theorem append_cons_inj {c : Char} {text other rest more : List Char} (htext : c ∉ text)
    (hother : c ∉ other) (h : text ++ c :: rest = other ++ c :: more) :
    text = other ∧ rest = more := by
  obtain ⟨between, rfl, hbetween⟩ := split_of_not_mem htext h
  cases between with
  | nil => exact ⟨by simp, by simpa using hbetween⟩
  | cons d between =>
      obtain ⟨rfl, -⟩ := List.cons.inj hbetween
      simp at hother

/-! ### The closing brace -/

/-- What stands behind a closing brace does not matter to a token that starts before it. -/
theorem scan?_of_append {text rest after : List Char} {token : Token} (hclosing : closing ∈ text)
    (h : scan? (text ++ rest) = some (token, after)) :
    ∃ between, scan? text = some (token, between) ∧ after = between ++ rest := by
  obtain ⟨htoken, htext⟩ := scan?_eq_some_iff.1 h
  obtain ⟨start, between, rfl, hstart⟩ := List.eq_append_cons_of_mem hclosing
  have hopening : closing ∉ opening := by decide
  have hinside : closing ∉ opening ++ token.body := by
    simp [hopening, htoken.closing_not_mem_body]
  have hsplit : start ++ closing :: (between ++ rest) = (opening ++ token.body) ++ closing :: after := by
    simpa [Token.chars_eq_body] using htext
  obtain ⟨rfl, rfl⟩ := append_cons_inj hstart hinside hsplit
  exact ⟨between, scan?_eq_some_iff.2 ⟨htoken, by simp [Token.chars_eq_body]⟩, rfl⟩

/-! ### A dollar sign inside a token -/

/-- A token that goes on with a dollar sign reaches it in what the reference points at. -/
theorem Token.WellFormed.exists_value {token : Token} (h : token.WellFormed) {text rest : List Char}
    (htext : text ≠ []) (hchars : token.chars = text ++ '$' :: rest) :
    ∃ value, closing ∉ value ∧ text = opening ++ (token.stem ++ value) := by
  obtain ⟨first, text, rfl⟩ := List.exists_cons_of_ne_nil htext
  obtain ⟨rfl, hsplit⟩ : '$' = first ∧
      ('\x7b' :: token.stem) ++ (token.refValue ++ [closing]) = text ++ '$' :: rest := by
    simpa [Token.chars_eq_body, Token.body, opening] using hchars
  have hstem : '$' ∉ '\x7b' :: token.stem := by simp [h.dollar_not_mem_stem]
  obtain ⟨value, rfl, hvalue⟩ := split_of_not_mem hstem hsplit
  refine ⟨value, fun hmem => ?_, rfl⟩
  -- The first closing brace is the last character of the token, and the dollar sign stands before it.
  obtain ⟨start, tail, rfl, hstart⟩ := List.eq_append_cons_of_mem hmem
  rw [List.append_assoc, List.cons_append] at hvalue
  have hlast := (append_cons_inj h.unclosed hstart hvalue).2
  simp at hlast

/-- What a token points at may go on to any later closing brace. -/
theorem Token.WellFormed.exists_longer {token : Token} (h : token.WellFormed) {value rest : List Char}
    (hvalue : closing ∉ value) (hclosing : closing ∈ rest) :
    ∃ found, Notation.scan? (opening ++ (token.stem ++ value) ++ '$' :: rest) = some found := by
  obtain ⟨start, after, rfl, hstart⟩ := List.eq_append_cons_of_mem hclosing
  let longer : Token := { token with refValue := value ++ '$' :: start }
  have hdollar : closing ≠ '$' := by decide
  have hlonger : longer.WellFormed :=
    { h with
      refValue := by simp [longer]
      unclosed := by simp [longer, hvalue, hstart, hdollar] }
  have hstem : longer.stem = token.stem := rfl
  refine ⟨(longer, after), scan?_eq_some_iff.2 ⟨hlonger, ?_⟩⟩
  simp [Token.chars_eq_body, Token.body, hstem, longer]

/-- When a text goes on with a dollar sign and a closing brace comes behind it, and no token starts at the
text, then none does however the text goes on behind the dollar sign. -/
theorem scan?_eq_none_of_dollar {text rest other : List Char} (htext : text ≠ [])
    (hclosing : closing ∈ rest) (h : scan? (text ++ '$' :: rest) = none) :
    scan? (text ++ '$' :: other) = none := by
  rw [Option.eq_none_iff_forall_ne_some] at h ⊢
  rintro ⟨token, after⟩ hscan
  obtain ⟨htoken, hsplit⟩ := scan?_eq_some_iff.1 hscan
  rcases split_append hsplit.symm with ⟨inside, hinside, hchars, htail⟩ | ⟨between, rfl, -⟩
  · obtain ⟨c, inside, rfl⟩ := List.exists_cons_of_ne_nil hinside
    obtain ⟨rfl, -⟩ := List.cons.inj htail
    obtain ⟨value, hvalue, rfl⟩ := htoken.exists_value htext hchars
    obtain ⟨found, hfound⟩ := htoken.exists_longer hvalue hclosing
    exact h found hfound
  · exact h (token, between ++ '$' :: rest) (scan?_eq_some_iff.2 ⟨htoken, by simp⟩)

end Notation

end Appraisal
