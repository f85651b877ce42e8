import Appraisal.Proofs.Notation.Grammar
import Appraisal.Proofs.Notation.Segmentation
import Mathlib.Tactic.MkIffOfInductiveProp

/-!
# Writing texts and writing them anew

What is written of parts is read back part by part.  A text that has been read can be written anew, with each
reference as it is generated.
-/

namespace Appraisal

/-!
## Texts that are written

A text is written of parts: texts of the caller's, in which no opening sign stands, and references.  It is
read as it was written, part by part, when the references can be written at all; and no other reference
is ever read back.
-/

namespace Notation

/-- The references that can be written. -/
@[mk_iff]
structure Reference.Writable (reference : Reference) : Prop where
  valueKey : IsWord reference.valueKey.toList
  sourceType : IsWord reference.sourceType.toList
  refType : IsWord reference.refType.toList
  refValue : reference.refValue ≠ ""
  unclosed : closing ∉ reference.refValue.toList

instance (reference : Reference) : Decidable reference.Writable :=
  decidable_of_iff _ (Reference.writable_iff reference).symm

/-- A part of a text that is written. -/
inductive Part where
  | text (given : String)
  | reference (given : Reference)
  deriving DecidableEq, Repr

theorem reference_token (reference : Reference) : reference.token.reference = reference := by
  simp [Token.reference, Reference.token]

namespace Part

/-- How a part is written. -/
def written : Part → String
  | text given => given
  | reference given => generate given

/-- The piece that a part is read as. -/
def piece : Part → Piece
  | text given => { kind := .text, content := given, raw := given, reference := none }
  | reference given =>
      { kind := .reference, content := given.valueKey, raw := generate given,
        reference := some given }

/-- Whether a part is a text. -/
def IsText : Part → Prop
  | text _ => True
  | reference _ => False

/-- A text is not empty and holds no opening sign, and a reference can be written. -/
def Proper : Part → Prop
  | text given => given ≠ "" ∧ ¬ opening <:+: given.toList
  | reference given => given.Writable

instance (part : Part) : Decidable part.Proper :=
  match part with
  | text given => inferInstanceAs (Decidable (given ≠ "" ∧ ¬ opening <:+: given.toList))
  | reference given => inferInstanceAs (Decidable given.Writable)

/-- The segment that a part is read as. -/
def segment : Part → Segment
  | text given => .plain given.toList
  | reference given => .reference given.token

theorem raw_segment (part : Part) : part.segment.raw = part.written.toList := by
  cases part with
  | text given => rfl
  | reference given => simp [segment, Segment.raw, written, generate]

theorem piece_segment (part : Part) : part.segment.piece = part.piece := by
  cases part with
  | text given => simp [segment, Segment.piece, Segment.content, Segment.raw, Segment.reference?, piece]
  | reference given =>
      have hkey : String.ofList given.token.valueKey = given.valueKey := String.ofList_toList
      simp [segment, Segment.piece, Segment.content, Segment.raw, Segment.reference?, piece, generate,
        hkey, reference_token]

end Part

/-! ### References that can be written -/

theorem Reference.Writable.wellFormed {reference : Reference} (h : reference.Writable) :
    reference.token.WellFormed where
  valueKey := h.valueKey
  blanks := List.forall_mem_singleton.2 rfl
  sourceType := h.sourceType
  refType := h.refType
  refValue := by simpa [Reference.token] using h.refValue
  unclosed := h.unclosed

theorem Token.WellFormed.writable {token : Token} (h : token.WellFormed) :
    token.reference.Writable where
  valueKey := by simpa [Token.reference] using h.valueKey
  sourceType := by simpa [Token.reference] using h.sourceType
  refType := by simpa [Token.reference] using h.refType
  refValue := by simpa [Token.reference] using h.refValue
  unclosed := by simpa [Token.reference] using h.unclosed

theorem Exact.writable {segments : List Segment} (h : Exact segments) :
    ∀ reference ∈ segments.filterMap Segment.reference?, reference.Writable := by
  induction h with
  | nil => simp
  | reference htoken _ ih =>
      exact List.forall_mem_cons.2 ⟨htoken.writable, ih⟩
  | plain _ _ _ _ ih => exact ih

/-- Whatever is read can be written. -/
theorem writable_of_mem_references {text : String} {reference : Reference}
    (h : reference ∈ references text) : reference.Writable :=
  (exact_parse text).writable reference h

/-! ### Reading what is written -/

/-- Pieces that can be written, no two texts among them side by side, are segmented exactly. -/
theorem exact_segments {parts : List Part} (hproper : ∀ part ∈ parts, part.Proper)
    (hseparate : parts.IsChain fun first second => first.IsText → ¬ second.IsText) :
    Exact (parts.map Part.segment) := by
  induction parts with
  | nil => exact .nil
  | cons part parts ih =>
      rw [List.forall_mem_cons] at hproper
      obtain ⟨hfollows, hseparate⟩ := List.isChain_cons.1 hseparate
      have hexact : Exact (parts.map Part.segment) := ih hproper.2 hseparate
      cases part with
      | reference given => exact .reference hproper.1.wellFormed hexact
      | text given =>
          -- The segment behind a text is none or a reference.
          have hnext : ∀ other, (parts.map Part.segment).head? ≠ some (.plain other) := by
            intro other hother
            rw [List.head?_map] at hother
            obtain ⟨next, hnext, hplain⟩ := Option.map_eq_some_iff.1 hother
            cases next with
            | reference given => contradiction
            | text following => exact hfollows _ hnext trivial trivial
          have hne : given.toList ≠ [] := by simpa using hproper.1.1
          exact .plain hne (tokenFree_of_unopened hproper.1.2 (head?_raw_ne hnext)) hnext hexact

theorem join_written (parts : List Part) :
    String.join (parts.map Part.written) = reconstruct (parts.map Part.segment) := by
  rw [← String.toList_inj, reconstruct, String.toList_ofList, String.toList_join, List.flatMap_map,
    List.flatMap_map]
  simp [Part.raw_segment]

/-- What is written from such pieces is read as these pieces. -/
theorem parse_written {parts : List Part} (hproper : ∀ part ∈ parts, part.Proper)
    (hseparate : parts.IsChain fun first second => first.IsText → ¬ second.IsText) :
    parse (String.join (parts.map Part.written)) = parts.map Part.segment := by
  rw [join_written]
  exact (exact_segments hproper hseparate).parse_reconstruct

theorem segments_generate {reference : Reference} (h : reference.Writable) :
    parse (generate reference) = [.reference reference.token] := by
  have hproper : ∀ part ∈ [Part.reference reference], part.Proper := List.forall_mem_singleton.2 h
  simpa [Part.written, Part.segment] using parse_written hproper (.singleton _)

/-- A reference that can be written is the only one found in what is written. -/
theorem references_generate {reference : Reference} (h : reference.Writable) :
    references (generate reference) = [reference] := by
  simp [references, segments_generate h, Segment.reference?, reference_token]

/-- A text that is written of proper parts, no text next to a text, is read as these parts; and a reference
is read back alone exactly when it can be written. -/
theorem parse_generate :
    (∀ parts : List Part, (∀ part ∈ parts, part.Proper) →
      (parts.IsChain fun first second => first.IsText → ¬ second.IsText) →
        (parse (String.join (parts.map Part.written))).map Segment.piece = parts.map Part.piece) ∧
      ∀ reference, references (generate reference) = [reference] ↔ reference.Writable := by
  refine ⟨fun parts hproper hseparate => ?_, fun reference => ⟨fun h => ?_, references_generate⟩⟩
  · rw [parse_written hproper hseparate, List.map_map]
    exact List.map_congr_left fun part _ => part.piece_segment
  · exact writable_of_mem_references (h ▸ List.mem_singleton_self reference)

/-- Parts that look alike: a text that ends with half an opening sign, a reference that points at another
token's beginning, and a text that looks like the end of a token. -/
def tangledParts : List Part :=
  [.text "rent, \x7bnet\x7d: $",
    .reference
      { valueKey := "noi", sourceType := "calculated", refType := "key", refValue := "$\x7bnoi, $" },
    .text "\x7b, tooltip:calculated-key:noi\x7d$",
    .reference { valueKey := "_1", sourceType := "x", refType := "y", refValue := " " }]

theorem parse_generate_tangled :
    (∀ part ∈ tangledParts, part.Proper) ∧
      (tangledParts.IsChain fun first second => first.IsText → ¬ second.IsText) ∧
      (parse (String.join (tangledParts.map Part.written))).map Segment.piece =
        tangledParts.map Part.piece := by
  have hproper : ∀ part ∈ tangledParts, part.Proper := by decide +kernel
  have hseparate : tangledParts.IsChain fun first second => first.IsText → ¬ second.IsText := by
    simp [tangledParts, Part.IsText]
  exact ⟨hproper, hseparate, parse_generate.1 tangledParts hproper hseparate⟩

/-!
## The canonical text

A text in which every reference is replaced by how it is generated says the same as before: it is read as
the same pieces, and only the references stand in it differently.  More generally tokens may be exchanged
for other tokens.  An opening sign that starts no token, because its own parts are wrong or because no
closing brace comes behind it, starts none afterwards either.
-/

/-- The piece with another token in the place of a reference. -/
def Segment.exchange (exchanged : Token → Token) : Segment → Segment
  | plain text => .plain text
  | reference token => .reference (exchanged token)

/-- The piece of a canonical text: a reference stands in it as it is generated. -/
def Piece.canonical (piece : Piece) : Piece :=
  { piece with raw := (piece.reference.map generate).getD piece.raw }

/-! ### Exchanging tokens -/

theorem Token.exists_chars_eq (token : Token) :
    ∃ rest, token.chars = '$' :: rest ∧ closing ∈ rest :=
  ⟨'\x7b' :: (token.body ++ [closing]), token.chars_eq_body, by simp⟩

/-- Whether characters are free of tokens depends on a token that follows only in that there is one. -/
theorem TokenFree.exchange {skipped rest other : List Char} {token : Token}
    (h : TokenFree skipped (token.chars ++ rest)) (following : Token) :
    TokenFree skipped (following.chars ++ other) := by
  obtain ⟨tail, htoken, hclosing⟩ := token.exists_chars_eq
  obtain ⟨next, hfollowing, -⟩ := following.exists_chars_eq
  rw [htoken] at h
  rw [hfollowing]
  intro before after hskipped hafter
  exact scan?_eq_none_of_dollar hafter (List.mem_append_left rest hclosing)
    (h before after hskipped hafter)

/-- A cut stays a cut when its tokens are exchanged for tokens. -/
theorem Exact.exchange {segments : List Segment} (h : Exact segments) {exchanged : Token → Token}
    (hexchanged : ∀ token : Token, token.WellFormed → (exchanged token).WellFormed) :
    Exact (segments.map (Segment.exchange exchanged)) := by
  induction h with
  | nil => exact .nil
  | reference htoken _ ih => exact .reference (hexchanged _ htoken) ih
  | @plain text segments hne hfree hnext hsegments ih =>
      refine .plain hne ?_ ?_ ih
      -- Whether a token begins in the text depends on the segment behind it, by its first characters alone.
      · match segments with
        | [] => exact hfree
        | .plain other :: _ => exact absurd rfl (hnext other)
        | .reference token :: _ => exact hfree.exchange (exchanged token)
      · intro other hother
        rw [List.head?_map] at hother
        obtain ⟨segment, hsegment, hplain⟩ := Option.map_eq_some_iff.1 hother
        cases segment with
        | plain text => exact hnext text hsegment
        | reference token => contradiction

/-! ### Generating tokens anew -/

/-- The token that is generated for what a token refers to. -/
def Token.canonical (token : Token) : Token :=
  token.reference.token

theorem Token.WellFormed.canonical {token : Token} (h : token.WellFormed) :
    token.canonical.WellFormed :=
  h.writable.wellFormed

theorem reference_canonical (token : Token) : token.canonical.reference = token.reference :=
  reference_token token.reference

theorem canonical_canonical (token : Token) : token.canonical.canonical = token.canonical :=
  congrArg Reference.token (reference_canonical token)

theorem exchange_exchange (segment : Segment) :
    (segment.exchange Token.canonical).exchange Token.canonical = segment.exchange Token.canonical := by
  cases segment with
  | plain text => rfl
  | reference token => exact congrArg Segment.reference (canonical_canonical token)

theorem replace_generate (text : String) :
    replace text generate = reconstruct ((parse text).map (Segment.exchange Token.canonical)) := by
  rw [replace, reconstruct, List.flatMap_map]
  congr 2
  funext segment
  cases segment with
  | plain chars => rfl
  | reference token => simp [Segment.exchange, Segment.raw, generate, Token.canonical]

/-- Writing every reference of a text anew changes the tokens of its segments and nothing else. -/
theorem parse_canonical (text : String) :
    parse (replace text generate) = (parse text).map (Segment.exchange Token.canonical) := by
  rw [replace_generate]
  exact ((exact_parse text).exchange fun _ => Token.WellFormed.canonical).parse_reconstruct

theorem piece_exchange (segment : Segment) :
    (segment.exchange Token.canonical).piece = segment.piece.canonical := by
  cases segment with
  | plain text => rfl
  | reference token =>
      have hkey : token.canonical.valueKey = token.valueKey := String.toList_ofList
      have hraw : String.ofList token.canonical.chars = generate token.reference := rfl
      simp [Segment.exchange, Segment.piece, Segment.content, Segment.raw, Segment.reference?,
        Piece.canonical, reference_canonical, hkey, hraw]

theorem reference?_exchange (segment : Segment) :
    (segment.exchange Token.canonical).reference? = segment.reference? := by
  cases segment with
  | plain text => rfl
  | reference token => exact congrArg some (reference_canonical token)

/-- The canonical text has the pieces of the text, with every reference as it is generated; so it has the
same references, and is its own canonical text. -/
theorem parse_replace_generate (text : String) :
    (parse (replace text generate)).map Segment.piece =
        ((parse text).map Segment.piece).map Piece.canonical ∧
      references (replace text generate) = references text ∧
      replace (replace text generate) generate = replace text generate := by
  refine ⟨?_, ?_, ?_⟩
  · rw [parse_canonical, List.map_map, List.map_map]
    exact List.map_congr_left fun segment _ => piece_exchange segment
  · rw [references, parse_canonical, List.filterMap_map]
    exact List.filterMap_congr fun segment _ => reference?_exchange segment
  · rw [replace_generate (replace text generate), parse_canonical, replace_generate, List.map_map]
    exact congrArg reconstruct (List.map_congr_left fun segment _ => exchange_exchange segment)

/-- The blanks of a token change, and an opening sign that starts no token stays as it is. -/
example : replace "$\x7ba,$\x7bb,\t\ttooltip:x-y:$\x7b\x7d" generate =
    "$\x7ba,$\x7bb, tooltip:x-y:$\x7b\x7d" := by
  decide +kernel

end Notation

end Appraisal
