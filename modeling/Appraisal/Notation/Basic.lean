import Appraisal.Failure.Basic
import Appraisal.Provenance.Reference
import Appraisal.Text.Character

/-!
# Texts that refer to values

A text refers to values by tokens.  It is cut into plain pieces and tokens, checked for tokens that cannot be read,
and written of templates in which references fill the gaps.
-/

namespace Appraisal

/-!
## Reference tokens

A text refers to a value by a token: an opening sign, the key under which the value is shown, a comma,
blanks, and a tooltip that names the type of the source, the kind of the reference and what it points at.
The first three parts are words of plain letters, digits and underscores; the last part is any text up
to the closing brace.  `scan?` reads a token at the front of a text.
-/

namespace Notation

open Text (isBlank)

/-- A reference to a value, as it is written in a text. -/
structure Reference where
  valueKey : String
  sourceType : String
  refType : String
  refValue : String
  deriving DecidableEq, Repr

/-- A token as it stands in a text. -/
structure Token where
  valueKey : List Char
  blanks : List Char
  sourceType : List Char
  refType : List Char
  refValue : List Char
  deriving DecidableEq, Repr

/-- The sign that opens a token. -/
def opening : List Char := ['$', '\x7b']

/-- The brace that closes a token. -/
def closing : Char := '\x7d'

/-- The word that introduces the tooltip. -/
def tooltip : List Char := "tooltip:".toList

/-- A plain letter, a plain digit or an underscore. -/
def isWordChar (c : Char) : Bool :=
  c == '_' || c.isAlphanum

namespace Token

/-- The characters of a token. -/
def chars (token : Token) : List Char :=
  opening ++ token.valueKey ++ ',' :: token.blanks ++ tooltip ++ token.sourceType ++
    '-' :: token.refType ++ ':' :: token.refValue ++ [closing]

/-- The reference that a token writes. -/
def reference (token : Token) : Reference :=
  { valueKey := String.ofList token.valueKey
    sourceType := String.ofList token.sourceType
    refType := String.ofList token.refType
    refValue := String.ofList token.refValue }

end Token

/-- The token that writes a reference, with one space before the tooltip. -/
def Reference.token (reference : Reference) : Token :=
  { valueKey := reference.valueKey.toList
    blanks := [' ']
    sourceType := reference.sourceType.toList
    refType := reference.refType.toList
    refValue := reference.refValue.toList }

/-- The text that writes a reference. -/
def generate (reference : Reference) : String :=
  String.ofList reference.token.chars

/-! ### Reading a token -/

/-- What follows the given characters at the front of a text. -/
def after? : List Char → List Char → Option (List Char)
  | [], text => some text
  | _ :: _, [] => none
  | c :: expected, d :: text => if c = d then after? expected text else none

/-- The longest run of a class at the front of a text, if it is not empty, and what follows. -/
def run? (inClass : Char → Bool) (text : List Char) : Option (List Char × List Char) :=
  match text.takeWhile inClass with
  | [] => none
  | c :: cs => some (c :: cs, text.dropWhile inClass)

/-- The token at the front of a text, and what follows it. -/
def scan? (text : List Char) : Option (Token × List Char) := do
  let text ← after? opening text
  let (valueKey, text) ← run? isWordChar text
  let text ← after? [','] text
  let blanks := text.takeWhile isBlank
  let text ← after? tooltip (text.dropWhile isBlank)
  let (sourceType, text) ← run? isWordChar text
  let text ← after? ['-'] text
  let (refType, text) ← run? isWordChar text
  let text ← after? [':'] text
  let (refValue, text) ← run? (· ≠ closing) text
  let text ← after? [closing] text
  return ({ valueKey, blanks, sourceType, refType, refValue }, text)

theorem after?_eq_some {expected text rest : List Char} :
    after? expected text = some rest ↔ text = expected ++ rest := by
  induction expected generalizing text with
  | nil => simp [after?]
  | cons c expected ih =>
      cases text with
      | nil => simp [after?]
      | cons d text =>
          simp only [after?]
          split
          · next h => simp [ih, h]
          · next h => simp [Ne.symm h]

theorem run?_append {inClass : Char → Bool} {text run rest : List Char}
    (h : run? inClass text = some (run, rest)) : text = run ++ rest := by
  unfold run? at h
  split at h
  · simp at h
  · next c cs heq =>
      simp only [Option.some.injEq, Prod.mk.injEq] at h
      rw [← h.1, ← h.2, ← heq]
      exact (List.takeWhile_append_dropWhile ..).symm

theorem scan?_append {text rest : List Char} {token : Token}
    (h : scan? text = some (token, rest)) : text = token.chars ++ rest := by
  simp only [scan?, Option.bind_eq_bind, Option.bind_eq_some_iff, Prod.exists, Option.pure_def,
    Option.some.injEq, Prod.mk.injEq] at h
  obtain ⟨t₁, h₁, key, t₂, h₂, t₃, h₃, t₄, h₄, source, t₅, h₅, t₆, h₆, kind, t₇, h₇, t₈, h₈, value,
    t₉, h₉, t₁₀, h₁₀, htoken, rfl⟩ := h
  have hblanks := List.takeWhile_append_dropWhile (p := isBlank) (l := t₃)
  rw [after?_eq_some.1 h₄] at hblanks
  rw [after?_eq_some.1 h₁, run?_append h₂, after?_eq_some.1 h₃, ← hblanks, run?_append h₅,
    after?_eq_some.1 h₆, run?_append h₇, after?_eq_some.1 h₈, run?_append h₉,
    after?_eq_some.1 h₁₀, ← htoken]
  simp [Token.chars]

theorem length_lt_of_scan? {text rest : List Char} {token : Token}
    (h : scan? text = some (token, rest)) : rest.length < text.length := by
  rw [scan?_append h]
  simp [Token.chars]
  omega

/-!
## Segments of a text

`parse` cuts a text into plain segments and references, from left to right, without gaps.  An opening sign
that starts no token is plain text.  `reconstruct` puts the segments together again, and `replace` puts a
text of the caller's choice in the place of every reference.
-/

/-- A piece of a text. -/
inductive Segment where
  | plain (text : List Char)
  | reference (token : Token)
  deriving DecidableEq, Repr

namespace Segment

/-- The characters of a piece as they stand in the text. -/
def raw : Segment → List Char
  | plain text => text
  | reference token => token.chars

/-- What a piece shows: its text, or the key of the value that it refers to. -/
def content : Segment → List Char
  | plain text => text
  | reference token => token.valueKey

/-- The reference of a piece. -/
def reference? : Segment → Option Reference
  | plain _ => none
  | reference token => some token.reference

end Segment

/-- The plain segment of some characters, last one first; none if there are none. -/
def plainSegment (reversed : List Char) : List Segment :=
  if reversed.isEmpty then [] else [.plain reversed.reverse]

/-- The segments of a text that follows plain characters, which are given last one first. -/
def segmentsAfter (reversed text : List Char) : List Segment :=
  match text with
  | [] => plainSegment reversed
  | c :: text =>
      match _hscan : scan? (c :: text) with
      | some (token, rest) => plainSegment reversed ++ .reference token :: segmentsAfter [] rest
      | none => segmentsAfter (c :: reversed) text
termination_by text.length
decreasing_by
  · exact length_lt_of_scan? _hscan
  · simp

/-- The segments of a text. -/
def parse (text : String) : List Segment :=
  segmentsAfter [] text.toList

/-- The text of some segments. -/
def reconstruct (segments : List Segment) : String :=
  String.ofList (segments.flatMap Segment.raw)

/-- The references in a text, in order. -/
def references (text : String) : List Reference :=
  (parse text).filterMap Segment.reference?

/-- The text with every reference replaced by what the resolver makes of it. -/
def replace (text : String) (resolver : Reference → String) : String :=
  String.ofList <| (parse text).flatMap fun
    | .plain chars => chars
    | .reference token => (resolver token.reference).toList

/-!
## Validation of the notation

Every opening sign must be followed by a closing brace before the next opening sign, and every reference
must use the known words for the type of its source and for its kind.  The errors are listed in that
order, each group from left to right.
-/

/-- What is wrong with the notation in a text. -/
inductive NotationError where
  | unclosed (position : Nat)
  | sourceType (given : String)
  | refType (given : String)
  deriving DecidableEq, Repr

/-- The words for types of sources. -/
def knownSourceTypes : List String := ["userInput", "calculated", "sourceDocument", "assumption"]

/-- The words for kinds of references. -/
def knownRefTypes : List String := ["index", "key", "id"]

/-- The text of an error. -/
def NotationError.message : NotationError → String
  | unclosed position =>
      "Unclosed source notation at position " ++ toString position ++ " (missing closing brace)"
  | sourceType given =>
      "Invalid source type: " ++ given ++ ". Valid types: " ++ ", ".intercalate knownSourceTypes
  | refType given =>
      "Invalid reference type: " ++ given ++ ". Valid types: " ++ ", ".intercalate knownRefTypes

/-- Whether a closing brace comes before the next opening sign. -/
def closesFirst : List Char → Bool
  | [] => false
  | c :: rest =>
      if c = closing then true
      else if (after? opening (c :: rest)).isSome then false
      else closesFirst rest

/-- The positions of opening signs without a closing brace, in a text that starts at a position. -/
def unclosedFrom (position : Nat) : List Char → List Nat
  | [] => []
  | c :: rest =>
      if (after? opening (c :: rest)).isSome && !closesFirst rest.tail then
        position :: unclosedFrom (position + 1) rest
      else
        unclosedFrom (position + 1) rest

/-- The errors in the words of a reference. -/
def wordErrors (reference : Reference) : List NotationError :=
  (if reference.sourceType ∈ knownSourceTypes then [] else [.sourceType reference.sourceType]) ++
    if reference.refType ∈ knownRefTypes then [] else [.refType reference.refType]

/-- The errors in the notation of a text. -/
def validate (text : String) : List NotationError :=
  (unclosedFrom 0 text.toList).map .unclosed ++ (references text).flatMap wordErrors

/-!
## References in summaries

A reference to a value is made from the source of the value: by identifier if it has one, else by key,
else by position.  A summary is a template whose named gaps are filled with references.
-/

/-- The reference to a value with a source. -/
def referenceTo (valueKey : String) (source : SourceReference) : Reference :=
  let pointer := source.reference
  let (refType, refValue) :=
    if ReferenceKey.isGiven pointer.id then ("id", pointer.id.getD "")
    else if ReferenceKey.isGiven pointer.key then ("key", pointer.key.getD "")
    else ("index", (pointer.index.map toString).getD "None")
  { valueKey, sourceType := source.sourceType.notationWord, refType, refValue }

/-- The reference to the result of a formula. -/
def calculatedReference (formulaId : String) : Reference :=
  { valueKey := formulaId, sourceType := "calculated", refType := "key", refValue := formulaId }

/-- What fills a gap of a template. -/
inductive Filling where
  | reference (given : Reference)
  | description (parts : Payload)

/-- The text of a part of a description. -/
def describedPart (parts : Payload) (key : String) : Except Failure String :=
  match parts.field? key with
  | some part => .ok part.shown
  | none => .error (.missingKey key)

/-- The reference that fills a gap. -/
def Filling.toReference : Filling → Except Failure Reference
  | .reference given => .ok given
  | .description parts => do
      let valueKey ← describedPart parts "value"
      let sourceType ← describedPart parts "source_type"
      let refType ← describedPart parts "ref_type"
      let refValue ← describedPart parts "ref_value"
      return { valueKey, sourceType, refType, refValue }

/-- The text with the first occurrence of some characters replaced. -/
def replaceFirst (pattern replacement : List Char) : List Char → List Char
  | [] => if pattern.isEmpty then replacement else []
  | c :: text =>
      match after? pattern (c :: text) with
      | some rest => replacement ++ rest
      | none => c :: replaceFirst pattern replacement text

/-- The gap of a name in a template. -/
def gap (name : String) : List Char :=
  '\x7b' :: name.toList ++ ['\x7d']

/-- The template with the first gap of a name filled. -/
def fillGap (template : List Char) (name : String) (reference : Reference) : List Char :=
  replaceFirst (gap name) reference.token.chars template

/-- The template with the first gap of each name filled, in the order of the names. -/
def fillTemplate (template : String) (fillings : Dictionary Filling) : Except Failure String := do
  let filled ← fillings.foldlM (fun text (entry : String × Filling) => do
    return fillGap text entry.1 (← entry.2.toReference)) template.toList
  return String.ofList filled

end Notation

end Appraisal
