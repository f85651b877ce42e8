import Appraisal.Notation.Basic
import Appraisal.Proofs.Notation.Grammar
import Mathlib.Data.List.Chain

/-!
# Cutting a text into segments

A text has one cut into tokens and plain pieces.  Whether a token starts at all can be seen from opening signs.
-/

namespace Appraisal

/-!
## The segments of a text

A text is cut into references and plain pieces in one way only: every reference is a token of the grammar,
plain pieces are not empty and do not touch, and no token starts inside a plain piece.  `parse` finds this
cut.
-/

namespace Notation

/-! ### Cuts -/

/-- No token starts in the skipped characters, when they stand before the rest of a text. -/
def TokenFree (skipped rest : List Char) : Prop :=
  ∀ before after, skipped = before ++ after → after ≠ [] → scan? (after ++ rest) = none

/-- The segments are those of the text that they make up. -/
inductive Exact : List Segment → Prop
  | nil : Exact []
  | reference {token : Token} {segments : List Segment} (htoken : token.WellFormed)
      (hsegments : Exact segments) : Exact (.reference token :: segments)
  /-- A plain piece is as long as it can be, and no token starts in it. -/
  | plain {text : List Char} {segments : List Segment} (hne : text ≠ [])
      (hfree : TokenFree text (segments.flatMap Segment.raw))
      (hnext : ∀ other, segments.head? ≠ some (.plain other))
      (hsegments : Exact segments) : Exact (.plain text :: segments)

theorem tokenFree_nil (rest : List Char) : TokenFree [] rest := by
  intro before after hskipped hafter
  obtain ⟨-, rfl⟩ := List.append_eq_nil_iff.1 hskipped.symm
  contradiction

/-- One more character is skipped when no token starts at it. -/
theorem TokenFree.concat {skipped text : List Char} {c : Char} (h : TokenFree skipped (c :: text))
    (hscan : scan? (c :: text) = none) : TokenFree (skipped ++ [c]) text := by
  intro before after hskipped hafter
  -- A token would start at the new character, the last of `after`, or before it.
  rcases List.eq_nil_or_concat after with rfl | ⟨start, last, rfl⟩
  · contradiction
  · rw [List.concat_eq_append, ← List.append_assoc] at hskipped
    obtain ⟨rfl, hlast⟩ := List.append_inj' hskipped rfl
    obtain rfl : c = last := by simpa using hlast
    rw [List.concat_eq_append, List.append_assoc, List.singleton_append]
    cases start with
    | nil => exact hscan
    | cons d start => exact h before (d :: start) rfl (by simp)

/-! ### What is parsed is a cut -/

theorem exact_plainSegment {reversed : List Char} {segments : List Segment}
    (hfree : TokenFree reversed.reverse (segments.flatMap Segment.raw))
    (hnext : ∀ other, segments.head? ≠ some (.plain other)) (hsegments : Exact segments) :
    Exact (plainSegment reversed ++ segments) := by
  unfold plainSegment
  cases reversed with
  | nil => exact hsegments
  | cons c reversed => exact .plain (by simp) hfree hnext hsegments

theorem raw_plainSegment (reversed : List Char) :
    (plainSegment reversed).flatMap Segment.raw = reversed.reverse := by
  unfold plainSegment
  cases reversed with
  | nil => rfl
  | cons c reversed => simp [Segment.raw]

/-- The segments make up the skipped characters and the text. -/
theorem raw_segmentsAfter (reversed text : List Char) :
    (segmentsAfter reversed text).flatMap Segment.raw = reversed.reverse ++ text := by
  fun_induction segmentsAfter reversed text with
  | case1 reversed => simp [raw_plainSegment]
  | case2 reversed c text token rest hscan ih =>
      rw [List.flatMap_append, raw_plainSegment, List.flatMap_cons, ih, scan?_append hscan]
      simp [Segment.raw]
  | case3 reversed c text hscan ih => simpa using ih

/-- The scan keeps the invariant that no token starts in the skipped characters. -/
theorem exact_segmentsAfter (reversed text : List Char) (h : TokenFree reversed.reverse text) :
    Exact (segmentsAfter reversed text) := by
  -- What has been passed holds no token, and it is closed off when one is found or the text ends.
  fun_induction segmentsAfter reversed text with
  | case1 reversed =>
      rw [← List.append_nil (plainSegment reversed)]
      exact exact_plainSegment h (by simp) .nil
  | case2 reversed c text token rest hscan ih =>
      have hrest : Exact (segmentsAfter [] rest) := ih (tokenFree_nil rest)
      refine exact_plainSegment ?_ (by simp) (.reference (wellFormed_of_scan? hscan) hrest)
      rw [List.flatMap_cons, raw_segmentsAfter]
      simpa [Segment.raw, scan?_append hscan] using h
  | case3 reversed c text hscan ih =>
      refine ih ?_
      rw [List.reverse_cons]
      exact h.concat hscan

/-! ### A cut is what is parsed -/

theorem segmentsAfter_of_some (reversed : List Char) {text rest : List Char} {token : Token}
    (h : scan? text = some (token, rest)) :
    segmentsAfter reversed text =
      plainSegment reversed ++ .reference token :: segmentsAfter [] rest := by
  cases text with
  | nil => contradiction
  | cons c text =>
      rw [segmentsAfter]
      split
      · next found after hfound =>
          obtain ⟨rfl, rfl⟩ : token = found ∧ rest = after := by simpa [h] using hfound
          rfl
      · next hnone =>
          rw [h] at hnone
          contradiction

theorem segmentsAfter_of_none (reversed : List Char) {c : Char} {text : List Char}
    (h : scan? (c :: text) = none) :
    segmentsAfter reversed (c :: text) = segmentsAfter (c :: reversed) text := by
  rw [segmentsAfter]
  split
  · next hfound =>
      rw [h] at hfound
      contradiction
  · rfl

/-- Characters in which no token starts are skipped. -/
theorem segmentsAfter_append {skipped rest : List Char} (h : TokenFree skipped rest)
    (reversed : List Char) :
    segmentsAfter reversed (skipped ++ rest) = segmentsAfter (skipped.reverse ++ reversed) rest := by
  induction skipped generalizing reversed with
  | nil => rfl
  | cons c skipped ih =>
      have hhead : scan? (c :: (skipped ++ rest)) = none := h [] (c :: skipped) rfl (by simp)
      have htail : TokenFree skipped rest := fun before after hskipped hafter =>
        h (c :: before) after (by simp [hskipped]) hafter
      rw [List.cons_append, segmentsAfter_of_none reversed hhead, ih htail]
      simp

theorem plainSegment_reverse {text : List Char} (h : text ≠ []) :
    plainSegment text.reverse = [.plain text] := by
  simp [plainSegment, h]

/-- What is skipped before a cut that does not start with a plain piece becomes a segment. -/
theorem Exact.segmentsAfter {segments : List Segment} (h : Exact segments) (reversed : List Char)
    (hnext : ∀ other, segments.head? ≠ some (.plain other)) :
    segmentsAfter reversed (segments.flatMap Segment.raw) =
      plainSegment reversed ++ Notation.segmentsAfter [] (segments.flatMap Segment.raw) := by
  cases h with
  | nil => simp [Notation.segmentsAfter, plainSegment]
  | reference htoken _ =>
      rw [List.flatMap_cons, Segment.raw, segmentsAfter_of_some _ (htoken.scan? _),
        segmentsAfter_of_some _ (htoken.scan? _)]
      rfl
  | plain _ _ _ _ => exact absurd rfl (hnext _)

/-- There is one exact segmentation of a text at most. -/
theorem Exact.eq_segmentsAfter {segments : List Segment} (h : Exact segments) :
    segments = Notation.segmentsAfter [] (segments.flatMap Segment.raw) := by
  induction h with
  | nil => simp [Notation.segmentsAfter, plainSegment]
  | reference htoken hsegments ih =>
      rw [List.flatMap_cons, Segment.raw, segmentsAfter_of_some _ (htoken.scan? _), ← ih]
      rfl
  | plain hne hfree hnext hsegments ih =>
      rw [List.flatMap_cons, Segment.raw, segmentsAfter_append hfree, List.append_nil,
        hsegments.segmentsAfter _ hnext, plainSegment_reverse hne, ← ih]
      rfl

/-- Every text is segmented exactly. -/
theorem exact_parse (text : String) : Exact (parse text) :=
  exact_segmentsAfter [] text.toList (tokenFree_nil _)

/-- No character of a text is lost or moved by its segmentation. -/
theorem raw_parse (text : String) : (parse text).flatMap Segment.raw = text.toList :=
  raw_segmentsAfter [] text.toList

/-- The cut of a text is what is parsed, and there is no other. -/
theorem exact_iff_parse (text : String) (segments : List Segment) :
    Exact segments ∧ segments.flatMap Segment.raw = text.toList ↔ segments = parse text := by
  constructor
  · rintro ⟨hexact, htext⟩
    rw [parse, ← htext]
    exact hexact.eq_segmentsAfter
  · rintro rfl
    exact ⟨exact_parse text, raw_parse text⟩

theorem Exact.parse_reconstruct {segments : List Segment} (h : Exact segments) :
    parse (reconstruct segments) = segments :=
  ((exact_iff_parse _ segments).1 ⟨h, by simp [reconstruct]⟩).symm

/-- An opening sign that starts no token is plain text, up to the next token. -/
example : (parse "$\x7b $\x7ba, tooltip:userInput-index:0\x7d.").map Segment.raw =
    ["$\x7b ", "$\x7ba, tooltip:userInput-index:0\x7d", "."].map String.toList := by
  decide +kernel

/-! ### Pieces -/

/-- What a piece of a text is. -/
inductive PieceKind where
  | text
  | reference
  deriving DecidableEq, Repr

/-- A piece of a text with all that is told about it. -/
@[ext]
structure Piece where
  kind : PieceKind
  content : String
  raw : String
  reference : Option Reference
  deriving DecidableEq, Repr

/-- What is told about a segment. -/
def Segment.piece (segment : Segment) : Piece where
  kind := match segment with
    | .plain _ => .text
    | .reference _ => .reference
  content := String.ofList segment.content
  raw := String.ofList segment.raw
  reference := segment.reference?

/-- The text that pieces make up. -/
def Piece.joined (pieces : List Piece) : String :=
  String.join (pieces.map Piece.raw)

/-- A token of the grammar starts at a position of a text. -/
def TokenAt (text : String) (position : Nat) : Prop :=
  ∃ (token : Token) (rest : List Char),
    token.WellFormed ∧ text.toList.drop position = token.chars ++ rest

/-- The piece stands in the text as a token of the grammar, gives its reference and shows its key. -/
def Piece.ReadsToken (piece : Piece) : Prop :=
  ∃ token : Token, token.WellFormed ∧ piece.raw = String.ofList token.chars ∧
    piece.reference = some token.reference ∧ piece.content = String.ofList token.valueKey

/-- The piece is not empty, shows itself and gives no reference. -/
def Piece.ReadsItself (piece : Piece) : Prop :=
  piece.raw ≠ "" ∧ piece.content = piece.raw ∧ piece.reference = none

/-- The pieces cut a text as the grammar of tokens demands. -/
structure Segmentation (text : String) (pieces : List Piece) : Prop where
  covers : Piece.joined pieces = text
  references : ∀ piece ∈ pieces, piece.kind = .reference → piece.ReadsToken
  texts : ∀ piece ∈ pieces, piece.kind = .text → piece.ReadsItself
  separate : pieces.IsChain fun first second => first.kind = .text → second.kind ≠ .text
  unread : ∀ before piece after, pieces = before ++ piece :: after → piece.kind = .text →
    ∀ position, (Piece.joined before).length ≤ position →
      position < (Piece.joined before).length + piece.raw.length → ¬ TokenAt text position

theorem toList_joined (pieces : List Piece) :
    (Piece.joined pieces).toList = pieces.flatMap fun piece => piece.raw.toList := by
  simp [Piece.joined, String.toList_join, List.flatMap_map]

theorem toList_joined_map_piece (segments : List Segment) :
    (Piece.joined (segments.map Segment.piece)).toList = segments.flatMap Segment.raw := by
  simp [toList_joined, List.flatMap_map, Segment.piece]

theorem not_tokenAt_iff {text : String} {position : Nat} :
    ¬ TokenAt text position ↔ scan? (text.toList.drop position) = none := by
  rw [Option.eq_none_iff_forall_ne_some, Prod.forall]
  simp only [TokenAt, ne_eq, scan?_eq_some_iff, not_exists]

/-- No token starts at the positions of some characters exactly when none starts in them. -/
theorem forall_not_tokenAt_iff {text : String} {front skipped rest : List Char}
    (htext : text.toList = front ++ (skipped ++ rest)) :
    (∀ position, front.length ≤ position → position < front.length + skipped.length →
      ¬ TokenAt text position) ↔ TokenFree skipped rest := by
  simp only [not_tokenAt_iff, htext]
  -- A position in the skipped part and a way to cut that part in two are the same thing.
  constructor
  · rintro h before after rfl hafter
    have hlength : 0 < after.length := List.length_pos_iff.2 hafter
    have hscan := h (front.length + before.length) (by omega)
      (by rw [List.length_append]; omega)
    rwa [← List.drop_drop, List.drop_left, List.append_assoc, List.drop_left] at hscan
  · intro h position hfront hposition
    obtain ⟨place, rfl⟩ := Nat.exists_eq_add_of_le hfront
    have hplace : place < skipped.length := by omega
    have hscan := h (skipped.take place) (skipped.drop place)
      (List.take_append_drop place skipped).symm (by simpa using hplace)
    rwa [← List.drop_drop, List.drop_left, List.drop_append_of_le_length hplace.le]

/-! ### The pieces of a text -/

theorem Exact.of_append {before after : List Segment} (h : Exact (before ++ after)) :
    Exact after := by
  induction before with
  | nil => exact h
  | cons segment before ih =>
      cases h with
      | reference _ hsegments => exact ih hsegments
      | plain _ _ _ hsegments => exact ih hsegments

/-- A cut gives pieces that cut the text as the grammar demands. -/
theorem Exact.segmentation {segments : List Segment} (h : Exact segments) :
    Segmentation (reconstruct segments) (segments.map Segment.piece) where
  covers := by
    rw [← String.toList_inj, toList_joined_map_piece, reconstruct, String.toList_ofList]
  references := by
    intro piece hmem hkind
    obtain ⟨segment, hsegment, rfl⟩ := List.mem_map.1 hmem
    obtain ⟨before, after, rfl⟩ := List.append_of_mem hsegment
    cases segment with
    | plain text => contradiction
    | reference token =>
        cases h.of_append with
        | reference htoken _ => exact ⟨token, htoken, rfl, rfl, rfl⟩
  texts := by
    intro piece hmem hkind
    obtain ⟨segment, hsegment, rfl⟩ := List.mem_map.1 hmem
    obtain ⟨before, after, rfl⟩ := List.append_of_mem hsegment
    cases segment with
    | reference token => contradiction
    | plain text =>
        cases h.of_append with
        | plain hne _ _ _ => exact ⟨by simpa [Segment.piece, Segment.raw] using hne, rfl, rfl⟩
  separate := by
    -- Only a text can break the rule, and the segment behind it is no text.
    induction h with
    | nil => exact .nil
    | reference htoken hsegments ih => exact ih.cons fun _ _ => by simp [Segment.piece]
    | plain hne hfree hnext hsegments ih =>
        refine ih.cons fun piece hpiece _ hkind => ?_
        rw [List.head?_map] at hpiece
        obtain ⟨segment, hsegment, rfl⟩ := Option.map_eq_some_iff.1 hpiece
        cases segment with
        | plain other => exact hnext other hsegment
        | reference token => contradiction
  unread := by
    intro before piece after hpieces hkind
    obtain ⟨front, rear, rfl, rfl, hrear⟩ := List.map_eq_append_iff.1 hpieces
    obtain ⟨segment, rest, rfl, rfl, rfl⟩ := List.map_eq_cons_iff.1 hrear
    cases segment with
    | reference token => contradiction
    | plain text =>
        cases h.of_append with
        | plain _ hfree _ _ =>
            have htext : (reconstruct (front ++ .plain text :: rest)).toList =
                (Piece.joined (front.map Segment.piece)).toList ++
                  (text ++ rest.flatMap Segment.raw) := by
              simp [reconstruct, toList_joined_map_piece, Segment.raw]
            have hunread := (forall_not_tokenAt_iff htext).2 hfree
            rw [String.length_toList] at hunread
            simpa [Segment.piece, Segment.raw] using hunread

theorem Piece.ReadsToken.eq_piece {piece : Piece} (h : piece.ReadsToken)
    (hkind : piece.kind = .reference) :
    ∃ token : Token, token.WellFormed ∧ piece = (Segment.reference token).piece := by
  obtain ⟨token, htoken, hraw, hreference, hcontent⟩ := h
  exact ⟨token, htoken, Piece.ext hkind hcontent hraw hreference⟩

theorem Piece.ReadsItself.eq_piece {piece : Piece} (h : piece.ReadsItself)
    (hkind : piece.kind = .text) :
    piece.raw.toList ≠ [] ∧ piece = (Segment.plain piece.raw.toList).piece := by
  obtain ⟨hne, hcontent, hreference⟩ := h
  have hraw : piece.raw = String.ofList piece.raw.toList := String.ofList_toList.symm
  exact ⟨by simpa using hne, Piece.ext hkind (hcontent.trans hraw) hraw hreference⟩

/-- Pieces are those of a cut when no token starts in a text among them. -/
theorem exists_exact {pieces : List Piece}
    (hreferences : ∀ piece ∈ pieces, piece.kind = .reference → piece.ReadsToken)
    (htexts : ∀ piece ∈ pieces, piece.kind = .text → piece.ReadsItself)
    (hseparate : pieces.IsChain fun first second => first.kind = .text → second.kind ≠ .text)
    (hfree : ∀ before piece after, pieces = before ++ piece :: after → piece.kind = .text →
      TokenFree piece.raw.toList (Piece.joined after).toList) :
    ∃ segments, Exact segments ∧ pieces = segments.map Segment.piece := by
  -- The conditions on a list of pieces are those on its tail and on its head, so the cut grows from the end.
  induction pieces with
  | nil => exact ⟨[], .nil, rfl⟩
  | cons piece pieces ih =>
      rw [List.forall_mem_cons] at hreferences htexts
      obtain ⟨hfollows, hseparate⟩ := List.isChain_cons.1 hseparate
      obtain ⟨segments, hexact, rfl⟩ := ih hreferences.2 htexts.2 hseparate
        fun before other after hpieces => hfree (piece :: before) other after (by rw [hpieces]; rfl)
      cases hkind : piece.kind with
      | reference =>
          obtain ⟨token, htoken, rfl⟩ := (hreferences.1 hkind).eq_piece hkind
          exact ⟨.reference token :: segments, .reference htoken hexact, rfl⟩
      | text =>
          obtain ⟨hne, hpiece⟩ := (htexts.1 hkind).eq_piece hkind
          refine ⟨.plain piece.raw.toList :: segments, .plain hne ?_ ?_ hexact, ?_⟩
          · rw [← toList_joined_map_piece]
            exact hfree [] piece _ rfl hkind
          · intro other hother
            exact hfollows (Segment.piece (.plain other)) (by simp [hother]) hkind rfl
          · rw [List.map_cons, ← hpiece]

theorem Segmentation.exists_exact {text : String} {pieces : List Piece}
    (h : Segmentation text pieces) :
    ∃ segments, Exact segments ∧ pieces = segments.map Segment.piece := by
  refine Notation.exists_exact h.references h.texts h.separate ?_
  -- A position in a text of the list is a position in the whole text, behind what comes before.
  rintro before piece after rfl hkind
  have htext : text.toList = (Piece.joined before).toList ++
      (piece.raw.toList ++ (Piece.joined after).toList) := by
    rw [← h.covers]
    simp [toList_joined]
  rw [← forall_not_tokenAt_iff htext]
  exact h.unread before piece after rfl hkind

/-- The pieces of a text: they make up the text, and they are the only ones that cut it as the grammar of
tokens demands. -/
theorem parse_exact (text : String) :
    reconstruct (parse text) = text ∧ ∀ pieces,
      Segmentation text pieces ↔ pieces = (parse text).map Segment.piece := by
  obtain ⟨hexact, hraw⟩ := (exact_iff_parse text (parse text)).2 rfl
  have htext : reconstruct (parse text) = text := by
    rw [reconstruct, hraw, String.ofList_toList]
  refine ⟨htext, fun pieces => ?_⟩
  constructor
  · intro h
    -- Pieces that segment the text come from exact segments, and there is one such list.
    obtain ⟨segments, hsegments, rfl⟩ := h.exists_exact
    have hcovers : segments.flatMap Segment.raw = text.toList := by
      rw [← toList_joined_map_piece, h.covers]
    rw [(exact_iff_parse text segments).1 ⟨hsegments, hcovers⟩]
  · rintro rfl
    have h := hexact.segmentation
    rwa [htext] at h

/-!
## Opening signs

Every token starts with an opening sign, so no token starts in characters without one.  Where two texts
meet, an opening sign may lie across the seam, with one half in each of them.
-/

/-- No opening sign stands in the characters. -/
def Unopened (text : List Char) : Prop :=
  ¬ opening <:+: text

/-- No opening sign lies across the seam of two texts. -/
def Apart (first second : List Char) : Prop :=
  first.getLast? ≠ some '$' ∨ second.head? ≠ some '\x7b'

theorem Apart.of_append {before after following : List Char}
    (h : Apart (before ++ after) following) : Apart after following :=
  h.imp_left fun hlast hdollar => hlast (by simp [List.getLast?_append, hdollar])

/-- An opening sign at the front of a text stands before the seam when it does not lie across it. -/
theorem opening_prefix_of_append {text rest : List Char} (hne : text ≠ []) (hapart : Apart text rest)
    (h : opening <+: text ++ rest) : opening <+: text := by
  obtain ⟨after, hafter⟩ := h
  match text with
  | [c] =>
      obtain ⟨rfl, rfl⟩ : '$' = c ∧ '\x7b' :: after = rest := by simpa [opening] using hafter
      exact absurd hapart (by simp [Apart])
  | c :: d :: text =>
      obtain ⟨rfl, rfl, -⟩ : '$' = c ∧ '\x7b' = d ∧ after = text ++ rest := by
        simpa [opening] using hafter
      exact List.prefix_append opening text

/-! ### Characters without an opening sign -/

theorem unopened_of_not_mem {text : List Char} (h : '$' ∉ text) : Unopened text :=
  fun hinside => h (hinside.subset List.mem_cons_self)

theorem Unopened.of_part {part text : List Char} (h : Unopened text) (hpart : part <:+: text) :
    Unopened part :=
  fun hinside => h (hinside.trans hpart)

theorem Unopened.not_starts {text rest : List Char} (h : Unopened text) (hne : text ≠ [])
    (hapart : Apart text rest) : ¬ opening <+: text ++ rest :=
  fun hstart => h (opening_prefix_of_append hne hapart hstart).isInfix

theorem Unopened.append {first second : List Char} (hfirst : Unopened first)
    (hsecond : Unopened second) (hapart : Apart first second) : Unopened (first ++ second) := by
  induction first with
  | nil => exact hsecond
  | cons c first ih =>
      intro hinside
      rcases List.infix_cons_iff.1 hinside with hstart | hinside
      · exact hfirst.not_starts (by simp) hapart hstart
      · have hrest : Apart first second :=
          Apart.of_append (show Apart ([c] ++ first) second from hapart)
        exact ih (hfirst.of_part (List.suffix_cons c first).isInfix) hrest hinside

/-! ### Tokens and opening signs -/

theorem opening_prefix_of_scan? {text rest : List Char} {token : Token}
    (h : scan? text = some (token, rest)) : opening <+: text := by
  rw [scan?_append h, Token.chars]
  simp

theorem after?_opening_isSome_iff {text : List Char} :
    (after? opening text).isSome = true ↔ opening <+: text := by
  rw [Option.isSome_iff_exists]
  exact exists_congr fun rest => after?_eq_some.trans eq_comm

/-- No token starts in characters without an opening sign. -/
theorem tokenFree_of_unopened {skipped rest : List Char} (h : Unopened skipped)
    (hrest : rest.head? ≠ some '\x7b') : TokenFree skipped rest := by
  rintro before after rfl hafter
  have hopened : ¬ opening <+: after ++ rest :=
    (h.of_part (List.suffix_append before after).isInfix).not_starts hafter (.inr hrest)
  cases hscan : scan? (after ++ rest) with
  | none => rfl
  | some found => exact absurd (opening_prefix_of_scan? hscan) hopened

/-- Behind a plain piece the text is over or goes on with a dollar sign. -/
theorem head?_raw_ne {segments : List Segment}
    (hnext : ∀ other, segments.head? ≠ some (.plain other)) :
    (segments.flatMap Segment.raw).head? ≠ some '\x7b' := by
  match segments with
  | [] => simp
  | .plain text :: _ => exact absurd rfl (hnext text)
  | .reference token :: _ => simp [Segment.raw, Token.chars, opening]

end Notation

end Appraisal
