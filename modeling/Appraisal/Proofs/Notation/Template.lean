import Appraisal.Proofs.Notation.Gap
import Appraisal.Proofs.Notation.Validation
import Mathlib.Data.List.Nodup
import Mathlib.Tactic.MkIffOfInductiveProp

/-!
# Templates

The gaps of a template are filled one after the other, each in the text that the earlier ones have left.
The result is the same as if all were filled at once: the template is cut at the first gap of every given
name, and a token stands in the place of each of them.  No filling disturbs another one, because no gap
begins in a token or is completed by one; so the order of the names does not matter.
-/

namespace Appraisal
namespace Notation

/-- A template that is cut at some of its gaps. -/
inductive Cut where
  | ending (text : List Char)
  | place (before : List Char) (name : String) (reference : Reference) (behind : Cut)

namespace Cut

/-- The template as it stands. -/
def template : Cut → List Char
  | ending text => text
  | place before name _ behind => before ++ (gap name ++ behind.template)

/-- The template with a token in the place of every gap. -/
def filled : Cut → List Char
  | ending text => text
  | place before _ reference behind => before ++ (reference.token.chars ++ behind.filled)

/-- The names of the gaps with what fills them, in order. -/
def entries : Cut → Dictionary Reference
  | ending _ => []
  | place _ name reference behind => (name, reference) :: behind.entries

/-- The references that fill the gaps, in order. -/
def references (cut : Cut) : List Reference :=
  cut.entries.map Prod.snd

/-- The gaps in order, each with all that stands before it in a text that begins with some characters. -/
def marks (preceding : List Char) : Cut → List (List Char × String × Reference)
  | ending _ => []
  | place before name reference behind =>
      (preceding ++ before, name, reference) :: behind.marks (preceding ++ before ++ gap name)

/-- A template is cut at the first gap of every given name, and nowhere else. -/
structure MarksFirst (cut : Cut) (given : Dictionary Reference) (template : List Char) : Prop where
  whole : cut.template = template
  /-- The places are the first gaps of the given names. -/
  marks : ∀ before entry,
    (before, entry) ∈ cut.marks [] ↔ entry ∈ given ∧ FirstGap template entry.1 before

end Cut

/-- A name and a reference with which its gap can be filled. -/
@[mk_iff]
structure Fits (entry : String × Reference) : Prop where
  name : IsWord entry.1.toList
  writable : entry.2.Writable
  unbraced : '\x7b' ∉ entry.2.refValue.toList

instance (entry : String × Reference) : Decidable (Fits entry) :=
  decidable_of_iff _ (fits_iff entry).symm

/-- What is given for a name comes to a reference. -/
def Fills (filling : String × Filling) (entry : String × Reference) : Prop :=
  filling.1 = entry.1 ∧ filling.2.toReference = .ok entry.2

namespace Cut

variable {cut : Cut} {given : Dictionary Reference} {template preceding front : List Char}
  {entry : String × Reference} {done : List String}

/-! ## Cutting a template -/

/-- The cut of a template that begins with more characters. -/
def after (front : List Char) : Cut → Cut
  | ending text => ending (front ++ text)
  | place before name reference behind => place (front ++ before) name reference behind

theorem template_after (front : List Char) (cut : Cut) :
    (cut.after front).template = front ++ cut.template := by
  cases cut <;> simp [after, Cut.template]

theorem marks_after (preceding front : List Char) (cut : Cut) :
    (cut.after front).marks preceding = cut.marks (preceding ++ front) := by
  cases cut <;> simp [after, marks]

theorem mem_marks_append {before : List Char} : (before, entry) ∈ cut.marks (preceding ++ front) ↔
    ∃ behind, before = preceding ++ behind ∧ (behind, entry) ∈ cut.marks front := by
  induction cut generalizing front with
  | ending text => simp [marks]
  | place start name reference behind ih =>
      simp only [marks, List.mem_cons, List.append_assoc, Prod.mk.injEq, ih]
      constructor
      · rintro (⟨rfl, rfl⟩ | ⟨later, rfl, hlater⟩)
        · exact ⟨front ++ start, rfl, .inl ⟨rfl, rfl⟩⟩
        · exact ⟨later, rfl, .inr hlater⟩
      · rintro ⟨later, rfl, ⟨rfl, rfl⟩ | hlater⟩
        · exact .inl ⟨rfl, rfl⟩
        · exact .inr ⟨later, rfl, hlater⟩

/-- Every place stands behind the characters with which the text begins. -/
theorem prefix_of_mem_marks {before : List Char} (h : (before, entry) ∈ cut.marks preceding) :
    preceding <+: before := by
  rw [← List.append_nil preceding, mem_marks_append] at h
  obtain ⟨behind, rfl, -⟩ := h
  exact List.prefix_append preceding behind

theorem exists_mark (h : entry ∈ cut.entries) (preceding : List Char) :
    ∃ before, (before, entry) ∈ cut.marks preceding := by
  induction cut generalizing preceding with
  | ending text => simp [entries] at h
  | place start name reference behind ih =>
      rcases List.mem_cons.1 h with rfl | hbehind
      · exact ⟨_, List.mem_cons_self⟩
      · obtain ⟨before, hbefore⟩ := ih hbehind (preceding ++ start ++ gap name)
        exact ⟨before, List.mem_cons_of_mem _ hbefore⟩

/-- A front in which no gap begins moves every place of a cut behind it. -/
theorem MarksFirst.after (h : cut.MarksFirst given template)
    (hnone : ∀ entry ∈ given, BeginsNowhere (gap entry.1) front template) :
    (cut.after front).MarksFirst given (front ++ template) where
  whole := by rw [template_after, h.whole]
  marks before entry := by
    rw [marks_after, List.nil_append, ← List.append_nil front, mem_marks_append, List.append_nil]
    constructor
    · rintro ⟨behind, rfl, hmark⟩
      obtain ⟨hentry, hfirst⟩ := (h.marks behind entry).1 hmark
      exact ⟨hentry, (firstGap_append (hnone entry hentry)).2 ⟨behind, rfl, hfirst⟩⟩
    · rintro ⟨hentry, hfirst⟩
      obtain ⟨behind, rfl, hbehind⟩ := (firstGap_append (hnone entry hentry)).1 hfirst
      exact ⟨behind, rfl, (h.marks behind entry).2 ⟨hentry, hbehind⟩⟩

/-- At a gap of a given name the template is cut, and behind it at the gaps of the other names. -/
theorem MarksFirst.place {others : Dictionary Reference} (h : cut.MarksFirst others template)
    (hwords : ∀ other ∈ given, IsWord other.1.toList) (hentry : entry ∈ given)
    (hothers : ∀ other, other ∈ others ↔ other ∈ given ∧ other.1 ≠ entry.1)
    (honly : ∀ other ∈ given, other.1 = entry.1 → other = entry) :
    (Cut.place [] entry.1 entry.2 cut).MarksFirst given (gap entry.1 ++ template) where
  whole := by rw [Cut.template, h.whole, List.nil_append]
  marks before other := by
    have hmarks : (before, other) ∈ (Cut.place [] entry.1 entry.2 cut).marks [] ↔
        (before = [] ∧ other = entry) ∨
          ∃ behind, before = gap entry.1 ++ behind ∧ (behind, other) ∈ cut.marks [] := by
      rw [Cut.marks, List.mem_cons, Prod.mk.injEq, List.nil_append, List.nil_append,
        ← List.append_nil (gap entry.1), mem_marks_append, List.append_nil]
    rw [hmarks]
    by_cases hsame : other.1 = entry.1
    · have hnot : ∀ behind, (behind, other) ∉ cut.marks [] := fun behind hmark =>
        ((hothers other).1 ((h.marks behind other).1 hmark).1).2 hsame
      rw [hsame, firstGap_front (List.prefix_append _ _)]
      constructor
      · rintro (⟨rfl, rfl⟩ | ⟨behind, -, hmark⟩)
        · exact ⟨hentry, rfl⟩
        · exact absurd hmark (hnot behind)
      · rintro ⟨hother, rfl⟩
        exact .inl ⟨rfl, honly other hother hsame⟩
    · have hne : other ≠ entry := fun heq => hsame (congrArg Prod.fst heq)
      constructor
      · rintro (⟨-, heq⟩ | ⟨behind, rfl, hmark⟩)
        · exact absurd heq hne
        · obtain ⟨hother, hfirst⟩ := (h.marks behind other).1 hmark
          have hgiven := ((hothers other).1 hother).1
          have hnowhere := beginsNowhere_gap (hwords other hgiven) (hwords entry hentry)
            (Ne.symm hsame) template
          exact ⟨hgiven, (firstGap_append hnowhere).2 ⟨behind, rfl, hfirst⟩⟩
      · rintro ⟨hgiven, hfirst⟩
        have hnowhere := beginsNowhere_gap (hwords other hgiven) (hwords entry hentry)
          (Ne.symm hsame) template
        obtain ⟨behind, rfl, hbehind⟩ := (firstGap_append hnowhere).1 hfirst
        exact .inr ⟨behind, rfl, (h.marks behind other).2 ⟨(hothers other).2 ⟨hgiven, hsame⟩, hbehind⟩⟩

/-- Every template can be cut at the first gaps of the given names. -/
theorem exists_marksFirst (hwords : ∀ entry ∈ given, IsWord entry.1.toList)
    (hnames : given.keys.Nodup) (template : List Char) :
    ∃ cut : Cut, cut.MarksFirst given template := by
  -- On the length of the template: a gap at the front is cut off whole, any other front one character at a
  -- time.
  induction hlength : template.length using Nat.strong_induction_on generalizing template given with
  | _ length ih =>
      by_cases hgap : ∃ entry ∈ given, gap entry.1 <+: template
      · obtain ⟨entry, hentry, template, rfl⟩ := hgap
        have hshorter : template.length < length := by
          rw [← hlength, List.length_append]
          simp [gap]
        have hsub : (given.filter (·.1 ≠ entry.1)).Sublist given := List.filter_sublist
        obtain ⟨cut, hcut⟩ := ih template.length hshorter
          (fun other hother => hwords other (hsub.subset hother)) (hnames.sublist (hsub.map _))
          template rfl
        refine ⟨_, hcut.place hwords hentry (fun other => by simp) fun other hother hsame => ?_⟩
        exact List.inj_on_of_nodup_map hnames hother hentry hsame
      · cases template with
        | nil =>
            refine ⟨.ending [], rfl, fun before entry => ?_⟩
            have hempty : ¬ FirstGap [] entry.1 before := fun hfirst =>
              gap_ne_nil entry.1 (List.append_eq_nil_iff.1 (List.prefix_nil.1 hfirst.occurs)).2
            simp [marks, hempty]
        | cons c template =>
            obtain ⟨cut, hcut⟩ := ih template.length (by simp [← hlength]) hwords hnames template rfl
            refine ⟨cut.after [c], hcut.after fun entry hentry => beginsNowhere_cons.2 ⟨?_, ?_⟩⟩
            · exact fun hfront => hgap ⟨entry, hentry, hfront⟩
            · exact beginsNowhere_nil _ _

/-! ## Where the first gap of a name stands -/

/-- The first gap of the name is a place of the cut, if there is a gap of the name at all. -/
inductive Locates (entry : String × Reference) : Cut → Prop
  | none {text} (h : BeginsNowhere (gap entry.1) text []) : Locates entry (.ending text)
  | here {before behind} (h : BeginsNowhere (gap entry.1) before (gap entry.1 ++ behind.template))
      (hbehind : entry.1 ∉ behind.entries.keys) :
      Locates entry (.place before entry.1 entry.2 behind)
  | later {before name reference behind} (hne : name ≠ entry.1)
      (h : BeginsNowhere (gap entry.1) (before ++ gap name) behind.template)
      (hbehind : Locates entry behind) : Locates entry (.place before name reference behind)

theorem locates_of_marks {whole : List Char} (hwhole : whole = preceding ++ cut.template)
    (hplaces : ∀ before reference, (before, entry.1, reference) ∈ cut.marks preceding →
      reference = entry.2 ∧ FirstGap whole entry.1 before)
    (hfirst : ∀ before, FirstGap whole entry.1 before → (before, entry) ∈ cut.marks preceding) :
    cut.Locates entry := by
  -- The text already passed is kept in front, as places are counted from the start of the whole.
  induction cut generalizing preceding with
  | ending text =>
      have htext : whole = preceding ++ (text ++ []) := by
        rw [hwhole, Cut.template, List.append_nil]
      refine .none (beginsNowhere_of_firstGap htext fun before hbefore => ?_)
      exact absurd (hfirst before hbefore) List.not_mem_nil
  | place before name reference behind ih =>
      have hbehind : whole = preceding ++ before ++ gap name ++ behind.template := by
        simp [hwhole, Cut.template]
      by_cases hname : name = entry.1
      · subst hname
        obtain ⟨rfl, hhere⟩ := hplaces _ reference List.mem_cons_self
        refine .here (beginsNowhere_of_firstGap hwhole fun other hother => ?_) fun hmem => ?_
        · exact (hhere.eq hother) ▸ List.prefix_rfl
        · -- A second place of the name would not be its first gap.
          obtain ⟨⟨_, reference⟩, hentry, rfl⟩ := List.mem_map.1 hmem
          obtain ⟨other, hother⟩ := exists_mark hentry (preceding ++ before ++ gap entry.1)
          obtain ⟨-, hlater⟩ := hplaces other reference (List.mem_cons_of_mem _ hother)
          have hlong := (prefix_of_mem_marks hother).length_le
          rw [← hhere.eq hlater, List.length_append] at hlong
          have hpos : 0 < (gap entry.1).length := List.length_pos_of_ne_nil (gap_ne_nil _)
          omega
      · have hmark : ∀ other, FirstGap whole entry.1 other →
            (other, entry) ∈ behind.marks (preceding ++ before ++ gap name) := by
          intro other hother
          refine (List.mem_cons.1 (hfirst other hother)).resolve_left fun heq => hname ?_
          exact (congrArg (·.2.1) heq).symm
        have hpart : whole = preceding ++ (before ++ gap name ++ behind.template) := by
          simp [hbehind]
        refine .later hname (beginsNowhere_of_firstGap hpart fun other hother => ?_)
          (ih hbehind (fun other reference hother => ?_) hmark)
        · rw [← List.append_assoc]
          exact prefix_of_mem_marks (hmark other hother)
        · exact hplaces other reference (List.mem_cons_of_mem _ hother)

/-- Every name given is located by a cut that marks the first gaps. -/
theorem MarksFirst.locates (h : cut.MarksFirst given template) (hnames : given.keys.Nodup)
    (hentry : entry ∈ given) : cut.Locates entry := by
  have hwhole : template = [] ++ cut.template := h.whole.symm
  refine locates_of_marks hwhole (fun before reference hmark => ?_)
    fun before hfirst => (h.marks before entry).2 ⟨hentry, hfirst⟩
  obtain ⟨hgiven, hfirst⟩ := (h.marks _ _).1 hmark
  have hsame := List.inj_on_of_nodup_map hnames hgiven hentry rfl
  exact ⟨congrArg Prod.snd hsame, hfirst⟩

theorem MarksFirst.mem_of_mem_entries (h : cut.MarksFirst given template)
    (hentry : entry ∈ cut.entries) : entry ∈ given := by
  obtain ⟨before, hmark⟩ := exists_mark hentry []
  exact ((h.marks before entry).1 hmark).1

/-! ## Filling one gap after the other -/

/-- The template with the gaps of some names filled. -/
def text (done : List String) : Cut → List Char
  | ending text => text
  | place before name reference behind =>
      before ++ ((if name ∈ done then reference.token.chars else gap name) ++ behind.text done)

theorem text_nil (cut : Cut) : cut.text [] = cut.template := by
  induction cut with
  | ending text => rfl
  | place before name reference behind ih => simp [text, Cut.template, ih]

theorem text_eq_filled (h : ∀ name ∈ cut.entries.keys, name ∈ done) : cut.text done = cut.filled := by
  induction cut with
  | ending text => rfl
  | place before name reference behind ih =>
      obtain ⟨hname, hbehind⟩ := List.forall_mem_cons.1 h
      rw [text, filled, if_pos hname, ih hbehind]

theorem text_of_not_mem {name : String} (h : name ∉ cut.entries.keys) :
    cut.text (done ++ [name]) = cut.text done := by
  induction cut with
  | ending text => rfl
  | place before other reference behind ih =>
      obtain ⟨hother, hbehind⟩ := not_or.1 (mt List.mem_cons.2 h)
      simp [text, ih hbehind, Ne.symm hother]

/-- What begins at the front of a partly filled template, and goes on past no dollar sign, begins at the
front of the template. -/
theorem prefix_template {pattern : List Char} (hpattern : '$' ∉ pattern)
    (h : pattern <+: front ++ cut.text done) : pattern <+: front ++ cut.template := by
  induction cut generalizing front with
  | ending text => exact h
  | place before name reference behind ih =>
      rw [text] at h
      rw [Cut.template, ← List.append_assoc, ← List.append_assoc]
      split at h
      · -- The pattern ends before the token.
        obtain ⟨rest, hrest⟩ := h
        have htoken : front ++ (before ++ (reference.token.chars ++ behind.text done)) =
            front ++ before ++ '$' :: ('\x7b' :: (reference.token.body ++ [closing]) ++
              behind.text done) := by
          simp [Token.chars_eq_body, opening]
        obtain ⟨between, hbetween, -⟩ := split_of_not_mem hpattern (hrest.trans htoken)
        rw [hbetween, List.append_assoc, List.append_assoc]
        exact List.prefix_append _ _
      · rw [← List.append_assoc, ← List.append_assoc] at h
        exact ih h

theorem beginsNowhere_text {pattern : List Char} (hpattern : '$' ∉ pattern)
    (h : BeginsNowhere pattern front cut.template) (done : List String) :
    BeginsNowhere pattern front (cut.text done) :=
  fun before after hsplit hafter hbegins =>
    h before after hsplit hafter (prefix_template hpattern hbegins)

theorem beginsNowhere_place {pattern : List Char} (hpattern : '$' ∉ pattern) {name : String}
    (reference : Reference) (h : BeginsNowhere pattern front (gap name ++ cut.template))
    (done : List String) :
    BeginsNowhere pattern front
      ((if name ∈ done then reference.token.chars else gap name) ++ cut.text done) := by
  have hplace : BeginsNowhere pattern front (place [] name reference cut).template := h
  exact beginsNowhere_text hpattern hplace done

/-- Filling the gap of one more name. -/
theorem Locates.fillGap (h : cut.Locates entry) (hname : IsWord entry.1.toList)
    (hfits : ∀ other ∈ cut.entries, Fits other) (hnew : entry.1 ∉ done) :
    Notation.fillGap (cut.text done) entry.1 entry.2 = cut.text (done ++ [entry.1]) := by
  have hdollar := dollar_not_mem_gap hname
  have hgap := gap_ne_nil entry.1
  rw [Notation.fillGap]
  -- The name has no gap at all, has it here, or has it further behind.
  induction h with
  | @none text hnowhere =>
      have hpass := replaceFirst_append hnowhere entry.2.token.chars
      rwa [List.append_nil, replaceFirst_nil hgap, List.append_nil] at hpass
  | @here before behind hnowhere hbehind =>
      have hplace := beginsNowhere_place hdollar entry.2 hnowhere done
      rw [if_neg hnew] at hplace
      rw [text, if_neg hnew, replaceFirst_append hplace, replaceFirst_front hgap, text,
        if_pos (List.mem_append_right done (List.mem_singleton_self _)), text_of_not_mem hbehind]
  | @later before name reference behind hne hnowhere _ ih =>
      obtain ⟨hfit, hrest⟩ := List.forall_mem_cons.1 hfits
      obtain ⟨hbefore, hgapName⟩ := beginsNowhere_append.1 hnowhere
      have hplace := beginsNowhere_place hdollar reference hbefore done
      have hpiece : BeginsNowhere (gap entry.1)
          (if name ∈ done then reference.token.chars else gap name) (behind.text done) := by
        split
        · exact beginsNowhere_token hname hfit.writable hfit.unbraced _
        · exact beginsNowhere_text hdollar hgapName done
      have hsame : name ∈ done ++ [entry.1] ↔ name ∈ done := by simp [hne]
      rw [text, replaceFirst_append hplace, replaceFirst_append hpiece, ih hrest, text]
      simp only [hsame]

/-- Filling the gaps of all names, in some order. -/
theorem foldlM_fillings {fillings : Dictionary Filling} {order : Dictionary Reference}
    (hfillings : List.Forall₂ Fills fillings order)
    (horder : ∀ entry ∈ order, Fits entry ∧ cut.Locates entry) (hnames : order.keys.Nodup)
    (hfits : ∀ entry ∈ cut.entries, Fits entry) (hnew : ∀ name ∈ Dictionary.keys order, name ∉ done) :
    fillings.foldlM (fun text (entry : String × Filling) => do
        return Notation.fillGap text entry.1 (← entry.2.toReference)) (cut.text done) =
      Except.ok (ε := Failure) (cut.text (done ++ order.keys)) := by
  -- The names done so far are filled; each step fills one more, and leaves the others where they are.
  induction hfillings generalizing done with
  | nil => rw [Dictionary.keys, List.map_nil, List.append_nil]; rfl
  | @cons filling entry fillings order hfills _ ih =>
      obtain ⟨hname, hreference⟩ := hfills
      obtain ⟨⟨hfit, hlocates⟩, horder⟩ := List.forall_mem_cons.1 horder
      obtain ⟨hentry, hnames⟩ := List.nodup_cons.1 hnames
      obtain ⟨hnotDone, hnew⟩ := List.forall_mem_cons.1 hnew
      have hfilled := hlocates.fillGap hfit.name hfits hnotDone
      have hstill : ∀ name ∈ Dictionary.keys order, name ∉ done ++ [entry.1] := by
        intro name hmem hdone
        rcases List.mem_append.1 hdone with hdone | hdone
        · exact hnew name hmem hdone
        · exact hentry (List.mem_singleton.1 hdone ▸ hmem)
      rw [List.foldlM_cons, hreference, hname]
      have hrest := ih horder hnames hstill
      rw [List.append_assoc] at hrest
      rw [← hfilled] at hrest
      exact hrest

/-! ## Reading the filled template -/

/-- The references of a filled template are those of its places, from left to right. -/
theorem referencesIn_filled (hopening : Unopened cut.template)
    (hfits : ∀ entry ∈ cut.entries, Fits entry) : referencesIn cut.filled = cut.references := by
  induction cut with
  | ending text => exact referencesIn_of_unopened hopening
  | place before name reference behind ih =>
      obtain ⟨hfit, hrest⟩ := List.forall_mem_cons.1 hfits
      have hbefore : Unopened before := hopening.of_part (List.prefix_append _ _).isInfix
      have hbehind : Unopened behind.template :=
        hopening.of_part (((List.suffix_append (gap name) _).trans (List.suffix_append before _)).isInfix)
      -- A dollar sign before a gap would open a token.
      have hlast : before.getLast? ≠ some '$' := by
        intro hdollar
        obtain ⟨front, rfl⟩ := List.getLast?_eq_some_iff.1 hdollar
        refine hopening ⟨front, name.toList ++ '\x7d' :: behind.template, ?_⟩
        simp [Cut.template, gap, opening]
      have hunopened : Unopened reference.refValue.toList := fun hinside =>
        hfit.unbraced (hinside.subset (by simp [opening]))
      have hpart := (adds_plain hbefore hlast).append (adds_reference hfit.writable hunopened)
      have hread := hpart.references behind.filled
      rw [List.append_assoc] at hread
      rw [filled, hread, ih hbehind hrest]
      rfl

end Cut

/-- A template without an opening sign is filled as if all its gaps were filled at once, whatever the order of
the names: a token stands in the place of the first gap of every given name, and all else stays.  The
filled template refers to what was given for the names that occur, in the order of their first gaps. -/
theorem fillTemplate_atOnce {template : String} {given : Dictionary Reference}
    (hopening : ¬ opening <:+: template.toList) (hnames : given.keys.Nodup)
    (hgiven : ∀ entry ∈ given, Fits entry) :
    (∃ cut : Cut, cut.MarksFirst given template.toList) ∧
      ∀ cut : Cut, cut.MarksFirst given template.toList →
        (∀ fillings order, List.Perm order given → List.Forall₂ Fills fillings order →
          fillTemplate template fillings = .ok (String.ofList cut.filled)) ∧
        references (String.ofList cut.filled) = cut.references := by
  refine ⟨Cut.exists_marksFirst (fun entry hentry => (hgiven entry hentry).name) hnames _,
    fun cut hcut => ⟨fun fillings order hperm hfillings => ?_, ?_⟩⟩
  · have horder : ∀ entry ∈ order, Fits entry ∧ cut.Locates entry := fun entry hentry =>
      have hmem := hperm.mem_iff.1 hentry
      ⟨hgiven entry hmem, hcut.locates hnames hmem⟩
    have hall : ∀ name ∈ cut.entries.keys, name ∈ [] ++ Dictionary.keys order := by
      intro name hname
      obtain ⟨entry, hentry, rfl⟩ := List.mem_map.1 hname
      exact List.mem_map_of_mem (hperm.mem_iff.2 (hcut.mem_of_mem_entries hentry))
    have hnew : ∀ name ∈ Dictionary.keys order, name ∉ [] := fun _ _ => List.not_mem_nil
    -- No name is done at first, and in the end every name of the template is.
    have hfilled := Cut.foldlM_fillings hfillings horder ((hperm.map _).nodup_iff.2 hnames)
      (fun entry hentry => hgiven entry (hcut.mem_of_mem_entries hentry)) hnew
    rw [Cut.text_nil, hcut.whole, Cut.text_eq_filled hall] at hfilled
    rw [fillTemplate, hfilled]
    rfl
  · rw [references, parse, String.toList_ofList]
    exact Cut.referencesIn_filled (by rwa [hcut.whole])
      fun entry hentry => hgiven entry (hcut.mem_of_mem_entries hentry)

/-- A template with a gap inside braces, a second gap of the same name, and half an opening sign at its end. -/
def bracedTemplate : String :=
  "\x7b\x7bnoi\x7d\x7d at \x7bcap_rate\x7d or \x7bnoi\x7d, \x7bother\x7d$"

/-- References whose keys are names of gaps, and one for a name without a gap. -/
def crossedReferences : Dictionary Reference :=
  [("cap_rate",
      { valueKey := "noi", sourceType := "userInput", refType := "key", refValue := "cap_rate" }),
    ("absent", { valueKey := "a", sourceType := "x", refType := "y", refValue := "$" }),
    ("noi",
      { valueKey := "cap_rate", sourceType := "calculated", refType := "key", refValue := "noi, noi" })]

theorem fillTemplate_atOnce_braced :
    ¬ opening <:+: bracedTemplate.toList ∧ crossedReferences.keys.Nodup ∧
      (∀ entry ∈ crossedReferences, Fits entry) ∧
      (∃ cut : Cut, cut.MarksFirst crossedReferences bracedTemplate.toList) ∧
      ∀ cut : Cut, cut.MarksFirst crossedReferences bracedTemplate.toList →
        (∀ fillings order, List.Perm order crossedReferences → List.Forall₂ Fills fillings order →
          fillTemplate bracedTemplate fillings = .ok (String.ofList cut.filled)) ∧
        references (String.ofList cut.filled) = cut.references := by
  have hopening : ¬ opening <:+: bracedTemplate.toList := by decide +kernel
  have hnames : crossedReferences.keys.Nodup := by decide
  have hfits : ∀ entry ∈ crossedReferences, Fits entry := by decide +kernel
  exact ⟨hopening, hnames, hfits, fillTemplate_atOnce hopening hnames hfits⟩

end Notation
end Appraisal
