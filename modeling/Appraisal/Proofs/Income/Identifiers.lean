import Appraisal.Proofs.Income.Grouping
import Mathlib.Data.List.TakeWhile

/-!
# Identifiers of streams

The identifier of a stream is made of the name of its group, and a name can be read off it only up to the breaks:
a run of blank characters and a hyphen look alike afterwards, and so do capital and small letters.  Nothing else is
confused.  So the identifiers tell the streams apart exactly when no two groups have names that read alike.
-/

namespace Appraisal
namespace Income

open Text (isBlank trim lower)

/-! ## Texts that read alike -/

/-- The text is a break and the rest.  A run of blank characters is one break as a whole. -/
inductive OpensWithBreak : List Char → List Char → Prop
  | hyphen (rest : List Char) : OpensWithBreak ('-' :: rest) rest
  | blanks {run rest : List Char} (hne : run ≠ []) (hrun : ∀ c ∈ run, isBlank c = true)
      (hrest : ∀ c ∈ rest.head?, isBlank c = false) : OpensWithBreak (run ++ rest) rest

/-- The texts have the same characters and breaks in the same places. -/
inductive ReadAlike : List Char → List Char → Prop
  | nil : ReadAlike [] []
  | char {c : Char} {cs ds : List Char} (hc : isBlank c = false) (hrest : ReadAlike cs ds) :
      ReadAlike (c :: cs) (c :: ds)
  | gap {cs cs' ds ds' : List Char} (hcs : OpensWithBreak cs cs') (hds : OpensWithBreak ds ds')
      (hrest : ReadAlike cs' ds') : ReadAlike cs ds

variable {cs ds out : List Char} {c : Char}

theorem hyphenate_true (cs : List Char) : hyphenate true cs = hyphenate false (cs.dropWhile isBlank) := by
  induction cs with
  | nil => rfl
  | cons c rest ih =>
      cases hc : isBlank c with
      | true =>
          rw [List.dropWhile_cons_of_pos hc, ← ih]
          simp [hyphenate, hc]
      | false =>
          rw [List.dropWhile_cons_of_neg (by simp [hc])]
          simp [hyphenate, hc]

theorem hyphenate_cons (hc : isBlank c = false) (cs : List Char) :
    hyphenate false (c :: cs) = c :: hyphenate false cs := by
  simp [hyphenate, hc]

theorem hyphenate_cons_blank (hc : isBlank c = true) (cs : List Char) :
    hyphenate false (c :: cs) = '-' :: hyphenate false (cs.dropWhile isBlank) := by
  simp [hyphenate, hc, hyphenate_true]

theorem dropWhile_run {run rest : List Char} (hrun : ∀ c ∈ run, isBlank c = true)
    (hrest : ∀ c ∈ rest.head?, isBlank c = false) : (run ++ rest).dropWhile isBlank = rest := by
  rw [List.dropWhile_append_of_pos hrun]
  cases rest with
  | nil => rfl
  | cons c rest => exact List.dropWhile_cons_of_neg (by simp [hrest c rfl])

theorem not_isBlank_head?_dropWhile (cs : List Char) : ∀ c ∈ (cs.dropWhile isBlank).head?, isBlank c = false := by
  intro c hc
  have hhead := List.head?_dropWhile_not isBlank cs
  rw [Option.mem_def] at hc
  rwa [hc] at hhead

/-- A break of any kind is written as one hyphen. -/
theorem hyphenate_of_opensWithBreak (h : OpensWithBreak cs ds) :
    hyphenate false cs = '-' :: hyphenate false ds := by
  cases h with
  | hyphen => exact hyphenate_cons (show isBlank '-' = false by decide) ds
  | @blanks run rest hne hrun hrest =>
      obtain ⟨c, run, rfl⟩ := List.exists_cons_of_ne_nil hne
      rw [List.forall_mem_cons] at hrun
      rw [List.cons_append, hyphenate_cons_blank hrun.1, dropWhile_run hrun.2 hrest]

/-- The first character that is written is a character of the text or stands for a break. -/
theorem opens_of_hyphenate (h : hyphenate false cs = c :: out) :
    ∃ rest, hyphenate false rest = out ∧
      (c = '-' ∧ OpensWithBreak cs rest ∨ c ≠ '-' ∧ isBlank c = false ∧ cs = c :: rest) := by
  cases cs with
  | nil => exact absurd h (List.cons_ne_nil c out).symm
  | cons d rest =>
      cases hd : isBlank d with
      | true =>
          rw [hyphenate_cons_blank hd, List.cons.injEq] at h
          obtain ⟨rfl, rfl⟩ := h
          have hrun : ∀ c ∈ d :: rest.takeWhile isBlank, isBlank c = true :=
            List.forall_mem_cons.2 ⟨hd, fun c hc => List.mem_takeWhile_imp hc⟩
          have hbreak := OpensWithBreak.blanks (List.cons_ne_nil d _) hrun (not_isBlank_head?_dropWhile rest)
          rw [List.cons_append, List.takeWhile_append_dropWhile] at hbreak
          exact ⟨_, rfl, .inl ⟨rfl, hbreak⟩⟩
      | false =>
          rw [hyphenate_cons hd, List.cons.injEq] at h
          obtain ⟨rfl, rfl⟩ := h
          refine ⟨rest, rfl, ?_⟩
          -- A hyphen that is written may be a hyphen of the name.
          by_cases hhyphen : d = '-'
          · exact .inl ⟨hhyphen, hhyphen ▸ .hyphen rest⟩
          · exact .inr ⟨hhyphen, hd, rfl⟩

theorem eq_nil_of_hyphenate (h : hyphenate false cs = []) : cs = [] := by
  cases cs with
  | nil => rfl
  | cons c rest =>
      cases hc : isBlank c with
      | true => exact absurd (hyphenate_cons_blank hc rest ▸ h) (List.cons_ne_nil _ _)
      | false => exact absurd (hyphenate_cons hc rest ▸ h) (List.cons_ne_nil _ _)

/-- Names that are written alike are read alike, break by break. -/
theorem readAlike_of_hyphenate (hcs : hyphenate false cs = out) (hds : hyphenate false ds = out) :
    ReadAlike cs ds := by
  -- on what is written: its first character is the first character of both texts or a break of both
  induction out generalizing cs ds with
  | nil =>
      rw [eq_nil_of_hyphenate hcs, eq_nil_of_hyphenate hds]
      exact .nil
  | cons c out ih =>
      obtain ⟨cs', hcs', ⟨rfl, hbreak⟩ | ⟨hne, hc, rfl⟩⟩ := opens_of_hyphenate hcs
      · obtain ⟨ds', hds', ⟨-, hbreak'⟩ | ⟨hne, -⟩⟩ := opens_of_hyphenate hds
        · exact .gap hbreak hbreak' (ih hcs' hds')
        · exact absurd rfl hne
      · obtain ⟨ds', hds', ⟨hhyphen, -⟩ | ⟨-, -, rfl⟩⟩ := opens_of_hyphenate hds
        · exact absurd hhyphen hne
        · exact .char hc (ih hcs' hds')

/-- Texts are written alike when they read alike, and only then. -/
theorem hyphenate_eq_iff : hyphenate false cs = hyphenate false ds ↔ ReadAlike cs ds := by
  refine ⟨fun h => readAlike_of_hyphenate h rfl, fun h => ?_⟩
  induction h with
  | nil => rfl
  | char hc _ ih => rw [hyphenate_cons hc, hyphenate_cons hc, ih]
  | gap hcs hds _ ih => rw [hyphenate_of_opensWithBreak hcs, hyphenate_of_opensWithBreak hds, ih]

/-! ## Identifiers -/

/-- A name in small letters, without the blank characters around it. -/
def plainName (name : String) : List Char :=
  lower (trim isBlank name.toList)

/-- The names read alike, apart from capitals and the blank characters around them. -/
def SameReading (name other : String) : Prop :=
  ReadAlike (plainName name) (plainName other)

/-- Two names have one slug exactly when they are read alike after trimming and lowering. -/
theorem slug_eq_iff {name other : String} : slug name = slug other ↔ SameReading name other :=
  String.ofList_inj.trans hyphenate_eq_iff

instance (name other : String) : Decidable (SameReading name other) :=
  decidable_of_iff (slug name = slug other) slug_eq_iff

example : SameReading "Office  Park" " OFFICE-park" ∧ ¬ SameReading "Office Park" "OfficePark" := by
  decide +kernel

theorem streamId_eq_iff {name other : String} :
    "stream-" ++ slug name = "stream-" ++ slug other ↔ SameReading name other :=
  (String.append_right_inj _).trans slug_eq_iff

variable {items : List LineItem} {found : List RevenueStream}

theorem id_of_streams (h : streams items = .ok found) :
    ∀ stream ∈ found, stream.id = "stream-" ++ slug stream.name :=
  fun _ hstream => (shows_inGroup_of_streams h hstream).id

/-- The identifiers of the streams are the slugs of their names, in order. -/
theorem ids_of_streams (h : streams items = .ok found) :
    found.map RevenueStream.id = (found.map RevenueStream.name).map fun name => "stream-" ++ slug name := by
  rw [List.map_map]
  exact List.map_congr_left (id_of_streams h)

theorem mem_names_of_streams (h : streams items = .ok found) {name : String} :
    name ∈ found.map RevenueStream.name ↔ ∃ item ∈ items, groupOf item = name := by
  rw [names_of_streams h, List.mem_eraseDups, List.mem_map]

/-- Two streams have one identifier exactly when the names of their groups read alike, and so the identifiers are
pairwise distinct exactly when no two different groups have names that read alike. -/
theorem streams_ids (h : streams items = .ok found) :
    (∀ stream ∈ found, ∀ other ∈ found, stream.id = other.id ↔ SameReading stream.name other.name) ∧
      ((found.map RevenueStream.id).Nodup ↔
        ∀ item ∈ items, ∀ other ∈ items, SameReading (groupOf item) (groupOf other) →
          groupOf item = groupOf other) := by
  constructor
  · intro stream hstream other hother
    rw [id_of_streams h stream hstream, id_of_streams h other hother]
    exact streamId_eq_iff
  · -- The names are distinct anyway, so only names that read alike can meet in one identifier.
    rw [ids_of_streams h, List.nodup_map_iff_inj_on (nodup_names_of_streams h)]
    simp only [mem_names_of_streams h, streamId_eq_iff, forall_exists_index, and_imp,
      forall_apply_eq_imp_iff₂]

/-- Two groups of which one is named like the beginning of the other. -/
def officeLines : List LineItem :=
  [groupLine "suite" (some "Office Park") (.ofInt 1000), groupLine "kiosk" (some " Office") (.ofInt 2000),
    groupLine "sign" (some "Office Park") (.ofInt 300)]

/-- The office lines make two streams with an identifier each, since no two of the names read alike. -/
theorem streams_ids_officeLines :
    ∃ found, streams officeLines = .ok found ∧
      found.map RevenueStream.id = ["stream-office-park", "stream-office"] ∧
      ∀ item ∈ officeLines, ∀ other ∈ officeLines, SameReading (groupOf item) (groupOf other) →
        groupOf item = groupOf other := by
  have hfound : (streams officeLines).toOption.map (fun found => found.map RevenueStream.id) =
      some ["stream-office-park", "stream-office"] := by decide +kernel
  obtain ⟨found, hstreams, hids⟩ := map_toOption_eq_some.1 hfound
  refine ⟨found, hstreams, hids, (streams_ids hstreams).2.1 ?_⟩
  rw [hids]
  decide

/-- Two groups whose names differ in a capital letter get one identifier. -/
theorem streams_ids_collide :
    ∃ found, streams [groupLine "suite" (some "Office") (.ofInt 1000),
        groupLine "kiosk" (some "office") (.ofInt 2000)] = .ok found ∧
      found.map RevenueStream.name = ["Office", "office"] ∧
      found.map RevenueStream.id = ["stream-office", "stream-office"] ∧
      ¬ (found.map RevenueStream.id).Nodup := by
  have hfound : (streams [groupLine "suite" (some "Office") (.ofInt 1000),
      groupLine "kiosk" (some "office") (.ofInt 2000)]).toOption.map
        (fun found => (found.map RevenueStream.name, found.map RevenueStream.id)) =
      some (["Office", "office"], ["stream-office", "stream-office"]) := by decide +kernel
  obtain ⟨found, hstreams, hnames⟩ := map_toOption_eq_some.1 hfound
  rw [Prod.mk.injEq] at hnames
  refine ⟨found, hstreams, hnames.1, hnames.2, ?_⟩
  rw [hnames.2]
  decide

end Income
end Appraisal
