/-!
# Dictionaries

A dictionary is a list of pairs of a name and a value.  Looking a name up finds its first pair, and
storing under a name that is present replaces the value in place, so the names stay in the order in
which they were first stored and stay distinct.
-/

namespace Appraisal

/-- Pairs of a name and a value, in the order in which the names were first stored. -/
abbrev Dictionary (α : Type) := List (String × α)

namespace Dictionary

variable {α : Type}

/-- The names, in order. -/
def keys (d : Dictionary α) : List String :=
  d.map Prod.fst

/-- The value stored under a name. -/
def get? (d : Dictionary α) (name : String) : Option α :=
  d.lookup name

/-- Whether a name is present. -/
def has (d : Dictionary α) (name : String) : Bool :=
  d.any fun entry => entry.1 == name

/-- Stores a value under a name. -/
def put (d : Dictionary α) (name : String) (value : α) : Dictionary α :=
  match d with
  | [] => [(name, value)]
  | entry :: rest =>
      if entry.1 = name then (name, value) :: rest else entry :: put rest name value

/-- Stores a value under a name that is not present yet. -/
def putNew (d : Dictionary α) (name : String) (value : α) : Dictionary α :=
  if d.has name then d else d ++ [(name, value)]

/-- Stores all pairs of a list, in order. -/
def putAll (d : Dictionary α) (entries : List (String × α)) : Dictionary α :=
  entries.foldl (fun d entry => d.put entry.1 entry.2) d

/-- Stores those pairs of a list whose names are not present, in order. -/
def putAllNew (d : Dictionary α) (entries : List (String × α)) : Dictionary α :=
  entries.foldl (fun d entry => d.putNew entry.1 entry.2) d

/-- The dictionary of a list of pairs, where a later pair of a name replaces the value of an earlier. -/
def ofPairs (entries : List (String × α)) : Dictionary α :=
  putAll [] entries

@[simp] theorem get?_nil (name : String) : get? ([] : Dictionary α) name = none := rfl

theorem get?_cons_self (d : Dictionary α) (name : String) (value : α) :
    get? ((name, value) :: d) name = some value := by
  simp [get?]

theorem get?_cons_of_ne (d : Dictionary α) {name other : String} (value : α) (h : other ≠ name) :
    get? ((name, value) :: d) other = d.get? other := by
  have hne : (other == name) = false := by simpa using h
  simp [get?, List.lookup_cons, hne]

theorem get?_put_self (d : Dictionary α) (name : String) (value : α) :
    (d.put name value).get? name = some value := by
  induction d with
  | nil => exact get?_cons_self [] name value
  | cons entry rest ih =>
      obtain ⟨key, held⟩ := entry
      unfold put
      by_cases hkey : key = name
      · rw [if_pos hkey]
        exact get?_cons_self rest name value
      · rw [if_neg hkey, get?_cons_of_ne _ held (Ne.symm hkey)]
        exact ih

theorem get?_put_of_ne (d : Dictionary α) {name other : String} (value : α) (h : other ≠ name) :
    (d.put name value).get? other = d.get? other := by
  induction d with
  | nil => exact get?_cons_of_ne [] value h
  | cons entry rest ih =>
      obtain ⟨key, held⟩ := entry
      unfold put
      by_cases hkey : key = name
      · rw [if_pos hkey, get?_cons_of_ne rest value h, get?_cons_of_ne rest held (hkey ▸ h)]
      · rw [if_neg hkey]
        by_cases hother : other = key
        · rw [hother, get?_cons_self, get?_cons_self]
        · rw [get?_cons_of_ne _ held hother, get?_cons_of_ne _ held hother]
          exact ih

/-- A look-up finds nothing exactly under the names that do not occur. -/
theorem get?_eq_none_iff (d : Dictionary α) (name : String) :
    d.get? name = none ↔ name ∉ d.keys := by
  induction d with
  | nil => simp [keys]
  | cons entry rest ih =>
      obtain ⟨key, held⟩ := entry
      by_cases hname : name = key
      · rw [hname, get?_cons_self]
        simp [keys]
      · rw [get?_cons_of_ne rest held hname, ih]
        simp [keys, hname]

/-- A new name is put behind all others. -/
theorem keys_put_of_not_mem (d : Dictionary α) {name : String} (value : α) (h : name ∉ d.keys) :
    (d.put name value).keys = d.keys ++ [name] := by
  induction d with
  | nil => rfl
  | cons entry rest ih =>
      simp only [keys, List.map_cons, List.mem_cons, not_or] at h
      unfold put
      rw [if_neg (Ne.symm h.1)]
      simpa [keys] using ih h.2

theorem put_of_not_mem (d : Dictionary α) {name : String} (value : α) (h : name ∉ d.keys) :
    d.put name value = d ++ [(name, value)] := by
  induction d with
  | nil => rfl
  | cons entry rest ih =>
      simp only [keys, List.map_cons, List.mem_cons, not_or] at h
      unfold put
      rw [if_neg (Ne.symm h.1), ih h.2]
      rfl

theorem has_eq_isSome_get? (d : Dictionary α) (name : String) : d.has name = (d.get? name).isSome := by
  induction d with
  | nil => rfl
  | cons entry rest ih =>
      obtain ⟨key, held⟩ := entry
      by_cases hname : name = key
      · rw [hname, get?_cons_self]
        simp [has]
      · rw [get?_cons_of_ne rest held hname, ← ih]
        simp [has, Ne.symm hname]

theorem mem_of_get? {d : Dictionary α} {name : String} {value : α} (h : d.get? name = some value) :
    (name, value) ∈ d := by
  obtain ⟨before, after, rfl, -⟩ := List.lookup_eq_some_iff.1 h
  simp

/-- What stands in front hides what stands behind. -/
theorem get?_append (d e : Dictionary α) (name : String) :
    get? (d ++ e) name = (d.get? name).or (e.get? name) := by
  induction d with
  | nil => rfl
  | cons entry rest ih =>
      obtain ⟨key, held⟩ := entry
      by_cases hname : name = key
      · rw [hname, List.cons_append, get?_cons_self, get?_cons_self]
        rfl
      · rw [List.cons_append, get?_cons_of_ne _ held hname, get?_cons_of_ne _ held hname, ih]

theorem get?_map {β : Type} (d : Dictionary α) (f : α → β) (name : String) :
    get? (d.map fun entry => (entry.1, f entry.2)) name = (d.get? name).map f := by
  induction d with
  | nil => rfl
  | cons entry rest ih =>
      obtain ⟨key, held⟩ := entry
      by_cases hname : name = key
      · rw [hname, List.map_cons, get?_cons_self, get?_cons_self]
        rfl
      · rw [List.map_cons, get?_cons_of_ne _ _ hname, get?_cons_of_ne _ _ hname, ih]

/-- Whatever stood under the name before is kept. -/
theorem get?_putNew_self (d : Dictionary α) (name : String) (value : α) :
    (d.putNew name value).get? name = some ((d.get? name).getD value) := by
  unfold putNew
  rw [has_eq_isSome_get?]
  cases hheld : d.get? name with
  | none => simp [get?_append, hheld, get?_cons_self]
  | some held => simpa using hheld

theorem get?_putNew_of_ne (d : Dictionary α) {name other : String} (value : α) (h : other ≠ name) :
    (d.putNew name value).get? other = d.get? other := by
  unfold putNew
  split
  · rfl
  · rw [get?_append, get?_cons_of_ne [] value h, get?_nil, Option.or_none]

/-- What is there is kept; of the new pairs of a name the first one counts. -/
theorem get?_putAllNew (d : Dictionary α) (entries : List (String × α)) (name : String) :
    (d.putAllNew entries).get? name = (d.get? name).or (get? entries name) := by
  induction entries generalizing d with
  | nil => exact (Option.or_none).symm
  | cons entry rest ih =>
      obtain ⟨key, value⟩ := entry
      have hstep : (d.putAllNew ((key, value) :: rest)).get? name =
          ((d.putNew key value).get? name).or (get? rest name) := ih (d.putNew key value)
      rw [hstep]
      -- Only the pair of this name can have changed what is found under it, and only if nothing was there.
      by_cases hname : name = key
      · rw [hname, get?_putNew_self, get?_cons_self]
        cases d.get? key <;> rfl
      · rw [get?_putNew_of_ne d value hname, get?_cons_of_ne rest value hname]

/-- The stored pair hides the ones before it, and no others. -/
theorem get?_put_eq_or (d : Dictionary α) (key : String) (value : α) (name : String) :
    (d.put key value).get? name = (get? [(key, value)] name).or (d.get? name) := by
  by_cases hname : name = key
  · rw [hname, get?_put_self, get?_cons_self]
    rfl
  · rw [get?_put_of_ne d value hname, get?_cons_of_ne [] value hname]
    rfl

/-- The last of the stored pairs of a name counts, and what is there only if there is none. -/
theorem get?_putAll (d : Dictionary α) (entries : List (String × α)) (name : String) :
    (d.putAll entries).get? name = (get? entries.reverse name).or (d.get? name) := by
  induction entries generalizing d with
  | nil => rfl
  | cons entry rest ih =>
      obtain ⟨key, value⟩ := entry
      have hstep : (d.putAll ((key, value) :: rest)).get? name =
          (get? rest.reverse name).or ((d.put key value).get? name) := ih (d.put key value)
      rw [hstep, get?_put_eq_or, List.reverse_cons, get?_append, Option.or_assoc]

/-! ## Distinct names -/

/-- A name that is there keeps its place. -/
theorem keys_put_of_mem (d : Dictionary α) {name : String} (value : α) (h : name ∈ d.keys) :
    (d.put name value).keys = d.keys := by
  induction d with
  | nil => cases h
  | cons entry rest ih =>
      unfold put
      split
      · next hname => simp [keys, hname]
      · next hname =>
          have hrest : name ∈ keys rest := (List.mem_cons.1 h).resolve_left (Ne.symm hname)
          simpa [keys] using ih hrest

theorem nodup_keys_put {d : Dictionary α} (h : d.keys.Nodup) (name : String) (value : α) :
    (d.put name value).keys.Nodup := by
  by_cases hname : name ∈ d.keys
  · rwa [keys_put_of_mem d value hname]
  · rw [keys_put_of_not_mem d value hname]
    simpa [List.nodup_append] using ⟨h, fun other hother heq => hname (heq ▸ hother)⟩

theorem nodup_keys_putNew {d : Dictionary α} (h : d.keys.Nodup) (name : String) (value : α) :
    (d.putNew name value).keys.Nodup := by
  unfold putNew
  split
  · exact h
  · next habsent =>
      have hfresh : name ∉ d.keys := by
        rw [← get?_eq_none_iff]
        simpa [has_eq_isSome_get?] using habsent
      simpa [keys, List.nodup_append] using ⟨h, fun key held hmem heq => hfresh (heq ▸
        List.mem_map_of_mem (f := Prod.fst) hmem)⟩

theorem nodup_keys_putAllNew {d : Dictionary α} (h : d.keys.Nodup) (entries : List (String × α)) :
    (d.putAllNew entries).keys.Nodup := by
  induction entries generalizing d with
  | nil => exact h
  | cons entry rest ih => exact ih (nodup_keys_putNew h entry.1 entry.2)

/-- As long as names are distinct, every entry is found under its name. -/
theorem get?_of_mem {d : Dictionary α} (h : d.keys.Nodup) {entry : String × α} (hentry : entry ∈ d) :
    d.get? entry.1 = some entry.2 := by
  induction d with
  | nil => cases hentry
  | cons first rest ih =>
      obtain ⟨key, held⟩ := first
      have hdistinct : key ∉ keys rest ∧ (keys rest).Nodup := List.nodup_cons.1 h
      rcases List.mem_cons.1 hentry with rfl | hrest
      · exact get?_cons_self rest key held
      · have hother : entry.1 ≠ key := fun heq =>
          hdistinct.1 (heq ▸ List.mem_map_of_mem (f := Prod.fst) hrest)
        rw [get?_cons_of_ne rest held hother]
        exact ih hdistinct.2 hrest

/-- As long as names are distinct, their order has no influence on what is found. -/
theorem get?_reverse {d : Dictionary α} (h : d.keys.Nodup) (name : String) :
    get? d.reverse name = d.get? name := by
  induction d with
  | nil => rfl
  | cons entry rest ih =>
      obtain ⟨key, held⟩ := entry
      have hdistinct : key ∉ keys rest ∧ (keys rest).Nodup := List.nodup_cons.1 h
      rw [List.reverse_cons, get?_append, ih hdistinct.2]
      by_cases hname : name = key
      · rw [hname, (get?_eq_none_iff rest key).2 hdistinct.1, get?_cons_self, get?_cons_self]
        rfl
      · rw [get?_cons_of_ne rest held hname, get?_cons_of_ne [] held hname, get?_nil,
          Option.or_none]

end Dictionary
end Appraisal
