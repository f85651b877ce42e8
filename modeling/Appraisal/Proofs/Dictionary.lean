import Appraisal.Dictionary
import Appraisal.Payload.Basic
import Mathlib.Data.List.Forall2
import Mathlib.Data.List.Nodup
import Mathlib.Data.Option.Basic

/-!
# Look-ups in dictionaries and objects

What is found under a name depends on the entries of that name only.  So a dictionary is known by its look-ups, and
two objects with the same look-ups are alike.
-/

namespace Appraisal

/-!
## Names in the order in which they were first stored

Storing never moves a name.  So after any number of entries the names of a dictionary are the names of the
entries without repetitions, each where it came up first, and of several entries of a name the last one is found.
In a list of entries that is written down as it is, an entry that is left out is not found.
-/

namespace Dictionary

variable {α β : Type}

theorem eraseDups_eq_self {names : List String} (h : names.Nodup) : names.eraseDups = names := by
  induction names with
  | nil => rfl
  | cons name rest ih =>
      obtain ⟨hname, hrest⟩ := List.nodup_cons.1 h
      -- Taking out the first name takes nothing out of the rest, where it does not occur.
      have hkept : rest.filter (fun other => !other == name) = rest := by
        refine List.filter_eq_self.2 fun other hother => ?_
        simpa using ne_of_mem_of_not_mem hother hname
      rw [List.eraseDups_cons, hkept, ih hrest]

/-- A name that is there already leaves no trace among the names that come up first. -/
theorem eraseDups_append_cons_of_mem {names : List String} {name : String} (h : name ∈ names)
    (rest : List String) : (names ++ name :: rest).eraseDups = (names ++ rest).eraseDups := by
  have hcontains : names.contains name = true := List.contains_iff_mem.2 h
  rw [List.eraseDups_append, List.eraseDups_append, List.cons_removeAll, hcontains]
  rfl

section Folds

variable (name : β → String) (value : Dictionary α → β → α)

theorem nodup_keys_foldl_put {d : Dictionary α} (h : d.keys.Nodup) (items : List β) :
    (items.foldl (fun d item => d.put (name item) (value d item)) d).keys.Nodup := by
  induction items generalizing d with
  | nil => exact h
  | cons item rest ih => exact ih (nodup_keys_put h (name item) (value d item))

/-- Names stand where they first came up, also if the stored value depends on what is stored already. -/
theorem keys_foldl_put {d : Dictionary α} (h : d.keys.Nodup) (items : List β) :
    (items.foldl (fun d item => d.put (name item) (value d item)) d).keys =
      (d.keys ++ items.map name).eraseDups := by
  induction items generalizing d with
  | nil => simpa using (eraseDups_eq_self h).symm
  | cons item rest ih =>
      rw [List.foldl_cons, ih (nodup_keys_put h (name item) (value d item)), List.map_cons]
      by_cases hmem : name item ∈ d.keys
      · rw [keys_put_of_mem d _ hmem, eraseDups_append_cons_of_mem hmem]
      · rw [keys_put_of_not_mem d _ hmem, List.append_assoc, List.singleton_append]

end Folds

/-- The names of a list of pairs, without repetitions. -/
theorem keys_ofPairs (entries : List (String × α)) :
    (ofPairs entries).keys = (entries.map Prod.fst).eraseDups :=
  keys_foldl_put Prod.fst (fun _ entry => entry.2) (show (keys ([] : Dictionary α)).Nodup from
    List.nodup_nil) entries

/-- The first of the items with a name is found, since the entries stand in the order of the items. -/
theorem get?_map_pairs (name : β → String) (value : β → α) (items : List β) (wanted : String) :
    get? (items.map fun item => (name item, value item)) wanted =
      (items.find? fun item => name item = wanted).map value := by
  induction items with
  | nil => rfl
  | cons item rest ih =>
      by_cases hname : name item = wanted
      · rw [List.map_cons, hname, get?_cons_self, List.find?_cons_of_pos (by simpa using hname)]
        rfl
      · rw [List.map_cons, get?_cons_of_ne _ _ (Ne.symm hname), ih,
          List.find?_cons_of_neg (by simpa using hname)]

/-- Of the entries of a name the last one is found. -/
theorem get?_ofPairs_map (name : β → String) (value : β → α) (items : List β) (wanted : String) :
    (ofPairs (items.map fun item => (name item, value item))).get? wanted =
      (items.findRev? fun item => name item = wanted).map value := by
  -- Storing overwrites, so the last entry of a name is the first one when they are read from behind.
  rw [ofPairs, get?_putAll, get?_nil, Option.or_none, ← List.map_reverse, get?_map_pairs,
    List.findRev?_eq_find?_reverse]

/-! ### Entries that may be left out -/

theorem get?_cons_eq (rest : Dictionary α) (key : String) (value : α) (name : String) :
    get? ((key, value) :: rest) name = if name = key then some value else rest.get? name := by
  by_cases hname : name = key
  · rw [if_pos hname, hname, get?_cons_self]
  · rw [if_neg hname, get?_cons_of_ne rest value hname]

/-- An entry that is there only if there is something to store. -/
theorem get?_optional (key : String) (value : β → α) (found : Option β) (name : String) :
    get? (found.map fun x => (key, value x)).toList name = if name = key then found.map value else none := by
  cases found with
  | none => simp
  | some x => exact get?_cons_eq [] key (value x) name

/-- An entry that is there only if it is marked. -/
theorem get?_marked (key : String) (value : α) (marked : Bool) (name : String) :
    get? (if marked then [(key, value)] else []) name =
      if name = key ∧ marked then some value else none := by
  cases marked with
  | false => simp
  | true => simpa using get?_cons_eq [] key value name

end Dictionary

/-!
## Payloads up to the order of fields

Two objects are alike when the same names have fields in both and fields of one name are alike, in whatever order
they were written; lists are alike item by item.  Everything else is alike only if it is equal.
-/

namespace Payload

/-- The payloads are equal up to the order of the fields of objects. -/
inductive Alike : Payload → Payload → Prop
  | refl (payload : Payload) : Alike payload payload
  | list {items others : List Payload} (h : List.Forall₂ Alike items others) :
      Alike (.list items) (.list others)
  | object {fields others : List (String × Payload)}
      (h : ∀ name, Option.Rel Alike (fields.lookup name) (others.lookup name)) :
      Alike (.object fields) (.object others)

variable {first second : Payload}

/-- Objects that are alike answer every look-up alike. -/
theorem Alike.field? (h : Alike first second) (name : String) :
    Option.Rel Alike (first.field? name) (second.field? name) := by
  cases h with
  | refl =>
      cases first.field? name with
      | none => exact .none
      | some value => exact .some (.refl value)
  | list h => exact .none
  | object h => exact h name

@[simp] theorem alike_text {value other : String} : Alike (.text value) (.text other) ↔ value = other := by
  constructor
  · rintro ⟨⟩
    rfl
  · rintro rfl
    exact .refl _

@[simp] theorem alike_list {items others : List Payload} :
    Alike (.list items) (.list others) ↔ List.Forall₂ Alike items others := by
  constructor
  · intro h
    cases h with
    | refl => exact List.forall₂_same.2 fun item _ => .refl item
    | list h => exact h
  · exact .list

@[simp] theorem alike_ofText? {value other : Option String} :
    Alike (.ofText? value) (.ofText? other) ↔ value = other := by
  constructor
  · intro h
    cases value <;> cases other <;> cases h <;> rfl
  · rintro rfl
    exact .refl _

/-- Texts in a field that may be left out. -/
theorem rel_map_text {α : Type} {text : α → String} (htext : Function.Injective text) {value other : Option α} :
    Option.Rel Alike (value.map fun x => .text (text x)) (other.map fun x => .text (text x)) ↔
      value = other := by
  cases value <;> cases other <;> simp [htext.eq_iff]

/-- Objects whose fields have the same names in the same order are alike field by field. -/
theorem Alike.forall₂ {fields others : Dictionary Payload} (h : Alike (.object fields) (.object others))
    (hkeys : fields.keys = others.keys) (hnodup : fields.keys.Nodup) :
    List.Forall₂ (fun entry other => Alike entry.2 other.2) fields others := by
  have hfields (name : String) : Option.Rel Alike (fields.get? name) (others.get? name) := h.field? name
  clear h
  -- The first names agree and come up nowhere else, so the first values are the fields of that name in both.
  induction fields generalizing others with
  | nil =>
      obtain rfl : others = [] := List.map_eq_nil_iff.1 hkeys.symm
      exact .nil
  | cons entry rest ih =>
      cases others with
      | nil => cases hkeys
      | cons other others =>
          obtain ⟨name, value⟩ := entry
          obtain ⟨key, held⟩ := other
          obtain ⟨rfl, hrest⟩ : name = key ∧ Dictionary.keys rest = Dictionary.keys others :=
            List.cons.inj hkeys
          obtain ⟨habsent, hdistinct⟩ := List.nodup_cons.1 hnodup
          have hvalue := hfields name
          rw [Dictionary.get?_cons_self, Dictionary.get?_cons_self, Option.rel_some_some] at hvalue
          refine .cons hvalue (ih hrest hdistinct fun wanted => ?_)
          by_cases hwanted : wanted = name
          · rw [hwanted, (Dictionary.get?_eq_none_iff rest name).2 habsent,
              (Dictionary.get?_eq_none_iff others name).2 (hrest ▸ habsent)]
            exact .none
          · have hothers := hfields wanted
            rwa [Dictionary.get?_cons_of_ne rest value hwanted,
              Dictionary.get?_cons_of_ne others held hwanted] at hothers

end Payload

end Appraisal
