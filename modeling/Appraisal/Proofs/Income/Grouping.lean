import Appraisal.Income.FlatRecord
import Appraisal.Income.Stream
import Appraisal.Proofs.Decimal.Exact
import Appraisal.Proofs.Decimal.Value
import Appraisal.Proofs.Dictionary
import Appraisal.Proofs.Fallible
import Mathlib.Data.List.Forall2

/-!
# Line items by group and by label

Items are collected under the name of their group, or stored under their label.  In both cases names stand where they
came up first.
-/

namespace Appraisal

/-!
## Grouping is a stable partition

The groups stand in the order of their first items, and a group holds its items in their order.  So every item
stands in one group once, listing the groups one after the other and grouping again changes nothing, and the
streams made of the groups have the rows of their items.  As long as nothing is rounded, no money is lost or won by
adding the amounts group by group.
-/

namespace Income

variable {items : List LineItem} {groups : Dictionary (List LineItem)} {item : LineItem}

/-- The items of a group, in order. -/
def inGroup (items : List LineItem) (name : String) : List LineItem :=
  items.filter fun item => groupOf item = name

theorem mem_inGroup {name : String} : item ∈ inGroup items name ↔ item ∈ items ∧ groupOf item = name := by
  simp [inGroup]

/-! ### Groups -/

theorem nodup_keys_grouped (items : List LineItem) : (grouped items).keys.Nodup :=
  Dictionary.nodup_keys_foldl_put groupOf _ (show (Dictionary.keys ([] : Dictionary (List LineItem))).Nodup
    from List.nodup_nil) items

/-- The names of the groups are in first-seen order. -/
theorem keys_grouped (items : List LineItem) :
    (grouped items).keys = (items.map groupOf).eraseDups :=
  Dictionary.keys_foldl_put groupOf _ (show (Dictionary.keys ([] : Dictionary (List LineItem))).Nodup
    from List.nodup_nil) items

theorem getD_get?_addToGroup (groups : Dictionary (List LineItem)) (item : LineItem) (name : String) :
    ((addToGroup groups item).get? name).getD [] =
      (groups.get? name).getD [] ++ inGroup [item] name := by
  unfold addToGroup
  by_cases hname : groupOf item = name
  · rw [hname, Dictionary.get?_put_self]
    simp [inGroup, hname]
  · rw [Dictionary.get?_put_of_ne _ _ (Ne.symm hname)]
    simp [inGroup, hname]

/-- A group after the fold is the group before it, followed by the items of that name in their order. -/
theorem getD_get?_foldl_addToGroup (groups : Dictionary (List LineItem)) (items : List LineItem)
    (name : String) :
    ((items.foldl addToGroup groups).get? name).getD [] =
      (groups.get? name).getD [] ++ inGroup items name := by
  induction items generalizing groups with
  | nil => simp [inGroup]
  | cons item rest ih =>
      have hsplit : inGroup (item :: rest) name = inGroup [item] name ++ inGroup rest name :=
        List.filter_append [item] rest
      rw [List.foldl_cons, ih, getD_get?_addToGroup, hsplit, List.append_assoc]

/-- A group holds the items of its name and no others. -/
theorem eq_inGroup_of_mem_grouped {group : String × List LineItem} (h : group ∈ grouped items) :
    group.2 = inGroup items group.1 := by
  have hfound := Dictionary.get?_of_mem (nodup_keys_grouped items) h
  have hlookup := getD_get?_foldl_addToGroup [] items group.1
  change ((grouped items).get? group.1).getD [] = _ at hlookup
  rw [hfound] at hlookup
  exact hlookup

/-! ### Nothing is lost and nothing comes twice -/

/-- An item that is put into its group comes behind all others, up to the order of the groups. -/
theorem flatMap_put_perm (groups : Dictionary (List LineItem)) (name : String) (item : LineItem) :
    ((groups.put name ((groups.get? name).getD [] ++ [item])).flatMap Prod.snd).Perm
      (groups.flatMap Prod.snd ++ [item]) := by
  induction groups with
  | nil => exact .refl _
  | cons group rest ih =>
      obtain ⟨key, held⟩ := group
      unfold Dictionary.put
      -- The item goes to the end of its group, past the groups behind it.
      by_cases hkey : key = name
      · rw [if_pos hkey, ← hkey, Dictionary.get?_cons_self, List.flatMap_cons, List.flatMap_cons,
          Option.getD_some, List.append_assoc, List.append_assoc]
        exact List.perm_append_comm.append_left held
      · rw [if_neg hkey, Dictionary.get?_cons_of_ne _ _ (Ne.symm hkey), List.flatMap_cons,
          List.flatMap_cons, List.append_assoc]
        exact ih.append_left held

theorem flatMap_foldl_addToGroup_perm (groups : Dictionary (List LineItem)) (items : List LineItem) :
    ((items.foldl addToGroup groups).flatMap Prod.snd).Perm (groups.flatMap Prod.snd ++ items) := by
  induction items generalizing groups with
  | nil => simp
  | cons item rest ih =>
      have hitem := (flatMap_put_perm groups (groupOf item) item).append_right rest
      rw [List.append_assoc, List.singleton_append] at hitem
      exact (ih (addToGroup groups item)).trans hitem

/-- No item is lost and none is counted twice. -/
theorem flatMap_grouped_perm (items : List LineItem) :
    ((grouped items).flatMap Prod.snd).Perm items :=
  flatMap_foldl_addToGroup_perm [] items

/-! ### Grouping again -/

/-- Groups of which no two have one name, each with some items that all belong to it. -/
structure WellGrouped (groups : Dictionary (List LineItem)) : Prop where
  distinct : groups.keys.Nodup
  nonempty : ∀ group ∈ groups, group.2 ≠ []
  belongs : ∀ group ∈ groups, ∀ item ∈ group.2, groupOf item = group.1

theorem wellGrouped_grouped (items : List LineItem) : WellGrouped (grouped items) := by
  refine ⟨nodup_keys_grouped items, fun group hgroup => ?_, fun group hgroup item hitem => ?_⟩
  · have hname : group.1 ∈ (items.map groupOf).eraseDups :=
      keys_grouped items ▸ List.mem_map_of_mem (f := Prod.fst) hgroup
    obtain ⟨item, hitem, hgroupOf⟩ := List.mem_map.1 (List.mem_eraseDups.1 hname)
    rw [eq_inGroup_of_mem_grouped hgroup]
    exact List.ne_nil_of_mem (mem_inGroup.2 ⟨hitem, hgroupOf⟩)
  · rw [eq_inGroup_of_mem_grouped hgroup] at hitem
    exact (mem_inGroup.1 hitem).2

theorem put_append_singleton {name : String} (h : name ∉ groups.keys)
    (held value : List LineItem) :
    Dictionary.put (groups ++ [(name, held)]) name value = groups ++ [(name, value)] := by
  induction groups with
  | nil => simp [Dictionary.put]
  | cons group rest ih =>
      simp only [Dictionary.keys, List.map_cons, List.mem_cons, not_or] at h
      rw [List.cons_append, Dictionary.put, if_neg (Ne.symm h.1), ih h.2, List.cons_append]

/-- Further items of the last group all go there. -/
theorem foldl_addToGroup_last {name : String} (hname : name ∉ groups.keys) {more : List LineItem}
    (hmore : ∀ item ∈ more, groupOf item = name) (held : List LineItem) :
    more.foldl addToGroup (groups ++ [(name, held)]) = groups ++ [(name, held ++ more)] := by
  -- The group that is open last takes item by item; no group before it has the name.
  induction more generalizing held with
  | nil => simp
  | cons item rest ih =>
      rw [List.forall_mem_cons] at hmore
      have hheld : Dictionary.get? (groups ++ [(name, held)]) name = some held := by
        rw [Dictionary.get?_append, (Dictionary.get?_eq_none_iff _ _).2 hname,
          Dictionary.get?_cons_self]
        rfl
      have hstep : addToGroup (groups ++ [(name, held)]) item =
          groups ++ [(name, held ++ [item])] := by
        unfold addToGroup
        rw [hmore.1, hheld, Option.getD_some, put_append_singleton hname]
      rw [List.foldl_cons, hstep, ih hmore.2, List.append_assoc, List.singleton_append]

/-- The items of a new group open it behind all others. -/
theorem foldl_addToGroup_new {group : String × List LineItem} (hname : group.1 ∉ groups.keys)
    (hne : group.2 ≠ []) (hgroup : ∀ item ∈ group.2, groupOf item = group.1) :
    group.2.foldl addToGroup groups = groups ++ [group] := by
  obtain ⟨name, members⟩ := group
  cases members with
  | nil => exact absurd rfl hne
  | cons item rest =>
      rw [List.forall_mem_cons] at hgroup
      have hfirst : addToGroup groups item = groups ++ [(name, [item])] := by
        unfold addToGroup
        rw [hgroup.1, (Dictionary.get?_eq_none_iff _ _).2 hname, Dictionary.put_of_not_mem _ _ hname]
        rfl
      rw [List.foldl_cons, hfirst, foldl_addToGroup_last hname hgroup.2, List.singleton_append]

/-- Items that come group by group fill one group after the other, and never an earlier one. -/
theorem foldl_addToGroup_flatMap (before : Dictionary (List LineItem))
    {after : Dictionary (List LineItem)} (h : WellGrouped (before ++ after)) :
    (after.flatMap Prod.snd).foldl addToGroup before = before ++ after := by
  induction after generalizing before with
  | nil => simp
  | cons group rest ih =>
      -- The group is opened by its first item, because its name has not come up before.
      have hfresh : group.1 ∉ before.keys := by
        have hdistinct := h.distinct
        rw [Dictionary.keys, List.map_append, List.nodup_append] at hdistinct
        exact fun hmem => hdistinct.2.2 _ hmem _ (List.mem_cons_self ..) rfl
      have hmem : group ∈ before ++ group :: rest := by simp
      have hopened := foldl_addToGroup_new hfresh (h.nonempty group hmem) (h.belongs group hmem)
      have hrest : before ++ group :: rest = (before ++ [group]) ++ rest := by simp
      rw [List.flatMap_cons, List.foldl_append, hopened, hrest]
      exact ih (before ++ [group]) (hrest ▸ h)

/-- Listing well-made groups one after the other and grouping the items again gives the same groups. -/
theorem grouped_flatMap (h : WellGrouped groups) : grouped (groups.flatMap Prod.snd) = groups :=
  foldl_addToGroup_flatMap [] h

/-! ### Rows -/

/-- The row has what the item says. -/
structure RevenueRow.Keeps (row : RevenueRow) (item : LineItem) : Prop where
  id : row.id = item.id
  label : row.unit = item.label
  amount : row.annualIncome = item.amount
  notes : row.tenantName = item.notes
  source : row.source = some item.source

theorem keeps_of_rowOf {row : RevenueRow} (h : rowOf item = .ok row) : row.Keeps item := by
  obtain ⟨monthlyRate, -, h⟩ := bind_eq_ok.1 h
  obtain rfl := pure_eq_ok.1 h
  exact ⟨rfl, rfl, rfl, rfl, rfl⟩

theorem annualIncomes_of_keeps {rows : List RevenueRow}
    (h : List.Forall₂ (fun item row => row.Keeps item) items rows) :
    rows.map RevenueRow.annualIncome = items.map LineItem.amount := by
  induction h with
  | nil => rfl
  | cons hrow _ ih => rw [List.map_cons, List.map_cons, hrow.amount, ih]

/-! ### Streams -/

variable {found : List RevenueStream} {stream : RevenueStream}

/-- The stream shows a group and its items, and nothing has been taken off their sum. -/
structure RevenueStream.Shows (stream : RevenueStream) (group : String × List LineItem) : Prop where
  name : stream.name = group.1
  id : stream.id = "stream-" ++ slug group.1
  rows : List.Forall₂ (fun item row => row.Keeps item) group.2 stream.rows
  gross : Decimal.sum (stream.rows.map RevenueRow.annualIncome) = .ok stream.totals.grossRevenue
  effective : stream.totals.effectiveRevenue = stream.totals.grossRevenue

theorem shows_of_groupStream {group : String × List LineItem} (h : groupStream group = .ok stream) :
    stream.Shows group := by
  obtain ⟨rows, hrows, h⟩ := bind_eq_ok.1 h
  obtain ⟨revenue, hrevenue, h⟩ := bind_eq_ok.1 h
  obtain rfl := pure_eq_ok.1 h
  exact ⟨rfl, rfl, (mapM_eq_ok_iff.1 hrows).imp fun _ _ => keeps_of_rowOf, hrevenue, rfl⟩

theorem shows_of_streams (h : streams items = .ok found) :
    List.Forall₂ (fun group stream => stream.Shows group) (grouped items) found :=
  (mapM_eq_ok_iff.1 h).imp fun _ _ => shows_of_groupStream

theorem names_of_shows (h : List.Forall₂ (fun group stream => stream.Shows group) groups found) :
    found.map RevenueStream.name = groups.keys := by
  induction h with
  | nil => rfl
  | cons hstream _ ih =>
      rw [List.map_cons, hstream.name, ih]
      rfl

theorem names_of_streams (h : streams items = .ok found) :
    found.map RevenueStream.name = (items.map groupOf).eraseDups := by
  rw [names_of_shows (shows_of_streams h), keys_grouped]

theorem nodup_names_of_streams (h : streams items = .ok found) :
    (found.map RevenueStream.name).Nodup := by
  rw [names_of_shows (shows_of_streams h)]
  exact nodup_keys_grouped items

/-- A stream of the result shows the items of its group. -/
theorem shows_inGroup_of_streams (h : streams items = .ok found) (hstream : stream ∈ found) :
    stream.Shows (stream.name, inGroup items stream.name) := by
  obtain ⟨group, hgroup, hshows⟩ := exists_of_mem_right (shows_of_streams h) hstream
  rwa [hshows.name, ← eq_inGroup_of_mem_grouped hgroup]

/-- The items of the groups of the streams, one group after the other. -/
theorem flatMap_inGroup_eq (h : streams items = .ok found) :
    (found.flatMap fun stream => inGroup items stream.name) = (grouped items).flatMap Prod.snd := by
  have hgroups : (grouped items).flatMap Prod.snd =
      (grouped items).keys.flatMap (inGroup items) := by
    rw [Dictionary.keys, List.flatMap_map]
    exact List.flatMap_congr fun group hgroup => eq_inGroup_of_mem_grouped hgroup
  rw [hgroups, ← names_of_shows (shows_of_streams h), List.flatMap_map]

/-- The rows of all streams are the items, group by group. -/
theorem forall₂_flatMap_rows (h : List.Forall₂ (fun group stream => stream.Shows group) groups found) :
    List.Forall₂ (fun item row => row.Keeps item) (groups.flatMap Prod.snd)
      (found.flatMap RevenueStream.rows) := by
  induction h with
  | nil => exact .nil
  | cons hstream _ ih => exact List.rel_append hstream.rows ih

/-! ### Totals -/

/-- Amounts of which nothing is rounded off when they are added: whole multiples of a power of ten with at most
20 places, together less than 10^28 of it. -/
structure AddedExactly (items : List LineItem) (places : Int) : Prop where
  places_le : places ≤ 20
  multiple : ∀ item ∈ items, item.amount.MultipleOf (-places)
  moderate : (items.map fun item => |item.amount.value|).sum < 10 ^ ((28 : Int) - places)

section Totals

open Decimal (leastExponent maxExponent SumsExactly)

variable {places : Int}

theorem AddedExactly.least_le (h : AddedExactly items places) : leastExponent ≤ -places := by
  have hplaces := h.places_le
  show (-1000026 : Int) ≤ -places
  omega

/-- Some of the amounts add up exactly when all of them do. -/
theorem AddedExactly.sublist (h : AddedExactly items places) {some : List LineItem}
    (hsome : some.Sublist items) : AddedExactly some places := by
  refine ⟨h.places_le, fun item hitem => h.multiple item (hsome.subset hitem), ?_⟩
  refine (List.Sublist.sum_le_sum (hsome.map _) ?_).trans_lt h.moderate
  exact List.forall_mem_map.2 fun item _ => abs_nonneg item.amount.value

/-- The sum of all amounts is exact. -/
theorem AddedExactly.sumsExactly (h : AddedExactly items places) {total : Decimal}
    (htotal : Decimal.sum (items.map LineItem.amount) = .ok total) :
    SumsExactly (-places) (items.map LineItem.amount) total := by
  refine Decimal.sumsExactly_sum (List.forall_mem_map.2 h.multiple) h.least_le ?_ htotal
  rw [List.map_map]
  exact h.moderate

/-- What is added up group by group is added up over all items. -/
theorem sum_inGroup (h : streams items = .ok found) (amount : LineItem → ℚ) :
    (found.map fun stream => ((inGroup items stream.name).map amount).sum).sum =
      (items.map amount).sum := by
  have hall : (found.map fun stream => ((inGroup items stream.name).map amount).sum).sum =
      ((found.flatMap fun stream => inGroup items stream.name).map amount).sum := by
    rw [List.map_flatMap, List.flatMap_def, List.sum_flatten, List.map_map]
    rfl
  rw [hall, flatMap_inGroup_eq h]
  exact ((flatMap_grouped_perm items).map amount).sum_eq

/-- The gross revenue of a stream is what the amounts of its group are together. -/
theorem sumsExactly_of_streams (h : streams items = .ok found) (hexact : AddedExactly items places)
    (hstream : stream ∈ found) :
    SumsExactly (-places) ((inGroup items stream.name).map LineItem.amount)
      stream.totals.grossRevenue := by
  have hshows := shows_inGroup_of_streams h hstream
  have hgross := hshows.gross
  rw [annualIncomes_of_keeps hshows.rows] at hgross
  exact (hexact.sublist List.filter_sublist).sumsExactly hgross

/-- The streams hold the money of the items, in exact numbers. -/
theorem sum_gross_of_streams (h : streams items = .ok found) (hexact : AddedExactly items places) :
    (found.map fun stream => stream.totals.grossRevenue.value).sum =
      (items.map fun item => item.amount.value).sum := by
  rw [← sum_inGroup h]
  refine congrArg _ (List.map_congr_left fun stream hstream => ?_)
  rw [(sumsExactly_of_streams h hexact hstream).2, List.map_map]
  rfl

/-- Amounts of opposite signs can only cancel within a stream, so the totals keep to the bound for the items.
-/
theorem sum_abs_gross_le (h : streams items = .ok found) (hexact : AddedExactly items places) :
    (found.map fun stream => |stream.totals.grossRevenue.value|).sum ≤
      (items.map fun item => |item.amount.value|).sum := by
  rw [← sum_inGroup h]
  refine List.sum_le_sum fun stream hstream => ?_
  rw [(sumsExactly_of_streams h hexact hstream).2, List.map_map]
  have htriangle := Decimal.abs_sum_le ((inGroup items stream.name).map fun item => item.amount.value)
  rwa [List.map_map] at htriangle

theorem AddedExactly.exists_sum (h : AddedExactly items places)
    (hrange : (items.map fun item => |item.amount.value|).sum < 10 ^ maxExponent) :
    ∃ all, Decimal.sum (items.map LineItem.amount) = .ok all ∧
      SumsExactly (-places) (items.map LineItem.amount) all := by
  refine Decimal.exists_sum_exact (List.forall_mem_map.2 h.multiple) h.least_le ?_ ?_ <;>
    rw [List.map_map]
  · exact h.moderate
  · exact hrange

/-- The totals of the streams add up exactly as well, by the same bound. -/
theorem exists_sum_gross (h : streams items = .ok found) (hexact : AddedExactly items places)
    (hrange : (items.map fun item => |item.amount.value|).sum < 10 ^ maxExponent) :
    ∃ total, Decimal.sum (found.map fun stream => stream.totals.grossRevenue) = .ok total ∧
      SumsExactly (-places) (found.map fun stream => stream.totals.grossRevenue) total := by
  have hmultiple : ∀ stream ∈ found, stream.totals.grossRevenue.MultipleOf (-places) :=
    fun _ hstream => (sumsExactly_of_streams h hexact hstream).1
  refine Decimal.exists_sum_exact (List.forall_mem_map.2 hmultiple) hexact.least_le ?_ ?_ <;>
    rw [List.map_map] <;> refine (sum_abs_gross_le h hexact).trans_lt ?_
  · exact hexact.moderate
  · exact hrange

/-- Adding the gross revenues comes to the same as adding the amounts, unless the numbers leave the range of
exponents. -/
theorem exists_totals_of_streams (h : streams items = .ok found) (hexact : AddedExactly items places)
    (hrange : (items.map fun item => |item.amount.value|).sum < 10 ^ maxExponent) :
    ∃ total all, Decimal.sum (found.map fun stream => stream.totals.grossRevenue) = .ok total ∧
      Decimal.sum (items.map LineItem.amount) = .ok all ∧ total.compare? all = some .eq := by
  obtain ⟨total, htotal, hmultiple, htotalValue⟩ := exists_sum_gross h hexact hrange
  obtain ⟨all, hall, hallMultiple, hallValue⟩ := hexact.exists_sum hrange
  refine ⟨total, all, htotal, hall, ?_⟩
  have hvalue : total.value = all.value := by
    rw [htotalValue, hallValue, List.map_map, List.map_map]
    exact sum_gross_of_streams h hexact
  rw [Decimal.compare?_eq hmultiple.1 hallMultiple.1, hvalue, compare_eq_iff_eq.2 rfl]

end Totals

/-! ### The partition -/

/-- The streams are a stable partition of the items. -/
structure Partitions (items : List LineItem) (found : List RevenueStream) : Prop where
  names : found.map RevenueStream.name = (items.map groupOf).eraseDups
  distinct : (found.map RevenueStream.name).Nodup
  rows : ∀ stream ∈ found,
    List.Forall₂ (fun item row => row.Keeps item) (inGroup items stream.name) stream.rows
  /-- Every item gives one row. -/
  once : ∃ rows, List.Forall₂ (fun item row => row.Keeps item) items rows ∧
    (found.flatMap RevenueStream.rows).Perm rows
  totals : ∀ stream ∈ found,
    Decimal.sum (stream.rows.map RevenueRow.annualIncome) = .ok stream.totals.grossRevenue ∧
      Decimal.sum (stream.rows.map RevenueRow.annualIncome) = .ok stream.totals.effectiveRevenue
  /-- Grouping the items again, listed in the order of the streams, gives the same streams. -/
  again : streams (found.flatMap fun stream => inGroup items stream.name) = .ok found

/-- Every item gives one row, wherever its group stands. -/
theorem exists_rows_of_streams (h : streams items = .ok found) :
    ∃ rows, List.Forall₂ (fun item row => row.Keeps item) items rows ∧
      (found.flatMap RevenueStream.rows).Perm rows := by
  obtain ⟨rows, hrows, hperm⟩ := List.perm_comp_forall₂ (flatMap_grouped_perm items).symm
    (forall₂_flatMap_rows (shows_of_streams h))
  exact ⟨rows, hrows, hperm.symm⟩

/-- Listing the groups one behind the other and grouping anew changes nothing. -/
theorem streams_again (h : streams items = .ok found) :
    streams (found.flatMap fun stream => inGroup items stream.name) = .ok found := by
  rw [flatMap_inGroup_eq h, streams, grouped_flatMap (wellGrouped_grouped items)]
  exact h

/-- The streams of some line items are a stable partition of them.  When nothing is rounded the gross revenues are
together what the amounts are, and adding the former comes to the same as adding the latter. -/
theorem streams_partition (h : streams items = .ok found) :
    Partitions items found ∧ ∀ places, AddedExactly items places →
      (found.map fun stream => stream.totals.grossRevenue.value).sum =
          (items.map fun item => item.amount.value).sum ∧
        ((items.map fun item => |item.amount.value|).sum < 10 ^ Decimal.maxExponent →
          ∃ total all, Decimal.sum (found.map fun stream => stream.totals.grossRevenue) = .ok total ∧
            Decimal.sum (items.map LineItem.amount) = .ok all ∧ total.compare? all = some .eq) := by
  constructor
  · refine ⟨names_of_streams h, nodup_names_of_streams h, fun stream hstream => ?_,
      exists_rows_of_streams h, fun stream hstream => ?_, streams_again h⟩
    · exact (shows_inGroup_of_streams h hstream).rows
    · have hshows := shows_inGroup_of_streams h hstream
      exact ⟨hshows.gross, hshows.effective ▸ hshows.gross⟩
  · intro places hexact
    exact ⟨sum_gross_of_streams h hexact, exists_totals_of_streams h hexact⟩

/-- A line of revenue of a group. -/
def groupLine (id : String) (category : Option String) (amount : Decimal) : LineItem :=
  { id, label := id, amount, source := .plain "" .userInput (.ofKey? (some id)) ("userInput." ++ id)
    category, notes := some id, flaggedForReview := false }

/-- Two groups whose items are mixed; the second is named once, left out once and empty once. -/
def mixedLines : List LineItem :=
  [groupLine "suite" (some "Office") (.finite false 100050 (-2)), groupLine "laundry" none (.ofInt 12),
    groupLine "kiosk" (some "Office") (.finite false 12 2), groupLine "vending" (some "") (.finite false 325 (-2)),
    groupLine "sign" (some "Miscellaneous") (.ofInt (-7))]

/-- The amounts of the example have two places at most, in whatever form they are written. -/
theorem addedExactly_mixedLines : AddedExactly mixedLines 2 := by
  have hsuite : (Decimal.finite false 100050 (-2)).value = 100050 / 100 := by
    norm_num [Decimal.value, Decimal.signed]
  have hkiosk : (Decimal.finite false 12 2).value = 1200 := by
    norm_num [Decimal.value, Decimal.signed]
  have hvending : (Decimal.finite false 325 (-2)).value = 325 / 100 := by
    norm_num [Decimal.value, Decimal.signed]
  refine ⟨by decide, ?_, ?_⟩
  · simp only [mixedLines, groupLine, List.forall_mem_cons]
    exact ⟨⟨rfl, 100050, by rw [hsuite]; norm_num⟩, ⟨rfl, 1200, by rw [Decimal.value_ofInt]; norm_num⟩,
      ⟨rfl, 120000, by rw [hkiosk]; norm_num⟩, ⟨rfl, 325, by rw [hvending]; norm_num⟩,
      ⟨rfl, -700, by rw [Decimal.value_ofInt]; norm_num⟩, by simp⟩
  · simp only [mixedLines, groupLine, List.map_cons, List.map_nil, List.sum_cons, List.sum_nil, hsuite,
      hkiosk, hvending, Decimal.value_ofInt]
    norm_num

/-- The mixed lines make two streams, of two rows and of three, with 2208.75 together. -/
theorem streams_partition_mixedLines :
    ∃ found, streams mixedLines = .ok found ∧ Partitions mixedLines found ∧
      found.map RevenueStream.name = ["Office", "Miscellaneous"] ∧
      found.map (fun stream => stream.rows.map RevenueRow.id) =
        [["suite", "kiosk"], ["laundry", "vending", "sign"]] ∧
      (found.map fun stream => stream.totals.grossRevenue.value).sum = 220875 / 100 ∧
      ∃ total all, Decimal.sum (found.map fun stream => stream.totals.grossRevenue) = .ok total ∧
        Decimal.sum (mixedLines.map LineItem.amount) = .ok all ∧ total.compare? all = some .eq := by
  have hfound : (streams mixedLines).toOption.map
      (fun found => found.map fun stream => stream.rows.map RevenueRow.id) =
        some [["suite", "kiosk"], ["laundry", "vending", "sign"]] := by decide +kernel
  obtain ⟨found, hstreams, hrows⟩ := map_toOption_eq_some.1 hfound
  obtain ⟨hpartition, htotals⟩ := streams_partition hstreams
  have hrange := addedExactly_mixedLines.moderate.trans
    (zpow_lt_zpow_right₀ (by norm_num) (show (28 : Int) - 2 < Decimal.maxExponent by decide))
  refine ⟨found, hstreams, hpartition, ?_, hrows, ?_, (htotals 2 addedExactly_mixedLines).2 hrange⟩
  · rw [hpartition.names]
    decide
  · rw [(htotals 2 addedExactly_mixedLines).1]
    norm_num [mixedLines, groupLine, Decimal.value, Decimal.signed, Decimal.ofInt]

end Income

/-!
## Flat records keep amounts with their sources

The two maps of a list of line items are made by storing the items one after the other, so both have the labels in
first-seen order, and under a label both have what the last item of that label says.  The amount and the source
found under a label therefore belong to one item, and to an item of that list.
-/

namespace FlatRecord

variable {items : List LineItem} {label : String} {item : LineItem}

/-- The item is the last one with the label. -/
def LastLabelled (items : List LineItem) (label : String) (item : LineItem) : Prop :=
  ∃ before after, items = before ++ item :: after ∧ item.label = label ∧
    ∀ other ∈ after, other.label ≠ label

theorem findRev?_label_eq_some_iff :
    (items.findRev? fun item => item.label = label) = some item ↔ LastLabelled items label item := by
  -- The last item with the label is the first one from behind.
  rw [List.findRev?_eq_find?_reverse, List.find?_eq_some_iff_append]
  constructor
  · rintro ⟨hlabel, later, earlier, hsplit, hlater⟩
    refine ⟨earlier.reverse, later.reverse, ?_, by simpa using hlabel, fun other hother => ?_⟩
    · rw [← List.reverse_reverse items, hsplit]
      simp
    · simpa using hlater other (List.mem_reverse.1 hother)
  · rintro ⟨before, after, rfl, hlabel, hafter⟩
    refine ⟨by simpa using hlabel, after.reverse, before.reverse, by simp, fun other hother => ?_⟩
    simpa using hafter other (List.mem_reverse.1 hother)

theorem exists_lastLabelled (h : label ∈ items.map LineItem.label) : ∃ item, LastLabelled items label item := by
  obtain ⟨held, hmem, hlabel⟩ := List.mem_map.1 h
  simp only [← findRev?_label_eq_some_iff, List.findRev?_eq_find?_reverse]
  exact Option.isSome_iff_exists.1 (List.find?_isSome.2 ⟨held, by simpa using hmem, by simpa using hlabel⟩)

/-- The maps of amounts and of sources that a list of line items is flattened to. -/
structure Flattens (items : List LineItem) (amounts : Dictionary Decimal)
    (sources : Dictionary SourceReference) : Prop where
  amountLabels : amounts.keys = (items.map LineItem.label).eraseDups
  sourceLabels : sources.keys = (items.map LineItem.label).eraseDups
  last : ∀ label ∈ amounts.keys, ∃ item, LastLabelled items label item ∧
    amounts.get? label = some item.amount ∧ sources.get? label = some item.source

/-- The amount under a label is that of the last item with the label. -/
theorem get?_amounts (h : LastLabelled items label item) :
    (amounts items).get? label = some item.amount := by
  rw [amounts, Dictionary.get?_ofPairs_map, findRev?_label_eq_some_iff.2 h, Option.map_some]

theorem get?_sourcesOf (h : LastLabelled items label item) :
    (sourcesOf items).get? label = some item.source := by
  rw [sourcesOf, Dictionary.get?_ofPairs_map, findRev?_label_eq_some_iff.2 h, Option.map_some]

/-- Labels stand where they came up first, although amounts are replaced later. -/
theorem keys_amounts (items : List LineItem) :
    (amounts items).keys = (items.map LineItem.label).eraseDups := by
  rw [amounts, Dictionary.keys_ofPairs, List.map_map]
  rfl

theorem keys_sourcesOf (items : List LineItem) :
    (sourcesOf items).keys = (items.map LineItem.label).eraseDups := by
  rw [sourcesOf, Dictionary.keys_ofPairs, List.map_map]
  rfl

theorem flattens_amounts_sourcesOf (items : List LineItem) :
    Flattens items (amounts items) (sourcesOf items) := by
  refine ⟨keys_amounts items, keys_sourcesOf items, fun label hlabel => ?_⟩
  rw [keys_amounts, List.mem_eraseDups] at hlabel
  obtain ⟨item, hlast⟩ := exists_lastLabelled hlabel
  exact ⟨item, hlast, get?_amounts hlast, get?_sourcesOf hlast⟩

/-- Every section of the flat record of a model flattens the items of that section, and no other. -/
theorem ofModel_flattens (model : FinancialModel) :
    ∃ revenue expenses adjustments,
      (ofModel model).sources =
        [("revenue", revenue), ("expenses", expenses), ("adjustments", adjustments)] ∧
      Flattens model.userInput.revenueItems (ofModel model).revenue revenue ∧
      Flattens model.userInput.expenseItems (ofModel model).expenses expenses ∧
      Flattens model.userInput.adjustmentItems (ofModel model).adjustments adjustments :=
  ⟨_, _, _, rfl, flattens_amounts_sourcesOf _, flattens_amounts_sourcesOf _, flattens_amounts_sourcesOf _⟩

end FlatRecord

end Appraisal
