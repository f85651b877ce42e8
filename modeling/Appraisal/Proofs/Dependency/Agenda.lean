import Appraisal.Formula.Dependency
import Appraisal.Proofs.Dependency.FirstReady
import Mathlib.Data.List.Nodup

/-!
# What the agenda yields

The counts of an agenda tell which formulas are ready, and the sorted list of the ready formulas starts with
the first of them.  So an agenda takes the first ready formula, again and again.
-/

namespace Appraisal
namespace Agenda

open Formula (takeReady? orderFrom)

/-! ## Sorted items -/

/-- The items stand in the order of their places. -/
def Sorted (items : List Item) : Prop :=
  items.Pairwise fun first second => first.place ≤ second.place

/-- A ready formula is put at the place that its registration gives it. -/
theorem sorted_push {item : Item} {ready : List Item} (h : Sorted ready) :
    Sorted (push item ready) := by
  induction ready with
  | nil => exact List.pairwise_singleton _ _
  | cons head rest ih =>
      obtain ⟨hhead, hrest⟩ := List.pairwise_cons.1 h
      unfold push
      split
      · next hlt =>
          refine List.pairwise_cons.2 ⟨fun other hother => ?_, h⟩
          rcases List.mem_cons.1 hother with rfl | hother
          · exact hlt.le
          · exact hlt.le.trans (hhead other hother)
      -- The item goes further behind; by permutation the rest has the old items and the new one.
      · next hge =>
          refine List.pairwise_cons.2 ⟨fun other hother => ?_, ih hrest⟩
          rcases List.mem_cons.1 ((push_perm item rest).mem_iff.1 hother) with rfl | hother
          · exact Nat.le_of_not_lt hge
          · exact hhead other hother

theorem sorted_pushAll {ready : List Item} (items : List Item) (h : Sorted ready) :
    Sorted (pushAll ready items) := by
  induction items generalizing ready with
  | nil => exact h
  | cons item items ih => exact ih (sorted_push h)

/-- Items with different places can be sorted in one way only. -/
theorem eq_of_sorted {first second : List Item} (hperm : first.Perm second)
    (hplaces : (first.map Item.place).Nodup) (hfirst : Sorted first) (hsecond : Sorted second) :
    first = second := by
  refine hperm.eq_of_pairwise (fun item other hitem hother hle hge => ?_) hfirst hsecond
  exact List.inj_on_of_nodup_map hplaces hitem (hperm.mem_iff.2 hother) (Nat.le_antisymm hle hge)

/-! ## What is kept from one formula to the next -/

@[simp] theorem place_notify (id : String) (item : Item) : (item.notify id).place = item.place := by
  unfold Item.notify
  split <;> rfl

@[simp] theorem formula_notify (id : String) (item : Item) :
    (item.notify id).formula = item.formula := by
  unfold Item.notify
  split <;> rfl

/-- A formula that waits for nothing does not wait for anything less. -/
theorem notify_of_isReady (id : String) {item : Item} (h : item.isReady = true) :
    item.notify id = item := by
  have hmissing : item.missing = 0 := by simpa [Item.isReady] using h
  unfold Item.notify
  split
  · rw [hmissing]
    cases item
    simp_all
  · rfl

/-- The items that wait when some formulas are done, in the order of their places. -/
structure Tracks (ids done : List String) (waiting : List Item) : Prop where
  sorted : Sorted waiting
  places : (waiting.map Item.place).Nodup
  distinct : (waiting.map fun item => item.formula.id).Nodup
  pending : ∀ item ∈ waiting, item.formula.id ∈ ids ∧ item.formula.id ∉ done
  known : ∀ item ∈ waiting, item.formula.dependencies ⊆ ids
  /-- An item counts its dependencies that are not done. -/
  counted : ∀ item ∈ waiting, item.missing =
    ids.countP fun id => id ∈ item.formula.dependencies ∧ id ∉ done

/-- The number that an item waits for is zero exactly when all its dependencies are done. -/
theorem Tracks.isReady_eq {ids done : List String} {waiting : List Item}
    (h : Tracks ids done waiting) {item : Item} (hitem : item ∈ waiting) :
    item.isReady = Formula.isReady done item.formula := by
  rw [Bool.eq_iff_iff, Formula.isReady_iff]
  simp only [Item.isReady, beq_iff_eq, h.counted item hitem, List.countP_eq_zero, decide_eq_true_eq,
    not_and, not_not]
  exact ⟨fun hcount id hid => hcount id (h.known item hitem hid) hid,
    fun hready id _ hid => hready id hid⟩

/-- When a formula is done, those that depend on it count one dependency less. -/
theorem countP_cons_done {ids done dependencies : List String} {id : String}
    (hids : ids.Nodup) (hid : id ∈ ids) (hnew : id ∉ done) :
    ids.countP (fun other => other ∈ dependencies ∧ other ∉ id :: done) =
      if id ∈ dependencies then
        ids.countP (fun other => other ∈ dependencies ∧ other ∉ done) - 1
      else ids.countP fun other => other ∈ dependencies ∧ other ∉ done := by
  split
  · next hdependency =>
      -- Of the two counts only the second holds `id` itself; on all other identifiers they agree.
      have hothers : (ids.erase id).countP (fun other => other ∈ dependencies ∧ other ∉ id :: done) =
          (ids.erase id).countP fun other => other ∈ dependencies ∧ other ∉ done := by
        refine List.countP_congr fun other hother => ?_
        have hne : other ≠ id := ((hids.mem_erase_iff).1 hother).1
        simp [hne]
      have hperm := List.perm_cons_erase hid
      rw [hperm.countP_eq, hperm.countP_eq (fun other => other ∈ dependencies ∧ other ∉ done),
        List.countP_cons_of_neg (by simp), List.countP_cons_of_pos (by simp [hdependency, hnew]),
        hothers, Nat.add_sub_cancel]
  · next hdependency =>
      refine List.countP_congr fun other _ => ?_
      have hne : other ∈ dependencies → other ≠ id := fun hmem heq => hdependency (heq ▸ hmem)
      simp only [List.mem_cons, not_or, decide_eq_true_eq]
      tauto

/-- Taking an item and telling all others keeps the agenda in step with what is done. -/
theorem Tracks.taken {ids done : List String} {before after : List Item} {next : Item}
    (hids : ids.Nodup) (h : Tracks ids done (before ++ next :: after)) :
    Tracks ids (next.formula.id :: done)
      ((before ++ after).map (Item.notify next.formula.id)) := by
  have hsublist : (before ++ after).Sublist (before ++ next :: after) :=
    List.Sublist.append_left (List.sublist_cons_self _ _) before
  have hnext : next ∈ before ++ next :: after := by simp
  -- Only one item is the formula that is taken, so the others stay undone.
  have hother : ∀ item ∈ before ++ after, item.formula.id ≠ next.formula.id := by
    have hperm : ((before ++ next :: after).map fun item => item.formula.id).Perm
        (next.formula.id :: (before ++ after).map fun item => item.formula.id) :=
      List.perm_middle.map _
    intro item hitem heq
    have hdistinct := hperm.nodup_iff.1 h.distinct
    exact (List.nodup_cons.1 hdistinct).1 (heq ▸ List.mem_map_of_mem hitem)
  constructor
  · unfold Sorted
    rw [List.pairwise_map]
    simpa using h.sorted.sublist hsublist
  · simpa [Function.comp_def] using h.places.sublist (hsublist.map Item.place)
  · simpa [Function.comp_def] using h.distinct.sublist (hsublist.map fun item => item.formula.id)
  · intro item hitem
    obtain ⟨old, hold, rfl⟩ := List.mem_map.1 hitem
    have hpending := h.pending old (hsublist.subset hold)
    rw [formula_notify, List.mem_cons, not_or]
    exact ⟨hpending.1, hother old hold, hpending.2⟩
  · intro item hitem
    obtain ⟨old, hold, rfl⟩ := List.mem_map.1 hitem
    rw [formula_notify]
    exact h.known old (hsublist.subset hold)
  · intro item hitem
    obtain ⟨old, hold, rfl⟩ := List.mem_map.1 hitem
    obtain ⟨hregistered, hnew⟩ := h.pending next hnext
    -- What an item still waits for goes down by one exactly if the formula taken is among its dependencies.
    rw [formula_notify, countP_cons_done hids hregistered hnew,
      ← h.counted old (hsublist.subset hold)]
    unfold Item.notify
    split <;> rfl

/-! ## The run -/

/-- Telling the ready ones as well would make no difference to the blocked ones. -/
theorem filter_notify_blocked (id : String) (items : List Item) :
    (items.map (Item.notify id)).filter (fun item => !item.isReady) =
      (notifyAll id (items.filter fun item => !item.isReady)).filter fun item => !item.isReady := by
  induction items with
  | nil => rfl
  | cons item items ih =>
      by_cases hready : item.isReady = true
      · simp [hready, notify_of_isReady id hready, ih]
      · simp [hready, notifyAll, List.filter_cons] at ih ⊢
        rw [ih]

/-- Those that were ready stay so, and some of the blocked ones join them. -/
theorem filter_notify_ready (id : String) (items : List Item) :
    ((items.map (Item.notify id)).filter Item.isReady).Perm
      (items.filter Item.isReady ++
        (notifyAll id (items.filter fun item => !item.isReady)).filter Item.isReady) := by
  induction items with
  | nil => rfl
  | cons item items ih =>
      by_cases hready : item.isReady = true
      · simpa [hready, notify_of_isReady id hready] using ih
      · by_cases hfreed : (item.notify id).isReady = true
        · simpa [hready, hfreed, notifyAll] using (ih.cons (item.notify id)).trans List.perm_middle.symm
        · simpa [hready, hfreed, notifyAll] using ih

/-- The formulas that are ready next: those that were, and those that have been freed. -/
theorem queue_eq {ids done : List String} {before after : List Item} {id : String}
    (h : Tracks ids done ((before ++ after).map (Item.notify id))) (hafter : Sorted after)
    (hbefore : ∀ item ∈ before, ¬ item.isReady = true) :
    pushAll (after.filter Item.isReady)
        ((notifyAll id ((before ++ after).filter fun item => !item.isReady)).filter Item.isReady) =
      ((before ++ after).map (Item.notify id)).filter Item.isReady := by
  have hready : (before ++ after).filter Item.isReady = after.filter Item.isReady := by
    rw [List.filter_append, List.filter_eq_nil_iff.2 hbefore, List.nil_append]
  have hperm := (filter_notify_ready id (before ++ after)).trans (pushAll_perm _ _).symm
  rw [hready] at hperm
  have hsublist : (((before ++ after).map (Item.notify id)).filter Item.isReady).Sublist
      ((before ++ after).map (Item.notify id)) := List.filter_sublist
  exact (eq_of_sorted hperm (h.places.sublist (hsublist.map Item.place)) (h.sorted.sublist hsublist)
    (sorted_pushAll _ (hafter.sublist List.filter_sublist))).symm

/-- An agenda takes the first ready formula, again and again. -/
theorem run_eq_orderFrom {ids done : List String} {waiting : List Item} (hids : ids.Nodup)
    (h : Tracks ids done waiting) :
    run (waiting.filter Item.isReady) (waiting.filter fun item => !item.isReady) =
      orderFrom done (waiting.map Item.formula) := by
  -- The induction is on how many wait; taking one keeps the invariant, with one more done.
  induction hlength : waiting.length generalizing done waiting with
  | zero =>
      obtain rfl := List.eq_nil_of_length_eq_zero hlength
      rw [Formula.orderFrom_of_none rfl]
      simp [run]
  | succ length ih =>
      cases hready : waiting.filter Item.isReady with
      | nil =>
          have hnone : takeReady? done (waiting.map Item.formula) = none := by
            rw [Formula.takeReady?_eq_none_iff]
            intro formula hformula
            obtain ⟨item, hitem, rfl⟩ := List.mem_map.1 hformula
            rw [← h.isReady_eq hitem]
            simpa using List.filter_eq_nil_iff.1 hready item hitem
          rw [Formula.orderFrom_of_none hnone, run]
      | cons next ready =>
          obtain ⟨before, after, rfl, hbefore, hnext, rfl⟩ := List.filter_eq_cons_iff.1 hready
          have htake : takeReady? done ((before ++ next :: after).map Item.formula) =
              some (next.formula, (before ++ after).map Item.formula) := by
            rw [List.map_append, List.map_cons, List.map_append]
            refine Formula.takeReady?_append ?_ ?_
            · intro formula hformula
              obtain ⟨item, hitem, rfl⟩ := List.mem_map.1 hformula
              rw [← h.isReady_eq (by simp [hitem])]
              simpa using hbefore item hitem
            · rw [← h.isReady_eq (by simp), hnext]
          have hrest := ih (h.taken hids) (by simpa [← Nat.add_assoc] using hlength)
          rw [List.map_map, Function.comp_def] at hrest
          simp only [formula_notify] at hrest
          have hblocked : (before ++ next :: after).filter (fun item => !item.isReady) =
              (before ++ after).filter fun item => !item.isReady := by simp [hnext]
          rw [Formula.orderFrom_of_some htake, run, hblocked, ← hrest, filter_notify_blocked,
            queue_eq (h.taken hids) (h.sorted.sublist (by simp)) hbefore]

theorem map_formula_items (formulas : List Formula) :
    (items formulas).map Item.formula = formulas := by
  simp [items, Function.comp_def]

theorem map_place_items (formulas : List Formula) :
    (items formulas).map Item.place = List.range' 0 formulas.length := by
  simp only [items, List.map_map, Function.comp_def]
  exact List.zipIdx_map_snd 0 formulas

/-- At the start every formula counts all that it depends on. -/
theorem tracks_items {formulas : List Formula} (hdistinct : (formulas.map Formula.id).Nodup)
    (hclosed : Formula.Closed formulas) : Tracks (formulas.map Formula.id) [] (items formulas) := by
  have hmem : ∀ item ∈ items formulas, item.formula ∈ formulas := fun item hitem =>
    map_formula_items formulas ▸ List.mem_map_of_mem hitem
  -- At the start nothing is done, so every dependency of an item is still counted.
  constructor
  · rw [Sorted, ← List.pairwise_map (f := Item.place) (R := (· ≤ ·)), map_place_items]
    exact List.pairwise_le_range' 1
  · rw [map_place_items]
    exact List.nodup_range'
  · rwa [← map_formula_items formulas, List.map_map] at hdistinct
  · exact fun item hitem => ⟨List.mem_map_of_mem (hmem item hitem), List.not_mem_nil⟩
  · exact fun item hitem => hclosed item.formula (hmem item hitem)
  · intro item hitem
    obtain ⟨⟨formula, place⟩, -, rfl⟩ := List.mem_map.1 hitem
    simp [List.countP_map, Function.comp_def]

/-- An agenda puts formulas into the order in which the first ready one is taken each time. -/
theorem order_eq_orderFrom {formulas : List Formula} (hdistinct : (formulas.map Formula.id).Nodup)
    (hclosed : Formula.Closed formulas) : order formulas = orderFrom [] formulas := by
  rw [order, run_eq_orderFrom hdistinct (tracks_items hdistinct hclosed), map_formula_items]

end Agenda
end Appraisal
