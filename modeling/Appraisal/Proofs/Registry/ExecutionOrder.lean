import Appraisal.Proofs.Dependency.Agenda
import Appraisal.Proofs.Registry.Registration

/-!
# Execution orders

What the order of execution is, and how it changes when a registry grows.
-/

namespace Appraisal

/-!
## The order of execution

The order of execution names every formula once, each after its dependencies, and among all such orders it
is the first one when formulas are compared by the place of their registration.  A registrar never fails to
name it, and names the order of the formulas that it holds, whatever it remembers.
-/

namespace Registry

/-- The registered identifiers, each once and after those that its formula depends on. -/
structure IsSchedule (registry : Registry) (order : List String) : Prop where
  complete : order.Perm registry.ids
  respectful : Formula.DependenciesFirst registry.formulas order

/-- At the first place where two orders differ, the former names the formula registered earlier. -/
def Precedes (registry : Registry) : List String → List String → Prop :=
  List.Lex fun first second => registry.ids.idxOf first < registry.ids.idxOf second

/-! ### The order of a registry -/

theorem pairwise_idxOf {ids : List String} (hdistinct : ids.Nodup) :
    ids.Pairwise fun first second => ids.idxOf first < ids.idxOf second := by
  rw [List.pairwise_iff_getElem]
  intro i j hi hj hlt
  rwa [hdistinct.idxOf_getElem, hdistinct.idxOf_getElem]

theorem dependenciesOf_eq {registry : Registry} (h : registry.Consistent) :
    ∀ formula ∈ registry.formulas,
      Formula.dependenciesOf registry.formulas formula.id = formula.dependencies :=
  fun _ hmem => Formula.dependenciesOf_id h.distinct hmem

/-- What the agenda names is what comes of taking the first ready formula again and again. -/
theorem executionOrder_eq_orderFrom {registry : Registry} (h : registry.Consistent) :
    registry.executionOrder = Formula.orderFrom [] registry.formulas :=
  Agenda.order_eq_orderFrom h.distinct h.closed

theorem executionOrder_perm {registry : Registry} (h : registry.Consistent) :
    registry.executionOrder.Perm registry.formulas := by
  obtain ⟨order, hruns, hcovered⟩ := Formula.exists_runsFrom_of_findCycle?_eq_none h.closed
    ((Formula.findCycle?_eq_none_iff h.distinct h.closed).2 h.acyclic)
  rw [executionOrder_eq_orderFrom h]
  refine Formula.orderFrom_perm (dependenciesOf_eq h) ?_ hruns hcovered
  exact fun formula hmem dependency hdependency => Or.inr (h.closed formula hmem hdependency)

/-- The order of execution is a schedule. -/
theorem isSchedule_executionOrder {registry : Registry} (h : registry.Consistent) :
    registry.IsSchedule (registry.executionOrder.map Formula.id) where
  complete := (executionOrder_perm h).map Formula.id
  respectful := by
    rw [executionOrder_eq_orderFrom h]
    exact (Formula.runsFrom_iff_dependenciesFirst h.distinct).1
      (Formula.runsFrom_orderFrom (dependenciesOf_eq h))

/-- No schedule names earlier registered formulas sooner. -/
theorem executionOrder_least {registry : Registry} (h : registry.Consistent) {other : List String}
    (hother : registry.IsSchedule other) :
    other = registry.executionOrder.map Formula.id ∨
      registry.Precedes (registry.executionOrder.map Formula.id) other := by
  rw [executionOrder_eq_orderFrom h]
  exact Formula.orderFrom_least (dependenciesOf_eq h) (pairwise_idxOf h.distinct)
    ((Formula.runsFrom_iff_dependenciesFirst h.distinct).2 hother.respectful) hother.complete

/-- A consistent registry always has an order: nothing is left over that never becomes ready. -/
theorem order?_eq_some {registry : Registry} (h : registry.Consistent) :
    registry.order? = some (registry.executionOrder.map Formula.id) := by
  simp [order?, (executionOrder_perm h).length_eq]

/-- The formulas that run before a formula: those that it depends on are among them, and it is not. -/
theorem dependencies_subset_of_executionOrder {registry : Registry} (h : registry.Consistent)
    {before after : List Formula} {formula : Formula}
    (horder : registry.executionOrder = before ++ formula :: after) :
    formula ∈ registry.formulas ∧ formula.dependencies ⊆ before.map Formula.id ∧
      formula.id ∉ before.map Formula.id := by
  have hmem : formula ∈ registry.formulas :=
    (executionOrder_perm h).mem_iff.1 (by simp [horder])
  have hschedule := isSchedule_executionOrder h
  rw [horder, List.map_append, List.map_cons] at hschedule
  refine ⟨hmem, fun dependency hdependency => ?_, fun hbefore => ?_⟩
  · exact hschedule.respectful _ _ _ rfl dependency ⟨formula, hmem, rfl, hdependency⟩
  · have hdistinct := hschedule.complete.nodup_iff.2 h.distinct
    exact (List.nodup_append.1 hdistinct).2.2 _ hbefore _ List.mem_cons_self rfl

/-- What holds of a formula as soon as it holds of its dependencies holds of all formulas. -/
theorem Consistent.induction {registry : Registry} (h : registry.Consistent)
    {motive : Formula → Prop}
    (hstep : ∀ formula ∈ registry.formulas,
      (∀ other ∈ registry.formulas, other.id ∈ formula.dependencies → motive other) →
        motive formula) : ∀ formula ∈ registry.formulas, motive formula := by
  suffices hrun : ∀ before after, registry.executionOrder = before ++ after →
      ∀ formula ∈ before, motive formula from fun formula hmem =>
    hrun _ [] (List.append_nil _).symm formula ((executionOrder_perm h).mem_iff.2 hmem)
  -- The dependencies of a formula are among those that run before it, so the induction is on these.
  intro before
  induction before using List.reverseRecOn with
  | nil => simp
  | append_singleton before last ih =>
      intro after horder formula hmem
      rw [List.append_assoc, List.singleton_append] at horder
      have hearlier := ih (last :: after) horder
      rcases List.mem_append.1 hmem with hbefore | hlast
      · exact hearlier formula hbefore
      · obtain rfl := List.mem_singleton.1 hlast
        obtain ⟨hformula, hdependencies, -⟩ := dependencies_subset_of_executionOrder h horder
        refine hstep formula hformula fun other hother hdependency => ?_
        obtain ⟨found, hfound, hid⟩ := List.mem_map.1 (hdependencies hdependency)
        have hfoundMem : found ∈ registry.formulas :=
          (executionOrder_perm h).mem_iff.1 (by simp [horder, hfound])
        obtain rfl := List.inj_on_of_nodup_map h.distinct hfoundMem hother hid
        exact hearlier found hfound

end Registry

namespace Registrar

/-- What a registrar remembers is the order of the formulas that it holds. -/
def Remembers (registrar : Registrar) : Prop :=
  ∀ ids ∈ registrar.remembered, registrar.registry.order? = some ids

/-- Registering a function leaves the order as it is, registering a batch makes the registrar forget it, and
naming the order makes it remember the right one. -/
theorem remembers_serve {registrar : Registrar} (h : registrar.Remembers) (request : Request) :
    (registrar.serve request).2.Remembers := by
  -- A function leaves formulas and order alone; an accepted batch drops the order; a question stores it.
  cases request with
  | registerFunction name function =>
      simp only [serve, registerFunction]
      split
      · next registry hnext =>
          unfold Registry.registerFunction at hnext
          split at hnext
          · simp at hnext
          · obtain rfl := Except.ok.inj hnext
            exact h
      · exact h
  | register batch =>
      simp only [serve, register]
      split
      · exact fun ids hids => absurd hids (by simp)
      · exact h
  | executionOrder =>
      simp only [serve, executionOrder]
      split
      · exact h
      · split
        · next ids hids => exact fun other hother => by simpa [hids] using hother
        · exact h

/-- Whatever requests came in, the remembered order is that of the formulas now held. -/
theorem remembers_after (requests : List Request) : (after requests).Remembers :=
  List.foldlRecOn (motive := Remembers) requests _
    (fun ids hids => absurd hids (by simp [opened]))
    fun _ h request _ => remembers_serve h request

/-- A registrar names the order of the formulas that it holds, whether it remembers it or not. -/
theorem executionOrder_answer {registrar : Registrar} (hregistry : registrar.registry.Consistent)
    (hremembers : registrar.Remembers) :
    registrar.executionOrder.1 = .order (registrar.registry.executionOrder.map Formula.id) := by
  have horder := Registry.order?_eq_some hregistry
  unfold executionOrder
  split
  · next ids hids =>
      have hremembered := hremembers ids hids
      rw [horder] at hremembered
      rw [Option.some.inj hremembered]
  · rw [horder]

/-- Whatever has been asked of a registrar, it names the order of execution of the formulas that it holds:
a schedule of them that precedes every other schedule. -/
theorem executionOrder_exact (requests : List Request) :
    let registrar := after requests
    let registry := registrar.registry
    ∃ order, registrar.executionOrder.1 = .order order ∧ registry.IsSchedule order ∧
      ∀ other, registry.IsSchedule other → other = order ∨ registry.Precedes order other := by
  intro registrar registry
  have hregistry : registry.Consistent := (reached_after requests).consistent
  exact ⟨registry.executionOrder.map Formula.id,
    executionOrder_answer hregistry (remembers_after requests),
    Registry.isSchedule_executionOrder hregistry, fun _ => Registry.executionOrder_least hregistry⟩

end Registrar

/-!
## Extending a registry

A batch that is accepted is put behind what is there.  The formulas that were there never wait for a new
one, and they are registered earlier, so they run first and in the order that they had.  To register two
batches one after another is to register them as one, provided that the first can stand alone.
-/

namespace Formula

/-! ### Formulas that wait behind others -/

/-- What stands behind a formula that can be taken does not come into it. -/
theorem takeReady?_append_of_some {done : List String} {waiting rest : List Formula}
    {formula : Formula} (h : takeReady? done waiting = some (formula, rest)) (added : List Formula) :
    takeReady? done (waiting ++ added) = some (formula, rest ++ added) := by
  obtain ⟨before, after, rfl, rfl, hready, hbefore⟩ := split_of_takeReady? h
  rw [List.append_assoc, List.cons_append, takeReady?_append hbefore hready, List.append_assoc]

/-- Formulas that can run without those behind them run before these, in the order that they have without
them. -/
theorem orderFrom_append {done : List String} {waiting : List Formula}
    (hcomplete : (orderFrom done waiting).Perm waiting) (added : List Formula) :
    ∃ later, orderFrom done (waiting ++ added) = orderFrom done waiting ++ later := by
  fun_induction orderFrom done waiting with
  | case1 done waiting htake =>
      obtain rfl := hcomplete.nil_eq
      exact ⟨_, (List.nil_append _).symm⟩
  | case2 done waiting formula rest htake ih =>
      have hrest : (orderFrom (formula.id :: done) rest).Perm rest :=
        (hcomplete.trans (perm_of_takeReady? htake)).cons_inv
      obtain ⟨later, hlater⟩ := ih hrest
      refine ⟨later, ?_⟩
      rw [orderFrom_of_some (takeReady?_append_of_some htake added), hlater, List.cons_append]

end Formula

namespace Registry

variable {registry next : Registry} {batch first second : List Formula}

/-- A batch is registered exactly when it is acceptable, and then stands behind what is there. -/
theorem register_eq_ok_iff (hregistry : registry.Consistent) :
    registry.register batch = .ok next ↔
      registry.Accepts batch ∧ next = { registry with formulas := registry.formulas ++ batch } := by
  rcases register_cases hregistry batch with ⟨hok, haccepts⟩ | ⟨error, herror, hrefused⟩
  · rw [hok, Except.ok.injEq]
    exact ⟨fun heq => ⟨haccepts, heq.symm⟩, fun h => h.2.symm⟩
  · rw [herror]
    exact iff_of_false (by simp) fun h => hrefused.not_accepts h.1

/-- The formulas that are there run before those of a batch, in the order that they had. -/
theorem executionOrder_append (hregistry : registry.Consistent) (haccepts : registry.Accepts batch) :
    ∃ later, executionOrder { registry with formulas := registry.formulas ++ batch } =
      registry.executionOrder ++ later := by
  have hcomplete := executionOrder_perm hregistry
  rw [executionOrder_eq_orderFrom hregistry] at hcomplete ⊢
  rw [executionOrder_eq_orderFrom (hregistry.append haccepts)]
  exact Formula.orderFrom_append hcomplete batch

/-! ### Two batches -/

/-- A batch is acceptable behind an acceptable one exactly when both are acceptable as one: whatever it may
refer to stands in the registry or in one of the two. -/
theorem accepts_append_iff (hfirst : registry.Accepts first) :
    registry.Accepts (first ++ second) ↔
      Accepts { registry with formulas := registry.formulas ++ first } second := by
  have hids : ids { registry with formulas := registry.formulas ++ first } =
      registry.ids ++ first.map Formula.id := List.map_append
  constructor
  · intro h
    have hdistinct := h.distinct
    rw [List.map_append, List.nodup_append] at hdistinct
    constructor
    · exact hdistinct.2.1
    · intro formula hmem htaken
      rw [hids, List.mem_append] at htaken
      -- The identifier is taken by the registry or by the first batch, and the batch as a whole excludes
      -- both.
      rcases htaken with hregistered | hearlier
      · exact h.fresh formula (List.mem_append_right first hmem) hregistered
      · exact hdistinct.2.2 _ hearlier _ (List.mem_map_of_mem hmem) rfl
    · intro formula hmem dependency hdependency
      have hknown := h.known formula (List.mem_append_right first hmem) dependency hdependency
      rwa [List.map_append, List.mem_append, ← or_assoc, ← List.mem_append, ← hids] at hknown
    · exact fun formula hmem => h.functions formula (List.mem_append_right first hmem)
    · rw [List.append_assoc]
      exact h.acyclic
  · intro h
    constructor
    · rw [List.map_append]
      refine List.nodup_append.2 ⟨hfirst.distinct, h.distinct, fun id hid other hother heq => ?_⟩
      obtain ⟨formula, hmem, rfl⟩ := List.mem_map.1 hother
      exact h.fresh formula hmem (hids ▸ List.mem_append_right _ (heq ▸ hid))
    · intro formula hmem hregistered
      rcases List.mem_append.1 hmem with hmem | hmem
      · exact hfirst.fresh formula hmem hregistered
      · exact h.fresh formula hmem (hids ▸ List.mem_append_left _ hregistered)
    · intro formula hmem dependency hdependency
      rw [List.map_append, List.mem_append, ← or_assoc]
      rcases List.mem_append.1 hmem with hmem | hmem
      · exact Or.inl (hfirst.known formula hmem dependency hdependency)
      · have hknown := h.known formula hmem dependency hdependency
        rwa [hids, List.mem_append] at hknown
    · intro formula hmem
      rcases List.mem_append.1 hmem with hmem | hmem
      · exact hfirst.functions formula hmem
      · exact h.functions formula hmem
    · rw [← List.append_assoc]
      exact h.acyclic

end Registry

namespace Registrar

variable {registrar : Registrar} {batch : List Formula}

/-- The answer of a consistent registrar is the answer of the conditions. -/
theorem register_accepted_iff (hregistry : registrar.registry.Consistent) :
    (registrar.register batch).1 = .accepted ↔ registrar.registry.Accepts batch := by
  unfold register
  rcases Registry.register_cases hregistry batch with ⟨hok, haccepts⟩ | ⟨error, herror, hrefused⟩
  · rw [hok]
    exact iff_of_true rfl haccepts
  · rw [herror]
    exact iff_of_false (by simp) hrefused.not_accepts

/-- What a registrar is when a batch has been accepted. -/
theorem register_eq_of_accepts (hregistry : registrar.registry.Consistent)
    (haccepts : registrar.registry.Accepts batch) :
    (registrar.register batch).2 =
      { registry := { registrar.registry with formulas := registrar.registry.formulas ++ batch }
        remembered := none } := by
  have hok := (Registry.register_eq_ok_iff hregistry).2 ⟨haccepts, rfl⟩
  unfold register
  rw [hok]

/-- Whatever has been asked of a registrar: it accepts one batch and then another exactly when it accepts the
first of them and also both as one; and it is the same afterwards. -/
theorem register_append_exact (requests : List Request) (first second : List Formula) :
    let registrar := after requests
    let between := (registrar.register first).2
    let final := (between.register second).2
    ((registrar.register first).1 = .accepted ∧ (between.register second).1 = .accepted ↔
        (registrar.register first).1 = .accepted ∧
          (registrar.register (first ++ second)).1 = .accepted) ∧
      ((registrar.register first).1 = .accepted → (between.register second).1 = .accepted →
        final = (registrar.register (first ++ second)).2 ∧
        final.registry = { registrar.registry with
          formulas := registrar.registry.formulas ++ first ++ second }) := by
  intro registrar between final
  have hregistry : registrar.registry.Consistent := (reached_after requests).consistent
  rw [register_accepted_iff hregistry, register_accepted_iff hregistry]
  -- If the first batch is refused, both sides are false.
  by_cases hfirst : registrar.registry.Accepts first
  · have hbetween : between = _ := register_eq_of_accepts hregistry hfirst
    have hconsistent : between.registry.Consistent := by
      rw [hbetween]
      exact hregistry.append hfirst
    have hsecond : registrar.registry.Accepts (first ++ second) ↔ between.registry.Accepts second := by
      rw [hbetween]
      exact Registry.accepts_append_iff hfirst
    rw [register_accepted_iff hconsistent, hsecond]
    refine ⟨Iff.rfl, fun _ haccepts => ?_⟩
    have hfinal : final = _ := register_eq_of_accepts hconsistent haccepts
    rw [hfinal, register_eq_of_accepts hregistry (hsecond.2 haccepts), hbetween]
    simp
  · simp [hfirst]

end Registrar

end Appraisal
