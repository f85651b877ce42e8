import Appraisal.Formula.Registrar
import Appraisal.Proofs.Dependency.CycleSearch

/-!
# Registration

A batch is registered exactly when it is acceptable: its identifiers are new and distinct, everything that
its formulas ask for is there, and no cycle arises.  Otherwise it is refused for the first thing that is
wrong, and the registrar stays as it was.  Hence every registry that can be reached is consistent.
-/

namespace Appraisal
namespace Registry

/-- A registry in which identifiers are unique, dependencies are registered and lead into no cycle, and
the function of every custom operation is registered. -/
structure Consistent (registry : Registry) : Prop where
  distinct : registry.ids.Nodup
  closed : Formula.Closed registry.formulas
  acyclic : Formula.Acyclic registry.formulas
  functions : ∀ formula ∈ registry.formulas, formula.operation = .custom →
    formula.functionName ∈ registry.functions.keys

/-- What is asked of a batch that is to be registered. -/
structure Accepts (registry : Registry) (batch : List Formula) : Prop where
  distinct : (batch.map Formula.id).Nodup
  fresh : ∀ formula ∈ batch, formula.id ∉ registry.ids
  known : ∀ formula ∈ batch, ∀ dependency ∈ formula.dependencies,
    dependency ∈ registry.ids ∨ dependency ∈ batch.map Formula.id
  functions : ∀ formula ∈ batch, formula.operation = .custom →
    formula.functionName ∈ registry.functions.keys
  acyclic : Formula.Acyclic (registry.formulas ++ batch)

/-- What a formula asks for, in the order in which it is looked for: its dependencies, then its function.
Each is given as the error that reports its absence. -/
def demands (formula : Formula) : List RegistrationError :=
  formula.dependencies.map (.unknownDependency formula.id) ++
    if formula.operation = .custom then [.unknownFunction formula.id formula.functionName] else []

/-- Whether an error rightly reports that something is absent, when some formulas and functions are
known. -/
def Reports (known functions : List String) : RegistrationError → Prop
  | .unknownDependency _ dependency => dependency ∉ known
  | .unknownFunction _ name => name ∉ functions
  | _ => False

instance (known functions : List String) : DecidablePred (Reports known functions) := fun error =>
  match error with
  | .unknownDependency _ dependency => inferInstanceAs (Decidable (dependency ∉ known))
  | .unknownFunction _ name => inferInstanceAs (Decidable (name ∉ functions))
  | .duplicateFormula _ | .cycle _ | .duplicateFunction _ => inferInstanceAs (Decidable False)

/-- The identifiers of some formulas are distinct and not registered yet. -/
def Fresh (registry : Registry) (formulas : List Formula) : Prop :=
  (formulas.map Formula.id).Nodup ∧ ∀ formula ∈ formulas, formula.id ∉ registry.ids

/-- The error for which a batch is refused: the first identifier that is taken; if there is none, the first
thing asked for that is absent; if there is none, a cycle. -/
inductive RefusedFor (registry : Registry) (batch : List Formula) : RegistrationError → Prop
  /-- An identifier is registered already or stands earlier in the batch. -/
  | duplicate (before : List Formula) (formula : Formula) (after : List Formula)
      (hbatch : batch = before ++ formula :: after) (hbefore : registry.Fresh before)
      (htaken : formula.id ∈ registry.ids ∨ formula.id ∈ before.map Formula.id) :
      RefusedFor registry batch (.duplicateFormula formula.id)
  /-- A dependency or a function is neither registered nor in the batch. -/
  | absent (before : List RegistrationError) (error : RegistrationError)
      (after : List RegistrationError) (hfresh : registry.Fresh batch)
      (hdemands : batch.flatMap demands = before ++ error :: after)
      (hbefore : ∀ earlier ∈ before,
        ¬ Reports (registry.ids ++ batch.map Formula.id) registry.functions.keys earlier)
      (hreports : Reports (registry.ids ++ batch.map Formula.id) registry.functions.keys error) :
      RefusedFor registry batch error
  | circle (chain : List String) (hfresh : registry.Fresh batch)
      (hpresent : ∀ demand ∈ batch.flatMap demands,
        ¬ Reports (registry.ids ++ batch.map Formula.id) registry.functions.keys demand)
      (hcycle : ¬ Formula.Acyclic (registry.formulas ++ batch)) :
      RefusedFor registry batch (.cycle chain)

/-! ## Identifiers that are taken -/

/-- No duplicate is found exactly when the identifiers are distinct and none is taken. -/
theorem firstDuplicate?_eq_none_iff {taken : List String} {batch : List Formula} :
    firstDuplicate? taken batch = none ↔
      (batch.map Formula.id).Nodup ∧ ∀ formula ∈ batch, formula.id ∉ taken := by
  -- An identifier that has been passed counts as taken for those behind it.
  induction batch generalizing taken with
  | nil => simp [firstDuplicate?]
  | cons head tail ih =>
      simp only [firstDuplicate?, List.map_cons, List.nodup_cons, List.forall_mem_cons]
      split
      · next htaken => simp [htaken]
      · next hfree =>
          rw [ih]
          simp only [List.mem_cons, not_or, forall_and, List.mem_map, not_exists, not_and]
          constructor
          · rintro ⟨hdistinct, hhead, htail⟩
            exact ⟨⟨fun formula hmem => hhead formula hmem, hdistinct⟩, hfree, htail⟩
          · rintro ⟨⟨hhead, hdistinct⟩, -, htail⟩
            exact ⟨hdistinct, fun formula hmem => hhead formula hmem, htail⟩

/-- The duplicate that is found is the first one: nothing before it repeats an identifier. -/
theorem exists_of_firstDuplicate? {taken : List String} {batch : List Formula} {id : String}
    (h : firstDuplicate? taken batch = some id) :
    ∃ before formula after, batch = before ++ formula :: after ∧ formula.id = id ∧
      firstDuplicate? taken before = none ∧ (id ∈ taken ∨ id ∈ before.map Formula.id) := by
  induction batch generalizing taken with
  | nil => simp [firstDuplicate?] at h
  | cons head tail ih =>
      simp only [firstDuplicate?] at h
      split at h
      · next htaken =>
          obtain rfl : head.id = id := by simpa using h
          exact ⟨[], head, tail, rfl, rfl, rfl, Or.inl htaken⟩
      · next hfree =>
          obtain ⟨before, formula, after, rfl, hid, hbefore, htaken⟩ := ih h
          refine ⟨head :: before, formula, after, rfl, hid, ?_, ?_⟩
          · simpa [firstDuplicate?, hfree] using hbefore
          · simp only [List.mem_cons, List.map_cons] at htaken ⊢
            tauto

/-! ## Things that are absent -/

/-- The missing part of a formula is the first of its demands, in order, that is not met. -/
theorem missingPart?_eq_find? (known functions : List String) (formula : Formula) :
    missingPart? known functions formula =
      (demands formula).find? fun demand => decide (Reports known functions demand) := by
  unfold missingPart? demands
  rw [List.find?_append, List.find?_map]
  have hdependency :
      ((fun demand => decide (Reports known functions demand)) ∘
        RegistrationError.unknownDependency formula.id) =
      fun dependency => decide (dependency ∉ known) := by
    funext dependency
    exact decide_eq_decide.2 Iff.rfl
  rw [hdependency]
  -- The demands are the dependencies and, behind them, the function.
  cases formula.dependencies.find? fun dependency => decide (dependency ∉ known) with
  | some dependency => rfl
  | none =>
      by_cases hcustom : formula.operation = .custom
      · by_cases hfunction : formula.functionName ∈ functions <;>
          simp [hcustom, hfunction, Reports]
      · simp [hcustom]

/-- Over a batch, the demands are looked at formula by formula. -/
theorem findSome?_missingPart? (known functions : List String) (batch : List Formula) :
    batch.findSome? (missingPart? known functions) =
      (batch.flatMap demands).find? fun demand => decide (Reports known functions demand) := by
  rw [List.find?_flatMap]
  congr 1
  funext formula
  exact missingPart?_eq_find? known functions formula

/-- All demands are met exactly when all dependencies and all functions of custom operations are known. -/
theorem forall_demands_iff (known functions : List String) (batch : List Formula) :
    (∀ demand ∈ batch.flatMap demands, ¬ Reports known functions demand) ↔
      (∀ formula ∈ batch, ∀ dependency ∈ formula.dependencies, dependency ∈ known) ∧
        ∀ formula ∈ batch, formula.operation = .custom → formula.functionName ∈ functions := by
  -- Formula by formula, the last demand is there only for custom operations.
  have hformula (formula : Formula) :
      (∀ demand ∈ demands formula, ¬ Reports known functions demand) ↔
        (∀ dependency ∈ formula.dependencies, dependency ∈ known) ∧
          (formula.operation = .custom → formula.functionName ∈ functions) := by
    by_cases hcustom : formula.operation = .custom <;>
      simp [demands, hcustom, Reports, or_imp, forall_and]
  simp only [List.mem_flatMap, forall_exists_index, and_imp]
  constructor
  · intro h
    have hall : ∀ formula ∈ batch, _ := fun formula hmem =>
      (hformula formula).1 fun demand hdemand => h demand formula hmem hdemand
    exact ⟨fun formula hmem => (hall formula hmem).1, fun formula hmem => (hall formula hmem).2⟩
  · rintro ⟨hknown, hfunctions⟩ demand formula hmem hdemand
    exact (hformula formula).2 ⟨hknown formula hmem, hfunctions formula hmem⟩ demand hdemand

/-! ## The verdict on a batch -/

theorem distinct_append {registry : Registry} (hdistinct : registry.ids.Nodup)
    {batch : List Formula} (hfresh : registry.Fresh batch) :
    ((registry.formulas ++ batch).map Formula.id).Nodup := by
  rw [List.map_append]
  refine List.nodup_append.2 ⟨hdistinct, hfresh.1, fun id hid other hother heq => ?_⟩
  obtain ⟨formula, hmem, rfl⟩ := List.mem_map.1 hother
  exact hfresh.2 formula hmem (heq ▸ hid)

theorem closed_append {registry : Registry} (hclosed : Formula.Closed registry.formulas)
    {batch : List Formula}
    (hknown : ∀ formula ∈ batch, ∀ dependency ∈ formula.dependencies,
      dependency ∈ registry.ids ++ batch.map Formula.id) :
    Formula.Closed (registry.formulas ++ batch) := by
  intro formula hmem dependency hdependency
  rw [List.map_append]
  rcases List.mem_append.1 hmem with hold | hnew
  · exact List.mem_append_left _ (hclosed formula hold hdependency)
  · exact hknown formula hnew dependency hdependency

theorem fresh_iff_firstDuplicate? (registry : Registry) (batch : List Formula) :
    registry.Fresh batch ↔ firstDuplicate? registry.ids batch = none :=
  firstDuplicate?_eq_none_iff.symm

theorem Accepts.fresh_batch {registry : Registry} {batch : List Formula}
    (h : registry.Accepts batch) : registry.Fresh batch :=
  ⟨h.distinct, h.fresh⟩

theorem Accepts.not_reports {registry : Registry} {batch : List Formula}
    (h : registry.Accepts batch) :
    ∀ demand ∈ batch.flatMap demands,
      ¬ Reports (registry.ids ++ batch.map Formula.id) registry.functions.keys demand :=
  (forall_demands_iff _ _ _).2
    ⟨fun formula hmem dependency hdependency =>
      List.mem_append.2 (h.known formula hmem dependency hdependency), h.functions⟩

/-- No batch is both acceptable and refused. -/
theorem RefusedFor.not_accepts {registry : Registry} {batch : List Formula}
    {error : RegistrationError} (h : registry.RefusedFor batch error) :
    ¬ registry.Accepts batch := by
  intro haccepts
  -- Each refusal names something that acceptance excludes.
  cases h with
  | duplicate before formula after hbatch _ htaken =>
      subst hbatch
      have hdistinct := haccepts.distinct
      rw [List.map_append, List.map_cons, List.nodup_append] at hdistinct
      rcases htaken with hregistered | hearlier
      · exact haccepts.fresh formula (by simp) hregistered
      · exact hdistinct.2.2 _ hearlier _ List.mem_cons_self rfl
  | absent before error after _ hdemands _ hreports =>
      exact haccepts.not_reports error (by simp [hdemands]) hreports
  | circle _ _ _ hcycle => exact hcycle haccepts.acyclic

/-- Duplicates are looked for first, then unmet demands, then cycles. -/
theorem registrationError?_eq (registry : Registry) (batch : List Formula) :
    registry.registrationError? batch =
      match firstDuplicate? registry.ids batch with
      | some id => some (.duplicateFormula id)
      | none =>
          match (batch.flatMap demands).find? fun demand => decide
            (Reports (registry.ids ++ batch.map Formula.id) registry.functions.keys demand) with
          | some error => some error
          | none => (Formula.findCycle? (registry.formulas ++ batch)).map .cycle := by
  simp only [registrationError?, ids, List.map_append, findSome?_missingPart?]
  rfl

/-- The checks find nothing wrong with an acceptable batch only, and else the error for which the batch is
to be refused. -/
theorem registrationError?_cases {registry : Registry} (hregistry : registry.Consistent)
    (batch : List Formula) :
    (registry.registrationError? batch = none ∧ registry.Accepts batch) ∨
      ∃ error, registry.registrationError? batch = some error ∧
        registry.RefusedFor batch error := by
  -- One case for each check, in the order in which they are made; each may use that those before it passed.
  rw [registrationError?_eq]
  cases hduplicate : firstDuplicate? registry.ids batch with
  | some id =>
      obtain ⟨before, formula, after, hbatch, rfl, hbefore, htaken⟩ :=
        exists_of_firstDuplicate? hduplicate
      exact Or.inr ⟨_, rfl, .duplicate before formula after hbatch
        ((fresh_iff_firstDuplicate? _ _).2 hbefore) htaken⟩
  | none =>
      have hfresh := (fresh_iff_firstDuplicate? registry batch).2 hduplicate
      have hdistinct := distinct_append hregistry.distinct hfresh
      cases habsent : (batch.flatMap demands).find? fun demand => decide
          (Reports (registry.ids ++ batch.map Formula.id) registry.functions.keys demand) with
      | some error =>
          obtain ⟨hreports, before, after, hdemands, hbefore⟩ :=
            List.find?_eq_some_iff_append.1 habsent
          exact Or.inr ⟨error, rfl, .absent before error after hfresh hdemands
            (fun earlier hmem => by simpa using hbefore earlier hmem) (by simpa using hreports)⟩
      | none =>
          have hpresent : ∀ demand ∈ batch.flatMap demands,
              ¬ Reports (registry.ids ++ batch.map Formula.id) registry.functions.keys demand :=
            fun demand hmem => by simpa using List.find?_eq_none.1 habsent demand hmem
          obtain ⟨hknown, hfunctions⟩ := (forall_demands_iff _ _ _).1 hpresent
          have hsearch := Formula.findCycle?_eq_none_iff hdistinct
            (closed_append hregistry.closed hknown)
          cases hcycle : Formula.findCycle? (registry.formulas ++ batch) with
          | some chain =>
              refine Or.inr ⟨.cycle chain, rfl, .circle chain hfresh hpresent fun hacyclic => ?_⟩
              rw [hsearch.2 hacyclic] at hcycle
              contradiction
          | none =>
              exact Or.inl ⟨rfl, hfresh.1, hfresh.2, fun formula hmem dependency hdependency =>
                List.mem_append.1 (hknown formula hmem dependency hdependency), hfunctions,
                hsearch.1 hcycle⟩

/-! ## Reached registries -/

/-- There is nothing to be inconsistent. -/
theorem consistent_empty : empty.Consistent where
  distinct := List.nodup_nil
  closed := fun _ hmem => absurd hmem List.not_mem_nil
  acyclic := fun id hcycle => by
    obtain ⟨_, ⟨formula, hmem, -⟩, -⟩ := Relation.TransGen.head'_iff.1 hcycle
    exact absurd hmem List.not_mem_nil
  functions := fun _ hmem => absurd hmem List.not_mem_nil

/-- What the conditions ask of a batch is what keeps the registry consistent. -/
theorem Consistent.append {registry : Registry} (h : registry.Consistent) {batch : List Formula}
    (haccepts : registry.Accepts batch) :
    Consistent { registry with formulas := registry.formulas ++ batch } where
  distinct := distinct_append h.distinct haccepts.fresh_batch
  closed := closed_append h.closed fun formula hmem dependency hdependency =>
    List.mem_append.2 (haccepts.known formula hmem dependency hdependency)
  acyclic := haccepts.acyclic
  functions := fun formula hmem hcustom => by
    rcases List.mem_append.1 hmem with hold | hnew
    · exact h.functions formula hold hcustom
    · exact haccepts.functions formula hnew hcustom

/-- A consistent registry accepts the batch and grows by it, or it refuses the batch and names a reason. -/
theorem register_cases {registry : Registry} (hregistry : registry.Consistent)
    (batch : List Formula) :
    (registry.register batch = .ok { registry with formulas := registry.formulas ++ batch } ∧
        registry.Accepts batch) ∨
      ∃ error, registry.register batch = .error error ∧ registry.RefusedFor batch error := by
  unfold register
  rcases registrationError?_cases hregistry batch with ⟨hnone, haccepts⟩ | ⟨error, hsome, hrefused⟩
  · exact Or.inl ⟨by rw [hnone], haccepts⟩
  · exact Or.inr ⟨error, by rw [hsome], hrefused⟩

theorem Consistent.registerFunction {registry next : Registry} (h : registry.Consistent)
    {name : String} {function : CustomFunction}
    (hnext : registry.registerFunction name function = .ok next) : next.Consistent := by
  unfold Registry.registerFunction at hnext
  split at hnext
  · simp at hnext
  · obtain rfl : _ = next := by simpa using hnext
    refine ⟨h.distinct, h.closed, h.acyclic, fun formula hmem hcustom => ?_⟩
    have hold := h.functions formula hmem hcustom
    simp only [Dictionary.keys, List.map_append, List.mem_append] at hold ⊢
    exact Or.inl hold

/-- The registries that arise from the empty one by registrations, all of which are accepted. -/
inductive Reached : Registry → Prop
  | empty : Reached Registry.empty
  | registerFunction {registry next : Registry} (name : String) (function : CustomFunction)
      (hregistry : Reached registry)
      (hnext : registry.registerFunction name function = .ok next) : Reached next
  | register {registry next : Registry} (batch : List Formula) (hregistry : Reached registry)
      (hnext : registry.register batch = .ok next) : Reached next

/-- Every registry that requests lead to is consistent. -/
theorem Reached.consistent {registry : Registry} (h : registry.Reached) :
    registry.Consistent := by
  induction h with
  | empty => exact consistent_empty
  | registerFunction name function _ hnext ih => exact ih.registerFunction hnext
  | register batch _ hnext ih =>
      rcases register_cases ih batch with ⟨hok, haccepts⟩ | ⟨error, herror, -⟩
      · obtain rfl := Except.ok.inj (hok.symm.trans hnext)
        exact ih.append haccepts
      · rw [herror] at hnext
        contradiction

end Registry

namespace Registrar

/-- Naming the order leaves the formulas and functions as they are. -/
theorem registry_executionOrder (registrar : Registrar) :
    registrar.executionOrder.2.registry = registrar.registry := by
  unfold executionOrder
  split
  · rfl
  · split <;> rfl

/-- Whatever is asked of a registrar, its registry arises from accepted registrations only. -/
theorem reached_serve {registrar : Registrar} (h : registrar.registry.Reached) (request : Request) :
    (registrar.serve request).2.registry.Reached := by
  -- A refused request and a question leave the registry as it is.
  cases request with
  | registerFunction name function =>
      simp only [serve, registerFunction]
      split
      · next registry hnext => exact h.registerFunction name function hnext
      · exact h
  | register batch =>
      simp only [serve, register]
      split
      · next registry hnext => exact h.register batch hnext
      · exact h
  | executionOrder =>
      rw [← registry_executionOrder registrar] at h
      exact h

theorem reached_after (requests : List Request) : (after requests).registry.Reached := by
  unfold after
  exact List.foldlRecOn (motive := fun registrar : Registrar => registrar.registry.Reached) requests _
    .empty fun registrar h request _ => reached_serve h request

/-- Whatever has been asked of a registrar: its registry is consistent; it registers a batch exactly when
the batch is acceptable, and then holds the formulas of the batch after the earlier ones; and it refuses
any other batch for the first thing that is wrong with it, and then stays as it was. -/
theorem register_exact (requests : List Request) (batch : List Formula) :
    let registrar := after requests
    let registry := registrar.registry
    registry.Consistent ∧
      ((registrar.register batch).1 = .accepted ↔ registry.Accepts batch) ∧
      (registry.Accepts batch → (registrar.register batch).2.registry =
        { registry with formulas := registry.formulas ++ batch }) ∧
      (¬ registry.Accepts batch → ∃ error, (registrar.register batch).1 = .refused error ∧
        registry.RefusedFor batch error ∧ (registrar.register batch).2 = registrar) := by
  intro registrar registry
  have hregistry : registry.Consistent := (reached_after requests).consistent
  unfold register
  -- The registry of a registrar is consistent after any requests, so one of the two cases applies.
  rcases Registry.register_cases hregistry batch with ⟨hok, haccepts⟩ | ⟨error, herror, hrefused⟩
  · rw [hok]
    exact ⟨hregistry, by simpa using haccepts, fun _ => rfl, fun hnot => absurd haccepts hnot⟩
  · rw [herror]
    exact ⟨hregistry, by simpa using hrefused.not_accepts,
      fun haccepts => absurd haccepts hrefused.not_accepts, fun _ => ⟨error, rfl, hrefused, rfl⟩⟩

end Registrar
end Appraisal
