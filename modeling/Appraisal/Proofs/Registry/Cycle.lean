import Appraisal.Formula.DirectCap
import Appraisal.Proofs.Registry.Registration

/-!
# The cycle that is reported

A batch that is refused for a cycle is refused with a chain that can be followed: every entry declares the
next one as a dependency, the last entry is the first one, and no other entry stands twice.  The chain stays
within the batch.  What is registered depends on registered formulas only and has no cycle of its own, so no
cycle leads through it.
-/

namespace Appraisal

open Formula (DependsOn)

namespace Registry

variable {registry : Registry} {batch : List Formula} {chain : List String}
  {id dependent dependency : String}

/-- A batch is refused for a cycle only after the other checks, and with the chain that was found. -/
theorem findCycle?_of_registrationError?
    (h : registry.registrationError? batch = some (.cycle chain)) :
    registry.Fresh batch ∧ Formula.findCycle? (registry.formulas ++ batch) = some chain := by
  rw [registrationError?_eq] at h
  split at h
  · cases h
  · next hduplicate =>
      split at h
      · next error habsent =>
          -- What is reported to be absent is a dependency or a function, never a cycle.
          have hreports := List.find?_some habsent
          obtain rfl := Option.some.inj h
          exact absurd (of_decide_eq_true hreports) id
      · obtain ⟨found, hfound, hchain⟩ := Option.map_eq_some_iff.1 h
        obtain rfl : found = chain := by simpa using hchain
        exact ⟨(fresh_iff_firstDuplicate? registry batch).2 hduplicate, hfound⟩

/-! ## No cycle leads through what is registered -/

/-- What is registered does not learn of new dependencies when a batch arrives. -/
theorem dependsOn_registered (hfresh : registry.Fresh batch) (hregistered : dependent ∈ registry.ids)
    (h : DependsOn (registry.formulas ++ batch) dependent dependency) :
    DependsOn registry.formulas dependent dependency := by
  obtain ⟨formula, hmem, rfl, hdependency⟩ := h
  rcases List.mem_append.1 hmem with hold | hnew
  · exact ⟨formula, hold, rfl, hdependency⟩
  · exact absurd hregistered (hfresh.2 formula hnew)

/-- A dependent outside of the registry must be declared in the batch. -/
theorem dependsOn_batch (hregistered : dependent ∉ registry.ids)
    (h : DependsOn (registry.formulas ++ batch) dependent dependency) :
    DependsOn batch dependent dependency := by
  obtain ⟨formula, hmem, rfl, hdependency⟩ := h
  rcases List.mem_append.1 hmem with hold | hnew
  · exact absurd (List.mem_map_of_mem hold) hregistered
  · exact ⟨formula, hnew, rfl, hdependency⟩

/-- Dependencies lead from a registered formula to registered formulas only, whatever the batch declares. -/
theorem transGen_registered (hregistry : registry.Consistent) (hfresh : registry.Fresh batch)
    (hregistered : id ∈ registry.ids) {other : String}
    (h : Relation.TransGen (DependsOn (registry.formulas ++ batch)) id other) :
    Relation.TransGen (DependsOn registry.formulas) id other ∧ other ∈ registry.ids := by
  have hclosed {dependent dependency : String} (h : DependsOn registry.formulas dependent dependency) :
      dependency ∈ registry.ids := by
    obtain ⟨formula, hmem, -, hdependency⟩ := h
    exact hregistry.closed formula hmem hdependency
  -- A step from a registered formula leads to a registered one, so a whole path stays among them.
  induction h with
  | single hstep =>
      have hold := dependsOn_registered hfresh hregistered hstep
      exact ⟨.single hold, hclosed hold⟩
  | tail _ hstep ih =>
      obtain ⟨hpath, hbetween⟩ := ih
      have hold := dependsOn_registered hfresh hbetween hstep
      exact ⟨hpath.tail hold, hclosed hold⟩

/-- A consistent registry is closed and has no cycle, so none leads through it after a batch has been added
either. -/
theorem not_registered_of_cycle (hregistry : registry.Consistent) (hfresh : registry.Fresh batch)
    (h : Relation.TransGen (DependsOn (registry.formulas ++ batch)) id id) : id ∉ registry.ids :=
  fun hregistered => hregistry.acyclic id (transGen_registered hregistry hfresh hregistered h).1

/-- A cycle that arises with a batch is a cycle of the batch alone. -/
theorem simpleCycle_in_batch (hregistry : registry.Consistent) (hfresh : registry.Fresh batch)
    (h : Formula.SimpleCycle (Formula.dependenciesOf (registry.formulas ++ batch)) chain) :
    chain.IsChain (DependsOn batch) ∧ ∀ id ∈ chain, id ∈ batch.map Formula.id ∧ id ∉ registry.ids := by
  have hdistinct := distinct_append hregistry.distinct hfresh
  have hdeclared {dependent dependency : String}
      (h : dependency ∈ Formula.dependenciesOf (registry.formulas ++ batch) dependent) :
      DependsOn (registry.formulas ++ batch) dependent dependency :=
    (Formula.mem_dependenciesOf_iff hdistinct).1 h
  have hcycle : ∀ id ∈ chain, Relation.TransGen (DependsOn (registry.formulas ++ batch)) id id :=
    fun id hid => Relation.TransGen.mono (fun _ _ => hdeclared) _ _ (h.transGen hid)
  -- From here on no formula of the cycle is a registered one, so all its steps are declared in the batch.
  have hfree : ∀ id ∈ chain, id ∉ registry.ids := fun id hid =>
    not_registered_of_cycle hregistry hfresh (hcycle id hid)
  refine ⟨?_, fun id hid => ⟨?_, hfree id hid⟩⟩
  · refine h.linked.imp_of_mem_imp fun dependent dependency hdependent _ hdependency => ?_
    exact dependsOn_batch (hfree dependent hdependent) (hdeclared hdependency)
  · obtain ⟨next, hstep, -⟩ := Relation.TransGen.head'_iff.1 (hcycle id hid)
    obtain ⟨formula, hmem, rfl, -⟩ := dependsOn_batch (hfree id hid) hstep
    exact List.mem_map_of_mem hmem

end Registry

namespace Registrar

theorem registrationError?_of_refused {registrar : Registrar} {batch : List Formula}
    {error : RegistrationError} (h : (registrar.register batch).1 = .refused error) :
    registrar.registry.registrationError? batch = some error := by
  unfold register Registry.register at h
  cases herror : registrar.registry.registrationError? batch with
  | none =>
      rw [herror] at h
      cases h
  | some found =>
      rw [herror] at h
      cases h
      rfl

/-- Whatever has been asked of a registrar: a batch that it refuses for a cycle has the cycle that is
reported.  The chain starts and ends with the same formula and repeats no other one, each formula declares
the next one, and all of them are in the batch and none is registered. -/
theorem cycle_of_refused (requests : List Request) {batch : List Formula} {chain : List String}
    (h : ((after requests).register batch).1 = .refused (.cycle chain)) :
    2 ≤ chain.length ∧ chain.head? = chain.getLast? ∧ chain.dropLast.Nodup ∧
      chain.IsChain (DependsOn batch) ∧
      ∀ id ∈ chain, id ∈ batch.map Formula.id ∧ id ∉ (after requests).registry.ids := by
  have hregistry := (reached_after requests).consistent
  obtain ⟨hfresh, hfound⟩ := Registry.findCycle?_of_registrationError? (registrationError?_of_refused h)
  have hsimple := Formula.simpleCycle_of_findCycle? hfound
  obtain ⟨first, middle, hchain, hdistinct⟩ := hsimple.closes
  obtain ⟨hlinked, hinside⟩ := Registry.simpleCycle_in_batch hregistry hfresh hsimple
  refine ⟨?_, ?_, ?_, hlinked, hinside⟩
  · simp [hchain]
  · rw [hchain, List.getLast?_concat]
    rfl
  · rwa [hchain, List.dropLast_concat]

/-- A formula that adds nothing up but depends on others. -/
def dependent (id : String) (dependencies : List String) : Formula :=
  { DirectCap.grossPotentialIncome with id, operands := [], dependencies }

/-- Expenses of which the fee and the insurance are each made to depend on the other; the reserve is reached on
two ways before. -/
def circularExpenses : List Formula :=
  [dependent "netOperatingIncome" ["grossPotentialIncome", "reserve", "totalOperatingExpenses"],
    dependent "totalOperatingExpenses" ["reserve", "managementFee"],
    dependent "reserve" ["grossPotentialIncome"],
    dependent "managementFee" ["insurance"],
    dependent "insurance" ["reserve", "managementFee"]]

/-- The management fee depends on the insurance and the other way round, beside a registered formula. -/
theorem cycle_of_refused_circularExpenses :
    let registrar := after [.register [DirectCap.grossPotentialIncome]]
    let chain := ["managementFee", "insurance", "managementFee"]
    (registrar.register circularExpenses).1 = .refused (.cycle chain) ∧
      2 ≤ chain.length ∧ chain.head? = chain.getLast? ∧ chain.dropLast.Nodup ∧
      chain.IsChain (DependsOn circularExpenses) ∧
      ∀ id ∈ chain, id ∈ circularExpenses.map Formula.id ∧ id ∉ registrar.registry.ids := by
  have hserved : opened.serve (.register [DirectCap.grossPotentialIncome]) =
      (.accepted, ⟨{ Registry.empty with formulas := [DirectCap.grossPotentialIncome] }, none⟩) := by cbv
  have hafter : after [.register [DirectCap.grossPotentialIncome]] =
      ⟨{ Registry.empty with formulas := [DirectCap.grossPotentialIncome] }, none⟩ :=
    congrArg Prod.snd hserved
  have hrefused : ((after [.register [DirectCap.grossPotentialIncome]]).register circularExpenses).1 =
      .refused (.cycle ["managementFee", "insurance", "managementFee"]) := by
    rw [hafter]
    cbv
  exact ⟨hrefused, cycle_of_refused _ hrefused⟩

end Registrar
end Appraisal
