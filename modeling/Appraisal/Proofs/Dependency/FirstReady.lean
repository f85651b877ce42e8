import Appraisal.Proofs.Dependency.CycleSearch
import Mathlib.Data.List.Lex

/-!
# The first ready formula

The order in which the first ready formula is taken, again and again, puts every formula after those that
it depends on.  It leaves no formula out if that can be done at all, and of all such orders it is the
first one when formulas are compared by the place at which they wait.
-/

namespace Appraisal
namespace Formula

/-! ## Taking the first ready formula -/

/-- Whether all dependencies of a formula are done. -/
def isReady (done : List String) (formula : Formula) : Bool :=
  formula.dependencies.all fun dependency => dependency ∈ done

/-- The first ready formula, and the others in order. -/
def takeReady? (done : List String) : List Formula → Option (Formula × List Formula)
  | [] => none
  | formula :: rest =>
      if isReady done formula then some (formula, rest)
      else (takeReady? done rest).map fun found => (found.1, formula :: found.2)

theorem length_of_takeReady? {done : List String} {formulas rest : List Formula} {formula : Formula}
    (h : takeReady? done formulas = some (formula, rest)) : rest.length + 1 = formulas.length := by
  induction formulas generalizing rest with
  | nil => simp [takeReady?] at h
  | cons head tail ih =>
      unfold takeReady? at h
      split at h
      · simp only [Option.some.injEq, Prod.mk.injEq] at h
        simp [h.2]
      · simp only [Option.map_eq_some_iff, Prod.mk.injEq, Prod.exists] at h
        obtain ⟨found, others, hfound, rfl, rfl⟩ := h
        simp [ih hfound]

theorem isReady_iff {done : List String} {formula : Formula} :
    isReady done formula = true ↔ ∀ dependency ∈ formula.dependencies, dependency ∈ done := by
  simp [isReady]

/-- Nothing can be taken exactly when nothing is ready. -/
theorem takeReady?_eq_none_iff {done : List String} {waiting : List Formula} :
    takeReady? done waiting = none ↔ ∀ formula ∈ waiting, isReady done formula = false := by
  induction waiting with
  | nil => simp [takeReady?]
  | cons head tail ih =>
      unfold takeReady?
      split
      · next hready => simp [hready]
      · next hready => simp [ih, Bool.eq_false_iff.2 hready]

/-- The formula taken is the first ready one, and all others stay where they are. -/
theorem split_of_takeReady? {done : List String} {waiting rest : List Formula} {formula : Formula}
    (h : takeReady? done waiting = some (formula, rest)) :
    ∃ before after, waiting = before ++ formula :: after ∧ rest = before ++ after ∧
      isReady done formula = true ∧ ∀ earlier ∈ before, isReady done earlier = false := by
  -- The search passes over formulas that are not ready and stops at one that is.
  induction waiting generalizing rest with
  | nil => simp [takeReady?] at h
  | cons head tail ih =>
      unfold takeReady? at h
      split at h
      · next hready =>
          simp only [Option.some.injEq, Prod.mk.injEq] at h
          obtain ⟨rfl, rfl⟩ := h
          exact ⟨[], tail, rfl, rfl, hready, by simp⟩
      · next hready =>
          simp only [Option.map_eq_some_iff, Prod.mk.injEq, Prod.exists] at h
          obtain ⟨found, others, hfound, rfl, rfl⟩ := h
          obtain ⟨before, after, rfl, rfl, hfoundReady, hbefore⟩ := ih hfound
          refine ⟨head :: before, after, rfl, rfl, hfoundReady, fun earlier hmem => ?_⟩
          rcases List.mem_cons.1 hmem with rfl | hmem
          · exact Bool.eq_false_iff.2 hready
          · exact hbefore earlier hmem

/-- Taking a formula loses none. -/
theorem perm_of_takeReady? {done : List String} {waiting rest : List Formula} {formula : Formula}
    (h : takeReady? done waiting = some (formula, rest)) : waiting.Perm (formula :: rest) := by
  obtain ⟨before, after, rfl, rfl, -⟩ := split_of_takeReady? h
  exact List.perm_middle

theorem takeReady?_append {done : List String} {before after : List Formula} {formula : Formula}
    (hbefore : ∀ earlier ∈ before, isReady done earlier = false)
    (hready : isReady done formula = true) :
    takeReady? done (before ++ formula :: after) = some (formula, before ++ after) := by
  induction before with
  | nil => simp [takeReady?, hready]
  | cons head before ih =>
      rw [List.forall_mem_cons] at hbefore
      simp [takeReady?, hbefore.1, ih hbefore.2]

/-! ## Working an order out -/

/-- The order of the waiting formulas when some are done: the first ready one, then the rest in order.
Formulas that never become ready are left out. -/
def orderFrom (done : List String) (waiting : List Formula) : List Formula :=
  match _htake : takeReady? done waiting with
  | none => []
  | some (formula, rest) => formula :: orderFrom (formula.id :: done) rest
termination_by waiting.length
decreasing_by
  have := length_of_takeReady? _htake
  omega

theorem orderFrom_of_none {done : List String} {waiting : List Formula}
    (h : takeReady? done waiting = none) : orderFrom done waiting = [] := by
  rw [orderFrom]
  split
  · rfl
  · next hsome =>
      rw [h] at hsome
      contradiction

theorem orderFrom_of_some {done : List String} {waiting rest : List Formula} {formula : Formula}
    (h : takeReady? done waiting = some (formula, rest)) :
    orderFrom done waiting = formula :: orderFrom (formula.id :: done) rest := by
  rw [orderFrom]
  split
  · next hnone =>
      rw [h] at hnone
      contradiction
  · next found others hsome =>
      obtain ⟨rfl, rfl⟩ : formula = found ∧ rest = others := by simpa [h] using hsome
      rfl

section Waiting

variable {dependencies : String → List String}

/-- Every formula comes after its dependencies, since only ready ones are taken. -/
theorem runsFrom_orderFrom {done : List String} {waiting : List Formula}
    (hdependencies : ∀ formula ∈ waiting, dependencies formula.id = formula.dependencies) :
    RunsFrom dependencies done ((orderFrom done waiting).map Formula.id) := by
  fun_induction orderFrom done waiting with
  | case1 => trivial
  | case2 done waiting formula rest htake ih =>
      have hmem : ∀ other, other ∈ waiting ↔ other ∈ formula :: rest :=
        fun other => (perm_of_takeReady? htake).mem_iff
      obtain ⟨-, -, -, -, hready, -⟩ := split_of_takeReady? htake
      rw [List.map_cons]
      refine ⟨fun dependency hdependency => ?_,
        ih fun other hother => hdependencies other ((hmem other).2 (List.mem_cons_of_mem _ hother))⟩
      rw [hdependencies formula ((hmem formula).2 List.mem_cons_self)] at hdependency
      exact isReady_iff.1 hready dependency hdependency

/-- As long as the formulas can be put into a respectful order, one of those that wait is ready: the first
of them in that order. -/
theorem exists_ready {done order : List String} {waiting : List Formula}
    (hdependencies : ∀ formula ∈ waiting, dependencies formula.id = formula.dependencies)
    (hknown : ∀ formula ∈ waiting, ∀ dependency ∈ formula.dependencies,
      dependency ∈ done ∨ dependency ∈ waiting.map Formula.id)
    (hruns : RunsFrom dependencies [] order) (hcovered : waiting.map Formula.id ⊆ order)
    (hwaiting : waiting ≠ []) : ∃ formula ∈ waiting, isReady done formula = true := by
  obtain ⟨sample, hsample⟩ := List.exists_mem_of_ne_nil waiting hwaiting
  have hfound : (order.find? fun id => decide (id ∈ waiting.map Formula.id)).isSome = true := by
    rw [List.find?_isSome]
    exact ⟨sample.id, hcovered (List.mem_map_of_mem hsample),
      decide_eq_true (List.mem_map_of_mem hsample)⟩
  obtain ⟨id, hid⟩ := Option.isSome_iff_exists.1 hfound
  obtain ⟨hwaits, before, after, horder, hbefore⟩ := List.find?_eq_some_iff_append.1 hid
  obtain ⟨formula, hmem, rfl⟩ := List.mem_map.1 (of_decide_eq_true hwaits)
  refine ⟨formula, hmem, isReady_iff.2 fun dependency hdependency => ?_⟩
  -- A dependency that still waited would stand in the order before the first formula that waits.
  have hearlier : dependency ∈ before := by
    have hsplit := Formula.runsFrom_iff.1 hruns before formula.id after horder dependency
      (by rwa [hdependencies formula hmem])
    simpa using hsplit
  rcases hknown formula hmem dependency hdependency with hdone | hwaits
  · exact hdone
  · have hnot := hbefore dependency hearlier
    simp only [hwaits, decide_true, Bool.not_true] at hnot
    contradiction

/-- No formula is left out if the formulas can be put into a respectful order. -/
theorem orderFrom_perm {done order : List String} {waiting : List Formula}
    (hdependencies : ∀ formula ∈ waiting, dependencies formula.id = formula.dependencies)
    (hknown : ∀ formula ∈ waiting, ∀ dependency ∈ formula.dependencies,
      dependency ∈ done ∨ dependency ∈ waiting.map Formula.id)
    (hruns : RunsFrom dependencies [] order) (hcovered : waiting.map Formula.id ⊆ order) :
    (orderFrom done waiting).Perm waiting := by
  fun_induction orderFrom done waiting with
  | case1 done waiting htake =>
      by_cases hwaiting : waiting = []
      · rw [hwaiting]
      -- The order must not stop early: among the formulas that are left, the first of the respectful order
      -- is ready.
      · obtain ⟨formula, hmem, hready⟩ :=
          exists_ready hdependencies hknown hruns hcovered hwaiting
        rw [takeReady?_eq_none_iff.1 htake formula hmem] at hready
        contradiction
  | case2 done waiting formula rest htake ih =>
      have hperm := perm_of_takeReady? htake
      have hrest : rest ⊆ waiting := fun other hmem =>
        hperm.mem_iff.2 (List.mem_cons_of_mem _ hmem)
      refine (List.Perm.cons formula (ih ?_ ?_ ?_)).trans hperm.symm
      · exact fun other hmem => hdependencies other (hrest hmem)
      · intro other hmem dependency hdependency
        have hwaits := hknown other (hrest hmem) dependency hdependency
        rw [(hperm.map Formula.id).mem_iff, List.map_cons, List.mem_cons] at hwaits
        rw [List.mem_cons]
        tauto
      · exact fun id hid => hcovered (List.map_subset Formula.id hrest hid)

/-- No respectful order of the waiting formulas comes before the one that is worked out, if they wait in
the order by which they are compared. -/
theorem orderFrom_least {earlier : String → String → Prop} {done other : List String}
    {waiting : List Formula}
    (hdependencies : ∀ formula ∈ waiting, dependencies formula.id = formula.dependencies)
    (hsorted : (waiting.map Formula.id).Pairwise earlier)
    (hruns : RunsFrom dependencies done other) (hperm : other.Perm (waiting.map Formula.id)) :
    other = (orderFrom done waiting).map Formula.id ∨
      List.Lex earlier ((orderFrom done waiting).map Formula.id) other := by
  fun_induction orderFrom done waiting generalizing other with
  | case1 done waiting htake =>
      cases other with
      | nil => exact Or.inl rfl
      | cons id rest =>
          obtain ⟨formula, hmem, rfl⟩ := List.mem_map.1 (hperm.mem_iff.1 List.mem_cons_self)
          have hready : isReady done formula = true :=
            isReady_iff.2 (hdependencies formula hmem ▸ hruns.1)
          rw [takeReady?_eq_none_iff.1 htake formula hmem] at hready
          contradiction
  | case2 done waiting formula rest htake ih =>
      obtain ⟨before, after, hwaiting, hrest, -, hbefore⟩ := split_of_takeReady? htake
      have htaken := perm_of_takeReady? htake
      rw [List.map_cons]
      cases other with
      | nil =>
          have hlength := hperm.length_eq
          simp [hwaiting] at hlength
      | cons id others =>
          obtain ⟨first, hmem, rfl⟩ := List.mem_map.1 (hperm.mem_iff.1 List.mem_cons_self)
          have hready : isReady done first = true :=
            isReady_iff.2 (hdependencies first hmem ▸ hruns.1)
          -- The other order cannot start before `formula`, where nothing is ready; if it starts with it,
          -- the rests are compared; if it starts behind it, it is the later one.
          rw [hwaiting, List.mem_append, List.mem_cons] at hmem
          rcases hmem with hmem | rfl | hmem
          · rw [hbefore first hmem] at hready
            contradiction
          · have hothers : others.Perm (rest.map Formula.id) :=
              (hperm.trans (htaken.map Formula.id)).cons_inv
            have hrestSorted : (rest.map Formula.id).Pairwise earlier := by
              refine hsorted.sublist (List.Sublist.map _ ?_)
              rw [hwaiting, hrest]
              exact List.Sublist.append_left (List.sublist_cons_self _ _) before
            rcases ih (fun formula hmem => hdependencies formula
              (htaken.mem_iff.2 (List.mem_cons_of_mem _ hmem))) hrestSorted hruns.2 hothers with
              heq | hlex
            · exact Or.inl (by rw [heq])
            · exact Or.inr (.cons hlex)
          · rw [hwaiting, List.map_append, List.map_cons, List.pairwise_append,
              List.pairwise_cons] at hsorted
            exact Or.inr (.rel (hsorted.2.1.1 _ (List.mem_map_of_mem hmem)))

end Waiting

end Formula
end Appraisal
