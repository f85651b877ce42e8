import Appraisal.Formula.Dependency
import Mathlib.Data.List.Basic
import Mathlib.Data.List.Chain
import Mathlib.Data.List.Nodup
import Mathlib.Data.List.Perm.Subperm
import Mathlib.Logic.Relation

/-!
# Cycles among formulas

What it means that formulas depend on each other without a cycle, and that the search finds a cycle if there is one.
-/

namespace Appraisal

/-!
## Dependencies among formulas

The dependencies that formulas declare form a relation on identifiers.  This module says what it means
that the relation has no cycle and that a list of identifiers respects it, and shows that a relation all
of whose dependents can be put into a respectful order has no cycle.
-/

namespace Formula

/-- A formula declares another one as a dependency. -/
def DependsOn (formulas : List Formula) (dependent dependency : String) : Prop :=
  ∃ formula ∈ formulas, formula.id = dependent ∧ dependency ∈ formula.dependencies

/-- No formula depends on itself, directly or through others. -/
def Acyclic (formulas : List Formula) : Prop :=
  ∀ id, ¬ Relation.TransGen (DependsOn formulas) id id

/-- Every dependency is one of the formulas. -/
def Closed (formulas : List Formula) : Prop :=
  ∀ formula ∈ formulas, formula.dependencies ⊆ formulas.map Formula.id

/-- In a list of identifiers, every dependency stands before the formulas that depend on it. -/
def DependenciesFirst (formulas : List Formula) (order : List String) : Prop :=
  ∀ before id after, order = before ++ id :: after →
    ∀ dependency, DependsOn formulas id dependency → dependency ∈ before

/-! ### Formulas by identifier -/

theorem find?_eq_some_of_mem {formulas : List Formula}
    (hdistinct : (formulas.map Formula.id).Nodup) {formula : Formula} (hmem : formula ∈ formulas) :
    find? formulas formula.id = some formula := by
  induction formulas with
  | nil => simp at hmem
  | cons head tail ih =>
      rw [List.map_cons, List.nodup_cons] at hdistinct
      rcases List.mem_cons.1 hmem with rfl | htail
      · simp [find?]
      · have hne : head.id ≠ formula.id := fun heq =>
          hdistinct.1 (heq ▸ List.mem_map_of_mem htail)
        have hrec := ih hdistinct.2 htail
        simpa [find?, List.find?_cons, hne] using hrec

theorem mem_of_find?_eq_some {formulas : List Formula} {id : String} {formula : Formula}
    (h : find? formulas id = some formula) : formula ∈ formulas ∧ formula.id = id :=
  ⟨List.mem_of_find?_eq_some h, by simpa using List.find?_some h⟩

theorem dependenciesOf_id {formulas : List Formula}
    (hdistinct : (formulas.map Formula.id).Nodup) {formula : Formula} (hmem : formula ∈ formulas) :
    dependenciesOf formulas formula.id = formula.dependencies := by
  simp only [dependenciesOf, find?_eq_some_of_mem hdistinct hmem]

/-- As long as identifiers are distinct, looking a formula up and declaring a dependency are the same
relation. -/
theorem mem_dependenciesOf_iff {formulas : List Formula}
    (hdistinct : (formulas.map Formula.id).Nodup) {dependent dependency : String} :
    dependency ∈ dependenciesOf formulas dependent ↔ DependsOn formulas dependent dependency := by
  constructor
  · intro h
    unfold dependenciesOf at h
    split at h
    · next formula hfind =>
        obtain ⟨hmem, hid⟩ := mem_of_find?_eq_some hfind
        exact ⟨formula, hmem, hid, h⟩
    · simp at h
  · rintro ⟨formula, hmem, rfl, hdependency⟩
    rwa [dependenciesOf_id hdistinct hmem]

theorem dependenciesOf_subset {formulas : List Formula} (hclosed : Closed formulas) (id : String) :
    dependenciesOf formulas id ⊆ formulas.map Formula.id := by
  unfold dependenciesOf
  split
  · next formula hfind => exact hclosed formula (mem_of_find?_eq_some hfind).1
  · exact List.nil_subset _

/-! ### Respectful orders -/

/-- The entries of a list can run one after another when those of `done` have run: each finds its
dependencies done. -/
def RunsFrom (dependencies : String → List String) (done : List String) : List String → Prop
  | [] => True
  | id :: rest =>
      (∀ dependency ∈ dependencies id, dependency ∈ done) ∧ RunsFrom dependencies (id :: done) rest

variable {dependencies : String → List String}

/-- A run goes on from what its first part has done. -/
theorem runsFrom_append {done first second : List String} :
    RunsFrom dependencies done (first ++ second) ↔
      RunsFrom dependencies done first ∧ RunsFrom dependencies (first.reverse ++ done) second := by
  induction first generalizing done with
  | nil => simp [RunsFrom]
  | cons id rest ih => simp [RunsFrom, ih, and_assoc]

/-- Each identifier needs its dependencies among those named before it or done at the start. -/
theorem runsFrom_iff {done order : List String} :
    RunsFrom dependencies done order ↔
      ∀ before id after, order = before ++ id :: after →
        ∀ dependency ∈ dependencies id, dependency ∈ before ∨ dependency ∈ done := by
  induction order generalizing done with
  | nil => simp [RunsFrom]
  | cons head tail ih =>
      rw [RunsFrom, ih]
      constructor
      · rintro ⟨hhead, htail⟩ before id after heq dependency hdependency
        -- The identifier stands at the head or further behind.
        cases before with
        | nil =>
            obtain ⟨rfl, -⟩ := List.cons.inj heq
            exact Or.inr (hhead dependency hdependency)
        | cons first before =>
            obtain ⟨rfl, hrest⟩ := List.cons.inj heq
            rcases htail before id after hrest dependency hdependency with hbefore | hdone
            · exact Or.inl (List.mem_cons_of_mem _ hbefore)
            · rcases List.mem_cons.1 hdone with rfl | hdone
              · exact Or.inl List.mem_cons_self
              · exact Or.inr hdone
      · intro h
        refine ⟨fun dependency hdependency => ?_, fun before id after heq dependency hdependency => ?_⟩
        · simpa using h [] head tail rfl dependency hdependency
        · have hsplit := h (head :: before) id after (by rw [heq, List.cons_append])
          rcases hsplit dependency hdependency with hbefore | hdone
          · rcases List.mem_cons.1 hbefore with rfl | hbefore
            · exact Or.inr List.mem_cons_self
            · exact Or.inl hbefore
          · exact Or.inr (List.mem_cons_of_mem _ hdone)

theorem runsFrom_iff_dependenciesFirst {formulas : List Formula}
    (hdistinct : (formulas.map Formula.id).Nodup) {order : List String} :
    RunsFrom (dependenciesOf formulas) [] order ↔ DependenciesFirst formulas order := by
  simp only [runsFrom_iff, DependenciesFirst, mem_dependenciesOf_iff hdistinct, List.not_mem_nil,
    or_false]

/-- What stands in a respectful order before some place is closed under dependencies. -/
theorem RunsFrom.closed {before after : List String}
    (h : RunsFrom dependencies [] (before ++ after)) {id dependency : String} (hid : id ∈ before)
    (hdependency : dependency ∈ dependencies id) : dependency ∈ before := by
  obtain ⟨first, second, rfl⟩ := List.append_of_mem hid
  have hfirst := runsFrom_iff.1 h first id (second ++ after) (by simp) dependency hdependency
  simp only [List.not_mem_nil, or_false] at hfirst
  exact List.mem_append_left _ hfirst

/-- Following dependencies from an entry of a respectful order never leads back to it. -/
theorem RunsFrom.not_transGen {order : List String} (h : RunsFrom dependencies [] order)
    {id : String} (hid : id ∈ order) :
    ¬ Relation.TransGen (fun dependent dependency => dependency ∈ dependencies dependent) id id := by
  intro hcycle
  obtain ⟨before, after, rfl, hfresh⟩ := List.eq_append_cons_of_mem hid
  -- Everything that `id` depends on, through any number of others, stands before its first place.
  have hbefore : ∀ other, Relation.TransGen
      (fun dependent dependency => dependency ∈ dependencies dependent) id other →
        other ∈ before := by
    intro other hpath
    induction hpath with
    | single hstep =>
        have hfirst := runsFrom_iff.1 h before id after rfl _ hstep
        simpa using hfirst
    | tail _ hstep ih => exact h.closed ih hstep
  exact hfresh (hbefore id hcycle)

/-!
## The search for a cycle

The depth-first search is exact.  When it ends without a cycle, the formulas that it has followed, last one
first, form a respectful order, so no cycle leads through them; the bound on the depth is never met, since a
path does not repeat a formula.  When it reports a chain, the chain is a simple cycle of dependencies.
-/

/-- A chain that starts and ends with the same formula and repeats no other one, and in which every
formula depends on the next. -/
structure SimpleCycle (dependencies : String → List String) (chain : List String) : Prop where
  closes : ∃ first middle, chain = first :: middle ++ [first] ∧ (first :: middle).Nodup
  linked : chain.IsChain fun dependent dependency => dependency ∈ dependencies dependent

variable {dependencies : String → List String}

/-- A chain of steps leads from its first end to its last. -/
theorem transGen_of_isChain {relation : String → String → Prop} {first last : String}
    {middle : List String} (h : (first :: middle ++ [last]).IsChain relation) :
    Relation.TransGen relation first last := by
  cases middle with
  | nil => exact .single (by simpa using h)
  | cons second rest =>
      obtain ⟨hstep, hrest⟩ : relation first second ∧ (second :: (rest ++ [last])).IsChain relation := by
        simpa using h
      have hpath := List.relationReflTransGen_of_exists_isChain_cons (rest ++ [last]) hrest
        (by simp : (second :: (rest ++ [last])).getLast (List.cons_ne_nil _ _) = last)
      exact .head' hstep hpath

/-- From every entry of a cycle the dependencies lead back to it. -/
theorem SimpleCycle.transGen {chain : List String} (h : SimpleCycle dependencies chain) {id : String}
    (hid : id ∈ chain) :
    Relation.TransGen (fun dependent dependency => dependency ∈ dependencies dependent) id id := by
  obtain ⟨first, middle, rfl, -⟩ := h.closes
  have hlinked := h.linked
  have hinside : id ∈ first :: middle := by simpa [or_comm] using hid
  obtain ⟨before, after, hsplit⟩ := List.append_of_mem hinside
  rw [hsplit, List.append_assoc, List.cons_append] at hlinked
  have hafter := transGen_of_isChain hlinked.right_of_append
  cases before with
  | nil =>
      obtain ⟨rfl, -⟩ := List.cons.inj hsplit
      exact hafter
  | cons start before =>
      obtain ⟨rfl, -⟩ := List.cons.inj hsplit
      -- The part in front of the entry leads from the start, where the part behind it ends, to the entry.
      rw [List.append_cons] at hlinked
      exact hafter.trans (transGen_of_isChain hlinked.left_of_append)

/-! ### A reported chain is a cycle -/

/-- The path of a search: no formula twice, and each one a dependency of the one before it, which stands
after it. -/
structure Path (dependencies : String → List String) (path : List String) : Prop where
  distinct : path.Nodup
  linked : path.IsChain fun dependency dependent => dependency ∈ dependencies dependent

theorem Path.nil : Path dependencies [] :=
  ⟨List.nodup_nil, List.isChain_nil⟩

/-- The path grows by a dependency of its last formula, unless it is there already. -/
theorem Path.cons {path : List String} {id : String} (h : Path dependencies path)
    (hfresh : id ∉ path) (hreached : ∀ last ∈ path.head?, id ∈ dependencies last) :
    Path dependencies (id :: path) :=
  ⟨List.nodup_cons.2 ⟨hfresh, h.distinct⟩, h.linked.cons hreached⟩

/-- A dependency that lies on the path closes a cycle, and what was followed before it is left out. -/
theorem Path.simpleCycle {path : List String} {id : String} (h : Path dependencies path)
    (hmem : id ∈ path) (hreached : ∀ last ∈ path.head?, id ∈ dependencies last) :
    SimpleCycle dependencies (closeChain path id) := by
  -- The path is kept with its last formula in front, so the cycle is the part before the first occurrence,
  -- turned around.
  obtain ⟨inner, outer, rfl, hfresh⟩ := List.eq_append_cons_of_mem hmem
  have hinner : (inner ++ id :: outer).takeWhile (· ≠ id) = inner := by
    rw [List.takeWhile_append_of_pos (fun other hother => by
      simpa using fun heq : other = id => hfresh (heq ▸ hother))]
    simp
  have hloop : inner ++ id :: outer = (inner ++ [id]) ++ outer := by simp
  rw [closeChain, hinner]
  refine ⟨⟨id, inner.reverse, rfl, ?_⟩, ?_⟩
  · have hinnerDistinct : inner.Nodup := h.distinct.sublist (List.sublist_append_left _ _)
    exact List.nodup_cons.2 ⟨by simpa using hfresh, List.nodup_reverse.2 hinnerDistinct⟩
  · have hchain : (id :: (inner ++ [id])).IsChain
        fun dependency dependent => dependency ∈ dependencies dependent := by
      have hlinked : (inner ++ [id]).IsChain
          fun dependency dependent => dependency ∈ dependencies dependent :=
        (hloop ▸ h.linked).left_of_append
      refine hlinked.cons fun last hlast => hreached last ?_
      cases inner <;> simpa using hlast
    have hreverse := List.isChain_reverse.2 hchain
    simpa using hreverse

/-- Whatever chain the search reports, from any path and at any depth, is a simple cycle. -/
theorem simpleCycle_of_search {depth : Nat} {path followed ids chain : List String}
    (hpath : Path dependencies path)
    (hids : ∀ id ∈ ids, ∀ last ∈ path.head?, id ∈ dependencies last)
    (h : search dependencies depth path followed ids = .cycle chain) :
    SimpleCycle dependencies chain := by
  -- Only two cases report anything: a dependency on the path, and a chain found further below.
  fun_induction search dependencies depth path followed ids generalizing chain with
  | case1 => simp at h
  | case2 depth path followed id rest hmem =>
      obtain rfl : closeChain path id = chain := by simpa using h
      exact hpath.simpleCycle hmem (hids id List.mem_cons_self)
  | case3 depth path followed id rest _ _ ih =>
      exact ih hpath (fun other hother => hids other (List.mem_cons_of_mem _ hother)) h
  | case4 => simp at h
  | case5 path followed id rest hfresh _ below found hinner ih =>
      obtain rfl : found = chain := by simpa using h
      have hreached := hids id List.mem_cons_self
      exact ih (hpath.cons hfresh hreached) (by simp) hinner
  | case6 path followed id rest _ _ below after _ _ ih =>
      exact ih hpath (fun other hother => hids other (List.mem_cons_of_mem _ hother)) h

/-! ### Without a chain there is a respectful order -/

/-- What a search leaves behind that finds no cycle among formulas of a closed collection: the order in
which it has followed them respects the dependencies, and none that it was asked to follow is missing. -/
theorem runsFrom_of_search {formulas : List String}
    (hclosed : ∀ id ∈ formulas, dependencies id ⊆ formulas)
    {depth : Nat} {path followed ids after : List String}
    (hdistinct : path.Nodup) (hinside : path ⊆ formulas)
    (hroom : formulas.length < path.length + depth) (hids : ids ⊆ formulas)
    (hruns : RunsFrom dependencies [] followed.reverse)
    (h : search dependencies depth path followed ids = .clear after) :
    RunsFrom dependencies [] after.reverse ∧ followed ⊆ after ∧ ids ⊆ after := by
  fun_induction search dependencies depth path followed ids generalizing after with
  | case1 depth path followed =>
      obtain rfl : followed = after := by simpa using h
      exact ⟨hruns, List.Subset.refl _, List.nil_subset _⟩
  | case2 => simp at h
  | case3 depth path followed id rest _ hfollowed ih =>
      obtain ⟨hafter, hkept, hrest⟩ :=
        ih hdistinct hinside hroom (List.subset_of_cons_subset hids) hruns h
      exact ⟨hafter, hkept, List.cons_subset.2 ⟨hkept hfollowed, hrest⟩⟩
  | case4 path followed id rest hfresh _ =>
      -- The depth is not used up: `id` and the path are distinct formulas, and no more than there are.
      have hlength : (id :: path).length ≤ formulas.length :=
        (List.subperm_of_subset (List.nodup_cons.2 ⟨hfresh, hdistinct⟩)
          (List.cons_subset.2 ⟨hids List.mem_cons_self, hinside⟩)).length_le
      simp only [List.length_cons] at hlength
      omega
  | case5 => simp at h
  | case6 path followed id rest hfresh _ below inner hinner ihinner ih =>
      obtain ⟨hid, hrest⟩ := List.cons_subset.1 hids
      obtain ⟨hinnerRuns, hinnerKept, hfollowed⟩ :=
        ihinner (List.nodup_cons.2 ⟨hfresh, hdistinct⟩) (List.cons_subset.2 ⟨hid, hinside⟩)
          (by simp only [List.length_cons]; omega) (hclosed id hid) hruns hinner
      have hnext : RunsFrom dependencies [] (id :: inner).reverse := by
        rw [List.reverse_cons, runsFrom_append]
        refine ⟨hinnerRuns, fun dependency hdependency => ?_, trivial⟩
        simpa using hfollowed hdependency
      obtain ⟨hafter, hkept, hcovered⟩ := ih hdistinct hinside hroom hrest hnext h
      obtain ⟨hidKept, hinnerSub⟩ := List.cons_subset.1 hkept
      exact ⟨hafter, List.Subset.trans hinnerKept hinnerSub, List.cons_subset.2 ⟨hidKept, hcovered⟩⟩

/-! ### The first cycle of a collection -/

/-- The search from the registered formulas reports simple cycles only. -/
theorem simpleCycle_of_findCycle? {formulas : List Formula} {chain : List String}
    (h : findCycle? formulas = some chain) : SimpleCycle (dependenciesOf formulas) chain := by
  unfold findCycle? at h
  split at h
  · next found hsearch =>
      obtain rfl : found = chain := by simpa using h
      exact simpleCycle_of_search Path.nil (by simp) hsearch
  · simp at h

/-- Formulas among which no cycle is found can be put into a respectful order. -/
theorem exists_runsFrom_of_findCycle?_eq_none {formulas : List Formula} (hclosed : Closed formulas)
    (h : findCycle? formulas = none) :
    ∃ order, RunsFrom (dependenciesOf formulas) [] order ∧ formulas.map Formula.id ⊆ order := by
  unfold findCycle? at h
  split at h
  · simp at h
  · next followed hsearch =>
      have hstart : RunsFrom (dependenciesOf formulas) [] ([] : List String).reverse := trivial
      obtain ⟨hruns, -, hcovered⟩ :=
        runsFrom_of_search (fun id _ => dependenciesOf_subset hclosed id) List.nodup_nil
          (List.nil_subset _) (by simp) (List.Subset.refl _) hstart hsearch
      exact ⟨followed.reverse, hruns, fun id hid => List.mem_reverse.2 (hcovered hid)⟩

/-- The search finds a cycle exactly when there is one. -/
theorem findCycle?_eq_none_iff {formulas : List Formula}
    (hdistinct : (formulas.map Formula.id).Nodup) (hclosed : Closed formulas) :
    findCycle? formulas = none ↔ Acyclic formulas := by
  have hrelation : (fun dependent dependency => dependency ∈ dependenciesOf formulas dependent) =
      DependsOn formulas := by
    funext dependent dependency
    exact propext (mem_dependenciesOf_iff hdistinct)
  constructor
  -- Everything has been followed, and a respectful order has no place for a cycle.
  · intro hnone id hcycle
    obtain ⟨order, hruns, hcovered⟩ := exists_runsFrom_of_findCycle?_eq_none hclosed hnone
    obtain ⟨next, ⟨formula, hmem, rfl, -⟩, -⟩ := Relation.TransGen.head'_iff.1 hcycle
    exact hruns.not_transGen (hcovered (List.mem_map_of_mem hmem)) (hrelation ▸ hcycle)
  · intro hacyclic
    cases hfind : findCycle? formulas with
    | none => rfl
    | some chain =>
        have hcycle := simpleCycle_of_findCycle? hfind
        obtain ⟨id, middle, hchain, -⟩ := hcycle.closes
        have hid : id ∈ chain := by simp [hchain]
        exact absurd (hrelation ▸ hcycle.transGen hid) (hacyclic id)

end Formula

end Appraisal
