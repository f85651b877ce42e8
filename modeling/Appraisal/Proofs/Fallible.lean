import Appraisal.Provenance.Reference
import Mathlib.Data.List.Forall2

/-!
# Computations that may fail

A sequence of computations yields a result exactly when each of them does.  What holds at the start of a
fold and is kept by every step that succeeds holds at the end, and a fold whose steps all succeed has a
result.
-/

namespace Appraisal

variable {ε α β : Type}

/-- The computation has a result. -/
def Returns (answer : Except ε α) : Prop :=
  ∃ result, answer = .ok result

@[simp] theorem returns_ok (result : α) : Returns (.ok result : Except ε α) :=
  ⟨result, rfl⟩

@[simp] theorem returns_pure (result : α) : Returns (pure result : Except ε α) :=
  ⟨result, rfl⟩

@[simp] theorem not_returns_error (error : ε) : ¬ Returns (.error error : Except ε α) := by
  rintro ⟨result, h⟩
  cases h

@[simp] theorem returns_map_iff {f : α → β} {answer : Except ε α} :
    Returns (f <$> answer) ↔ Returns answer := by
  cases answer with
  | error error => exact iff_of_false (not_returns_error error) (not_returns_error error)
  | ok result => exact iff_of_true (returns_ok (f result)) (returns_ok result)

theorem ok_bind (value : α) (next : α → Except ε β) :
    (Except.ok value >>= next) = next value := rfl

/-- A sequence has a result exactly by way of a result of its first part.  This is how every sequence in the
model is taken apart, without opening its parts. -/
theorem bind_eq_ok {first : Except ε α} {next : α → Except ε β} {result : β} :
    first >>= next = .ok result ↔ ∃ middle, first = .ok middle ∧ next middle = .ok result := by
  cases first with
  | error error => simp [bind, Except.bind]
  | ok middle => simp [bind, Except.bind]

theorem pure_eq_ok {value result : α} :
    (pure value : Except ε α) = .ok result ↔ value = result := by
  simp [pure, Except.pure]

/-- The first part must have a result from which the second one has a result. -/
theorem returns_bind_iff {first : Except ε α} {next : α → Except ε β} :
    Returns (first >>= next) ↔ ∃ middle, first = .ok middle ∧ Returns (next middle) := by
  simp only [Returns, bind_eq_ok]
  constructor
  · rintro ⟨result, middle, hmiddle, hresult⟩
    exact ⟨middle, hmiddle, result, hresult⟩
  · rintro ⟨middle, hmiddle, result, hresult⟩
    exact ⟨result, middle, hmiddle, hresult⟩

theorem Returns.bind {first : Except ε α} {next : α → Except ε β} (hfirst : Returns first)
    (hnext : ∀ middle, Returns (next middle)) : Returns (first >>= next) := by
  obtain ⟨middle, hmiddle⟩ := hfirst
  exact returns_bind_iff.2 ⟨middle, hmiddle, hnext middle⟩

/-- The second of two computations may succeed or fail regardless of the result of the first. -/
theorem returns_bind_iff_and {first : Except ε α} {next : α → Except ε β} {accepts : Prop}
    (h : ∀ middle, Returns (next middle) ↔ accepts) :
    Returns (first >>= next) ↔ Returns first ∧ accepts := by
  simp only [returns_bind_iff, h, exists_and_right]
  rfl

theorem ofDecimal_eq_ok {answer : Except Decimal.Signal α} {result : α} :
    Failure.ofDecimal answer = .ok result ↔ answer = .ok result := by
  cases answer <;> simp [Failure.ofDecimal]

theorem ofChecked_eq_ok {answer : Except SourceError α} {result : α} :
    SourceReference.ofChecked answer = .ok result ↔ answer = .ok result := by
  cases answer <;> simp [SourceReference.ofChecked]

theorem toOption_eq_some {answer : Except ε α} {result : α} :
    answer.toOption = some result ↔ answer = .ok result := by
  cases answer <;> simp [Except.toOption]

theorem map_toOption_eq_some {answer : Except ε α} {f : α → β} {image : β} :
    answer.toOption.map f = some image ↔ ∃ result, answer = .ok result ∧ f result = image := by
  rw [Option.map_eq_some_iff]
  simp only [toOption_eq_some]

/-! ## Which failures are possible -/

/-- The computation fails with accepted errors only, if it fails. -/
def FailsOnly (accepts : ε → Prop) (answer : Except ε α) : Prop :=
  ∀ error, answer = .error error → accepts error

theorem failsOnly_ok (accepts : ε → Prop) (result : α) : FailsOnly accepts (.ok result) := by
  intro error h
  cases h

/-- The errors of a sequence are those of its parts, so a class that holds all of them holds the errors of the
whole. -/
theorem FailsOnly.bind {accepts : ε → Prop} {first : Except ε α} {next : α → Except ε β}
    (hfirst : FailsOnly accepts first) (hnext : ∀ middle, FailsOnly accepts (next middle)) :
    FailsOnly accepts (first >>= next) := by
  cases first with
  | error error => exact fun other h => hfirst other (by cases h; rfl)
  | ok middle => exact hnext middle

/-- A fold has no errors but those of its steps. -/
theorem FailsOnly.foldlM {accepts : ε → Prop} {step : β → α → Except ε β} {items : List α}
    (h : ∀ item ∈ items, ∀ state, FailsOnly accepts (step state item)) (start : β) :
    FailsOnly accepts (items.foldlM step start) := by
  induction items generalizing start with
  | nil => exact failsOnly_ok accepts start
  | cons item rest ih =>
      rw [List.forall_mem_cons] at h
      rw [List.foldlM_cons]
      exact (h.1 start).bind fun next => ih h.2 next

/-! ## Folds and lists -/

/-- What is true of no items and the start, and is kept by every step that succeeds, is true of all items
and the final state.  A step may use that the items before it have been folded. -/
theorem foldlM_invariant {step : β → α → Except ε β} {items : List α} {start final : β}
    (motive : List α → β → Prop) (hstart : motive [] start)
    (hstep : ∀ before item after state next, items = before ++ item :: after →
      motive before state → step state item = .ok next → motive (before ++ [item]) next)
    (h : items.foldlM step start = .ok final) : motive items final := by
  -- The induction is on the items that are still to come, so the statement carries along those that are
  -- done.
  suffices hrest : ∀ rest before state, items = before ++ rest → motive before state →
      rest.foldlM step state = .ok final → motive items final from
    hrest items [] start rfl hstart h
  intro rest
  induction rest with
  | nil =>
      intro before state hitems hbefore hfinal
      obtain rfl : state = final := pure_eq_ok.1 hfinal
      rwa [hitems, List.append_nil]
  | cons item rest ih =>
      intro before state hitems hbefore hfinal
      rw [List.foldlM_cons] at hfinal
      obtain ⟨next, hnext, hfinal⟩ := bind_eq_ok.1 hfinal
      exact ih (before ++ [item]) next (by simpa using hitems)
        (hstep before item rest state next hitems hbefore hnext) hfinal

/-- What can be said of the final state goes back to the start and to all items, if every step takes it back
to its state and its item. -/
theorem foldlM_origin {step : β → α → Except ε β} {items : List α} {start final : β}
    (property : β → Prop) (accepts : α → Prop)
    (hstep : ∀ state item next, step state item = .ok next → property next →
      property state ∧ accepts item)
    (h : items.foldlM step start = .ok final) (hfinal : property final) :
    property start ∧ ∀ item ∈ items, accepts item := by
  induction items generalizing start with
  | nil =>
      obtain rfl : start = final := pure_eq_ok.1 h
      exact ⟨hfinal, by simp⟩
  | cons item rest ih =>
      rw [List.foldlM_cons] at h
      obtain ⟨next, hnext, h⟩ := bind_eq_ok.1 h
      -- The last state has the property first; the induction hypothesis takes it back to the state after
      -- this item.
      obtain ⟨hproperty, hrest⟩ := ih h
      obtain ⟨hstart, hitem⟩ := hstep start item next hnext hproperty
      exact ⟨hstart, List.forall_mem_cons.2 ⟨hitem, hrest⟩⟩

/-- A fold has a result when every step has one and keeps what the next step needs; the result has it too. -/
theorem foldlM_exists {step : β → α → Except ε β} {items : List α} {start : β}
    (motive : List α → β → Prop) (hstart : motive [] start)
    (hstep : ∀ before item after state, items = before ++ item :: after → motive before state →
      ∃ next, step state item = .ok next ∧ motive (before ++ [item]) next) :
    ∃ final, items.foldlM step start = .ok final ∧ motive items final := by
  suffices hrest : ∀ rest before state, items = before ++ rest → motive before state →
      ∃ final, rest.foldlM step state = .ok final ∧ motive items final from
    hrest items [] start rfl hstart
  intro rest
  -- As for the invariant: what has been folded grows while what is left shrinks.
  induction rest with
  | nil =>
      intro before state hitems hbefore
      rw [List.append_nil] at hitems
      exact ⟨state, rfl, hitems ▸ hbefore⟩
  | cons item rest ih =>
      intro before state hitems hbefore
      obtain ⟨next, hnext, hafter⟩ := hstep before item rest state hitems hbefore
      rw [List.foldlM_cons, hnext]
      exact ih (before ++ [item]) next (by simpa using hitems) hafter

theorem foldlM_returns {step : β → α → Except ε β} {items : List α} {start : β}
    (motive : List α → β → Prop) (hstart : motive [] start)
    (hstep : ∀ before item after state, items = before ++ item :: after → motive before state →
      ∃ next, step state item = .ok next ∧ motive (before ++ [item]) next) :
    Returns (items.foldlM step start) :=
  (foldlM_exists motive hstart hstep).imp fun _ h => h.1

/-- A fold whose steps succeed or fail by their items alone has a result when all items are accepted. -/
theorem foldlM_returns_iff {step : β → α → Except ε β} {accepts : α → Prop}
    (h : ∀ item state, Returns (step state item) ↔ accepts item) (items : List α) (start : β) :
    Returns (items.foldlM step start) ↔ ∀ item ∈ items, accepts item := by
  induction items generalizing start with
  | nil => simp
  | cons item rest ih =>
      rw [List.foldlM_cons, returns_bind_iff_and ih, List.forall_mem_cons, h item start]

/-- A list of computations has a result exactly when each of them has one. -/
theorem mapM_returns_iff {f : α → Except ε β} {items : List α} :
    Returns (items.mapM f) ↔ ∀ item ∈ items, Returns (f item) := by
  induction items with
  | nil => simp
  | cons item rest ih =>
      rw [List.mapM_cons, List.forall_mem_cons, ← ih]
      exact returns_bind_iff_and fun result => by simp

/-- The results belong to the items one by one. -/
theorem mapM_eq_ok_iff {f : α → Except ε β} {items : List α} {results : List β} :
    items.mapM f = .ok results ↔
      List.Forall₂ (fun item result => f item = .ok result) items results := by
  induction items generalizing results with
  | nil => cases results <;> simp [pure_eq_ok]
  | cons item rest ih =>
      rw [List.mapM_cons, bind_eq_ok]
      constructor
      · rintro ⟨first, hfirst, h⟩
        obtain ⟨others, hothers, h⟩ := bind_eq_ok.1 h
        obtain rfl := pure_eq_ok.1 h
        exact .cons hfirst (ih.1 hothers)
      · rintro (_ | ⟨hfirst, hothers⟩)
        exact ⟨_, hfirst, bind_eq_ok.2 ⟨_, ih.2 hothers, rfl⟩⟩

/-- Every result stems from an item. -/
theorem exists_of_mem_right {related : α → β → Prop} {items : List α} {results : List β}
    (h : List.Forall₂ related items results) {result : β} (hmem : result ∈ results) :
    ∃ item ∈ items, related item result := by
  induction h with
  | nil => cases hmem
  | cons hfirst _ ih =>
      rcases List.mem_cons.1 hmem with rfl | hmem
      · exact ⟨_, List.mem_cons_self .., hfirst⟩
      · obtain ⟨other, hother, hresult⟩ := ih hmem
        exact ⟨other, List.mem_cons_of_mem _ hother, hresult⟩

theorem exists_of_mem_left {related : α → β → Prop} {items : List α} {results : List β}
    (h : List.Forall₂ related items results) {item : α} (hmem : item ∈ items) :
    ∃ result ∈ results, related item result :=
  exists_of_mem_right h.flip hmem

theorem exists_of_mem_mapM {f : α → Except ε β} {items : List α} {results : List β}
    (h : items.mapM f = .ok results) {result : β} (hmem : result ∈ results) :
    ∃ item ∈ items, f item = .ok result :=
  exists_of_mem_right (mapM_eq_ok_iff.1 h) hmem

/-- The results of two computations on the same items belong together one by one. -/
theorem forall₂_of_mapM {γ : Type} {f : α → Except ε β} {g : α → Except ε γ} {related : β → γ → Prop}
    {items : List α} {results : List β} {others : List γ} (hf : items.mapM f = .ok results)
    (hg : items.mapM g = .ok others)
    (hstep : ∀ item, ∀ result ∈ results, ∀ other ∈ others, f item = .ok result → g item = .ok other →
      related result other) : List.Forall₂ related results others := by
  rw [mapM_eq_ok_iff] at hf hg
  induction hf generalizing others with
  | nil =>
      cases hg
      exact .nil
  | cons hfirst _ ih =>
      cases hg with
      | cons hother hothers =>
          refine .cons (hstep _ _ (List.mem_cons_self ..) _ (List.mem_cons_self ..) hfirst hother) ?_
          exact ih hothers fun item result hresult other hmem =>
            hstep item result (List.mem_cons_of_mem _ hresult) other (List.mem_cons_of_mem _ hmem)

/-- All items have a result when these are the results. -/
theorem mapM_eq_some_iff {f : α → Option β} {items : List α} {results : List β} :
    items.mapM f = some results ↔ items.map f = results.map some := by
  induction items generalizing results with
  | nil => cases results <;> simp
  | cons item rest ih =>
      simp only [List.mapM_cons, Option.bind_eq_bind, Option.bind_eq_some_iff, Option.pure_def,
        Option.some.injEq, ih, List.map_cons]
      constructor
      · rintro ⟨first, hfirst, others, hothers, rfl⟩
        rw [hfirst, hothers, List.map_cons]
      · intro h
        obtain ⟨first, others, rfl, hfirst, hothers⟩ := List.map_eq_cons_iff.1 h.symm
        exact ⟨first, hfirst.symm, others, hothers.symm, rfl⟩

/-- One item without a result is enough for the whole to have none. -/
theorem mapM_eq_none_iff {f : α → Option β} {items : List α} :
    items.mapM f = none ↔ none ∈ items.map f := by
  induction items with
  | nil => simp
  | cons item rest ih =>
      rw [List.mapM_cons, List.map_cons, List.mem_cons, ← ih]
      -- If this item has a result, the others decide.
      cases hitem : f item with
      | none => simp
      | some result => cases rest.mapM f <;> simp

/-- A check that hands on what it accepts leaves a list of accepted items as it is. -/
theorem mapM_eq_self {f : α → Except ε α} {items : List α} (h : ∀ item ∈ items, f item = .ok item) :
    items.mapM f = .ok items :=
  mapM_eq_ok_iff.2 (List.forall₂_same.2 h)

theorem map_eq_of_mapM_pure {f : α → β} {items : List α} {results : List β}
    (h : items.mapM (fun item => (pure (f item) : Except ε β)) = pure results) :
    items.map f = results := by
  rw [List.mapM_pure] at h
  exact pure_eq_ok.1 h

/-- Two steps that agree on every item fold in the same way. -/
theorem foldlM_congr {first second : β → α → Except ε β} {items : List α}
    (h : ∀ item ∈ items, ∀ state, first state item = second state item) (start : β) :
    items.foldlM first start = items.foldlM second start := by
  induction items generalizing start with
  | nil => rfl
  | cons item rest ih =>
      rw [List.forall_mem_cons] at h
      rw [List.foldlM_cons, List.foldlM_cons, h.1]
      exact congrArg _ (funext fun next => ih h.2 next)

/-- What every step takes from one state to the next is taken from start to end. -/
theorem foldlM_transfer {γ : Type} {step : β → α → Except ε β} {other : γ → α → Except ε γ}
    (translate : β → γ)
    (hstep : ∀ item state next, step state item = .ok next →
      other (translate state) item = .ok (translate next)) {items : List α} {start final : β}
    (h : items.foldlM step start = .ok final) :
    items.foldlM other (translate start) = .ok (translate final) := by
  induction items generalizing start with
  | nil =>
      obtain rfl := pure_eq_ok.1 h
      rfl
  | cons item rest ih =>
      rw [List.foldlM_cons] at h
      obtain ⟨next, hnext, h⟩ := bind_eq_ok.1 h
      rw [List.foldlM_cons, hstep item start next hnext]
      exact ih h

/-- What every step hands on is the same before and after the steps. -/
theorem map_eq_of_mapM {γ : Type} {f : α → Except ε β} {before : α → γ} {after : β → γ}
    (hstep : ∀ item result, f item = .ok result → after result = before item) {items : List α}
    {results : List β} (h : items.mapM f = .ok results) :
    results.map after = items.map before := by
  rw [mapM_eq_ok_iff] at h
  induction h with
  | nil => rfl
  | cons hfirst _ ih => rw [List.map_cons, List.map_cons, hstep _ _ hfirst, ih]

/-- There is either nothing to do and nothing done, or an item and its result. -/
theorem optionMapM_eq_ok {f : α → Except ε β} {found : Option α} {result : Option β}
    (h : found.mapM f = .ok result) :
    (found = none ∧ result = none) ∨
      ∃ item value, found = some item ∧ f item = .ok value ∧ result = some value := by
  cases found with
  | none =>
      obtain rfl := pure_eq_ok.1 h
      exact .inl ⟨rfl, rfl⟩
  | some item =>
      rw [Option.mapM_some] at h
      -- A failure of the item would be the result.
      cases hitem : f item with
      | error error =>
          rw [hitem] at h
          cases h
      | ok value =>
          rw [hitem] at h
          obtain rfl := Except.ok.inj h
          exact .inr ⟨item, value, rfl, hitem, rfl⟩

theorem forall_of_optionMapM {f : α → Except ε β} {found : Option α} {result : Option β}
    (h : found.mapM f = .ok result) {property : β → Prop}
    (hf : ∀ item, found = some item → ∀ value, f item = .ok value → property value) :
    ∀ value, result = some value → property value := by
  intro value hvalue
  rcases optionMapM_eq_ok h with ⟨-, hnone⟩ | ⟨item, other, hitem, hother, hsome⟩
  · rw [hnone] at hvalue
    cases hvalue
  · obtain rfl := Option.some.inj (hsome.symm.trans hvalue)
    exact hf item hitem other hother

theorem returns_optionMapM_iff {f : α → Except ε β} {found : Option α} :
    Returns (found.mapM f) ↔ ∀ item, found = some item → Returns (f item) := by
  cases found with
  | none => simp
  | some item => simp

/-! ## Building -/

namespace Build

/-- The building comes to an end, whatever has been drawn before. -/
def Completes (build : Build α) : Prop :=
  ∀ supply, Returns (build supply)

/-- What the first part of a building leaves in the supply is what the second part draws from. -/
theorem bind_eq_ok {first : Build α} {next : α → Build β} {supply rest : IdSupply} {result : β} :
    (first >>= next) supply = .ok (result, rest) ↔
      ∃ middle between, first supply = .ok (middle, between) ∧
        next middle between = .ok (result, rest) := by
  change (first supply >>= fun middle => next middle.1 middle.2) = _ ↔ _
  rw [Appraisal.bind_eq_ok, Prod.exists]

theorem ofExcept_eq_ok {answer : Except Failure α} {supply rest : IdSupply} {result : α} :
    ofExcept answer supply = .ok (result, rest) ↔ answer = .ok result ∧ supply = rest := by
  cases answer <;> simp [ofExcept]

theorem ofExcept_bind (answer : Except Failure α) (next : α → Build β) (supply : IdSupply) :
    (ofExcept answer >>= next) supply = answer >>= fun middle => next middle supply := by
  cases answer <;> rfl

theorem completes_pure (result : α) : Completes (pure result : Build α) :=
  fun supply => ⟨(result, supply), rfl⟩

/-- Two parts that come to an end with any supply do so in sequence. -/
theorem Completes.bind {first : Build α} {next : α → Build β} (hfirst : first.Completes)
    (hnext : ∀ middle, (next middle).Completes) : (first >>= next).Completes := by
  intro supply
  obtain ⟨⟨middle, between⟩, hmiddle⟩ := hfirst supply
  obtain ⟨⟨result, rest⟩, hresult⟩ := hnext middle between
  exact ⟨(result, rest), bind_eq_ok.2 ⟨middle, between, hmiddle, hresult⟩⟩

theorem completes_ofExcept {answer : Except Failure α} (h : Returns answer) :
    (ofExcept answer).Completes := by
  obtain ⟨result, rfl⟩ := h
  exact fun supply => ⟨(result, supply), rfl⟩

theorem completes_mapM {f : α → Build β} {items : List α}
    (h : ∀ item ∈ items, (f item).Completes) : (items.mapM f).Completes := by
  induction items with
  | nil => exact completes_pure []
  | cons item rest ih =>
      rw [List.forall_mem_cons] at h
      rw [List.mapM_cons]
      exact h.1.bind fun first => (ih h.2).bind fun others => completes_pure _

/-- Every result was built of an item, with whatever was left in the supply by then. -/
theorem exists_of_mem_mapM {f : α → Build β} {items : List α} {results : List β}
    {supply rest : IdSupply} (h : items.mapM f supply = .ok (results, rest)) {result : β}
    (hmem : result ∈ results) :
    ∃ item ∈ items, ∃ before after, f item before = .ok (result, after) := by
  induction items generalizing results supply with
  | nil =>
      rw [List.mapM_nil] at h
      cases h
      cases hmem
  | cons item others ih =>
      rw [List.mapM_cons] at h
      obtain ⟨first, between, hfirst, h⟩ := bind_eq_ok.1 h
      obtain ⟨following, after, hfollowing, h⟩ := bind_eq_ok.1 h
      cases h
      rcases List.mem_cons.1 hmem with rfl | hmem
      · exact ⟨item, List.mem_cons_self .., supply, between, hfirst⟩
      · obtain ⟨other, hother, hresult⟩ := ih hfollowing hmem
        exact ⟨other, List.mem_cons_of_mem _ hother, hresult⟩

end Build

end Appraisal
