import Appraisal.Decimal.Arithmetic
import Appraisal.Proofs.Fallible

/-!
# Finite numbers

Arithmetic on finite numbers has a finite result or overflows.  Conversely a finite result comes from finite
numbers only, except that a number divided by an infinity is zero.
-/

namespace Appraisal
namespace Decimal

variable {α β : Type} {x y z : Decimal} {xs : List Decimal} {negative : Bool}

/-! ## Overflow -/

/-- The computation has a result with a property, or it overflows. -/
def OverflowOr (property : α → Prop) (answer : Except Signal α) : Prop :=
  (∃ result, answer = .ok result ∧ property result) ∨ answer = .error .overflow

theorem overflowOr_ok {property : α → Prop} {result : α} (h : property result) :
    OverflowOr property (.ok result) :=
  .inl ⟨result, rfl, h⟩

/-- What overflows has no result, so the property holds of every result that there is. -/
theorem OverflowOr.of_ok {property : α → Prop} {answer : Except Signal α} {result : α}
    (h : OverflowOr property answer) (hanswer : answer = .ok result) : property result := by
  rcases h with ⟨other, hother, hproperty⟩ | hoverflow
  · obtain rfl := Except.ok.inj (hother.symm.trans hanswer)
    exact hproperty
  · cases hoverflow.symm.trans hanswer

/-- An overflow ends the whole; otherwise the second part starts with what the first one ensures. -/
theorem OverflowOr.bind {before : α → Prop} {after : β → Prop} {first : Except Signal α}
    {next : α → Except Signal β} (hfirst : OverflowOr before first)
    (hnext : ∀ middle, before middle → OverflowOr after (next middle)) :
    OverflowOr after (first >>= next) := by
  rcases hfirst with ⟨middle, rfl, hmiddle⟩ | rfl
  · exact hnext middle hmiddle
  · exact .inr rfl

theorem overflowOr_foldlM {property : β → Prop} {step : β → α → Except Signal β} {items : List α}
    {start : β} (hstart : property start)
    (hstep : ∀ item ∈ items, ∀ state, property state → OverflowOr property (step state item)) :
    OverflowOr property (items.foldlM step start) := by
  induction items generalizing start with
  | nil => exact overflowOr_ok hstart
  | cons item rest ih =>
      rw [List.forall_mem_cons] at hstep
      rw [List.foldlM_cons]
      exact (hstep.1 start hstart).bind fun next hnext => ih hnext hstep.2

theorem overflowOr_mapM {property : β → Prop} {f : α → Except Signal β} {items : List α}
    (h : ∀ item ∈ items, OverflowOr property (f item)) :
    OverflowOr (fun results => ∀ result ∈ results, property result) (items.mapM f) := by
  induction items with
  | nil => exact overflowOr_ok (by simp)
  | cons item rest ih =>
      rw [List.forall_mem_cons] at h
      rw [List.mapM_cons]
      refine h.1.bind fun first hfirst => (ih h.2).bind fun others hothers => overflowOr_ok ?_
      exact List.forall_mem_cons.2 ⟨hfirst, hothers⟩

/-- The computation has a finite result, or it overflows. -/
abbrev FiniteOrOverflow : Except Signal Decimal → Prop :=
  OverflowOr fun result => result.isFinite = true

/-- Overflow is the only condition that rounding signals. -/
theorem finiteOrOverflow_round (negative : Bool) (coefficient : Nat) (exponent : Int) :
    FiniteOrOverflow (round negative coefficient exponent) := by
  cases hround : round negative coefficient exponent with
  | ok result => exact overflowOr_ok (round_isFinite hround)
  | error signal =>
      refine .inr ?_
      -- Every other branch of rounding has a result.
      unfold round at hround
      dsimp only at hround
      repeat' split at hround
      all_goals cases hround
      all_goals rfl

theorem undefinedOperand?_eq_none (hx : x.isFinite = true) (hy : y.isFinite = true) :
    undefinedOperand? x y = none := by
  obtain ⟨s, c, e, rfl⟩ := exists_finite hx
  obtain ⟨t, d, f, rfl⟩ := exists_finite hy
  rfl

theorem isFinite_negate (x : Decimal) : x.negate.isFinite = x.isFinite := by
  cases x <;> rfl

/-- Of finite numbers no undefined sum arises, since that takes two infinities. -/
theorem finiteOrOverflow_add (hx : x.isFinite = true) (hy : y.isFinite = true) :
    FiniteOrOverflow (x.add y) := by
  unfold add
  rw [undefinedOperand?_eq_none hx hy]
  obtain ⟨s, c, e, rfl⟩ := exists_finite hx
  obtain ⟨t, d, f, rfl⟩ := exists_finite hy
  dsimp only
  split <;> split <;> exact finiteOrOverflow_round ..

theorem finiteOrOverflow_sub (hx : x.isFinite = true) (hy : y.isFinite = true) :
    FiniteOrOverflow (x.sub y) := by
  unfold sub
  rw [undefinedOperand?_eq_none hx hy]
  exact finiteOrOverflow_add hx ((isFinite_negate y).trans hy)

theorem finiteOrOverflow_mul (hx : x.isFinite = true) (hy : y.isFinite = true) :
    FiniteOrOverflow (x.mul y) := by
  unfold mul
  rw [undefinedOperand?_eq_none hx hy]
  obtain ⟨s, c, e, rfl⟩ := exists_finite hx
  obtain ⟨t, d, f, rfl⟩ := exists_finite hy
  exact finiteOrOverflow_round ..

/-- A finite number is divided by a finite one that is not zero. -/
theorem finiteOrOverflow_div (hx : x.isFinite = true) (hy : y.isFinite = true)
    (hnonzero : y.isZero? = .ok false) : FiniteOrOverflow (x.div y) := by
  unfold div
  rw [undefinedOperand?_eq_none hx hy]
  obtain ⟨s, c, e, rfl⟩ := exists_finite hx
  obtain ⟨t, d, f, rfl⟩ := exists_finite hy
  have hd : d ≠ 0 := of_decide_eq_false (Except.ok.inj hnonzero)
  dsimp only
  rw [if_neg hd]
  split <;> exact finiteOrOverflow_round ..

theorem finiteOrOverflow_sum (hxs : ∀ x ∈ xs, x.isFinite = true) : FiniteOrOverflow (sum xs) :=
  overflowOr_foldlM rfl fun x hx _ htotal => finiteOrOverflow_add htotal (hxs x hx)

theorem finiteOrOverflow_product (hxs : ∀ x ∈ xs, x.isFinite = true) :
    FiniteOrOverflow (product xs) :=
  overflowOr_foldlM rfl fun x hx _ htotal => finiteOrOverflow_mul htotal (hxs x hx)

theorem undefined_of_undefinedOperand (h : undefinedOperand? x y = some (.ok z)) :
    ∃ negative payload, z = nan negative false payload := by
  unfold undefinedOperand? at h
  split at h <;> cases h <;> exact ⟨_, _, rfl⟩

theorem isFinite_of_add (h : x.add y = .ok z) (hz : z.isFinite = true) :
    x.isFinite = true ∧ y.isFinite = true := by
  unfold add at h
  -- An operand that is not finite makes the sum undefined, infinite or a failure.
  split at h
  · next hundefined =>
      obtain ⟨_, _, rfl⟩ := undefined_of_undefinedOperand (h ▸ hundefined)
      cases hz
  · split at h
    · split at h <;> cases h
      cases hz
    · cases h
      cases hz
    · cases h
      cases hz
    · exact ⟨rfl, rfl⟩
    · cases h

theorem isFinite_of_sub (h : x.sub y = .ok z) (hz : z.isFinite = true) :
    x.isFinite = true ∧ y.isFinite = true := by
  unfold sub at h
  split at h
  · next hundefined =>
      obtain ⟨_, _, rfl⟩ := undefined_of_undefinedOperand (h ▸ hundefined)
      cases hz
  · rw [← isFinite_negate y]
    exact isFinite_of_add h hz

theorem isFinite_of_mul (h : x.mul y = .ok z) (hz : z.isFinite = true) :
    x.isFinite = true ∧ y.isFinite = true := by
  unfold mul at h
  split at h
  · next hundefined =>
      obtain ⟨_, _, rfl⟩ := undefined_of_undefinedOperand (h ▸ hundefined)
      cases hz
  · split at h
    · exact ⟨rfl, rfl⟩
    · split at h <;> cases h
      cases hz
    · split at h <;> cases h
      cases hz
    · cases h
      cases hz
    · cases h

/-- An infinite product does not come from an undefined number. -/
theorem infinite_of_mul (h : x.mul y = .ok (infinite negative)) :
    x.isFinite = true ∨ ∃ sign, x = infinite sign := by
  unfold mul at h
  split at h
  · next hundefined =>
      obtain ⟨_, _, heq⟩ := undefined_of_undefinedOperand (h ▸ hundefined)
      cases heq
  · split at h
    · exact .inl rfl
    · exact .inr ⟨_, rfl⟩
    · exact .inl rfl
    · exact .inr ⟨_, rfl⟩
    · cases h

/-- A finite quotient says nothing about the size of the divisor: a number divided by an infinity is zero. -/
theorem isFinite_of_div (h : x.div y = .ok z) (hz : z.isFinite = true) :
    x.isFinite = true ∧ (y.isFinite = true ∨ ∃ negative, y = infinite negative) := by
  unfold div at h
  split at h
  · next hundefined =>
      obtain ⟨_, _, rfl⟩ := undefined_of_undefinedOperand (h ▸ hundefined)
      cases hz
  · split at h
    · exact ⟨rfl, .inl rfl⟩
    · cases h
      cases hz
    · exact ⟨rfl, .inr ⟨_, rfl⟩⟩
    · cases h

/-- One number that is not finite spoils a sum for good. -/
theorem isFinite_of_sum (h : sum xs = .ok z) (hz : z.isFinite = true) :
    ∀ x ∈ xs, x.isFinite = true := by
  refine (foldlM_origin (fun state => state.isFinite = true) (fun x => x.isFinite = true) ?_ h hz).2
  exact fun _ _ _ hnext hfinite => isFinite_of_add hnext hfinite

/-- One factor that is not finite spoils a product for good, also if another one is zero. -/
theorem isFinite_of_product (h : product xs = .ok z) (hz : z.isFinite = true) :
    ∀ x ∈ xs, x.isFinite = true := by
  refine (foldlM_origin (fun state => state.isFinite = true) (fun x => x.isFinite = true) ?_ h hz).2
  exact fun _ _ _ hnext hfinite => isFinite_of_mul hnext hfinite

end Decimal
end Appraisal
