import Appraisal.Formula.Definition

/-!
# Dependencies between formulas

Formulas that use the results of others are searched for circles, and put in an order in which they can run.
-/

namespace Appraisal

/-!
## Circular dependencies

A depth-first search follows the dependencies of each formula in order, starting at the formulas in the
order of their registration.  The first dependency that leads back into the current path closes a cycle,
which is reported from its entry on.  Formulas whose dependencies have all been followed without a cycle
are not followed again.
-/

namespace Formula

/-- The formula of an identifier. -/
def find? (formulas : List Formula) (id : String) : Option Formula :=
  formulas.find? fun formula => formula.id == id

/-- The dependencies of the formula of an identifier. -/
def dependenciesOf (formulas : List Formula) (id : String) : List String :=
  match find? formulas id with
  | some formula => formula.dependencies
  | none => []

/-- What a search has found. -/
inductive Search where
  /-- A chain of dependencies that starts and ends with the same formula. -/
  | cycle (chain : List String)
  /-- No cycle; these formulas need not be followed again. -/
  | clear (followed : List String)
  deriving DecidableEq, Repr

/-- The chain that a formula closes; the path is given last one first. -/
def closeChain (path : List String) (id : String) : List String :=
  id :: (path.takeWhile (· ≠ id)).reverse ++ [id]

/-- Follows some formulas that the last formula of a path depends on.

The depth bounds the length of the paths that are followed; a path without repetition is never longer
than the number of formulas. -/
def search (dependencies : String → List String) (depth : Nat) (path followed : List String) :
    List String → Search
  | [] => .clear followed
  | id :: rest =>
      if id ∈ path then .cycle (closeChain path id)
      else if id ∈ followed then search dependencies depth path followed rest
      else
        match depth with
        | 0 => .clear followed
        | below + 1 =>
            match search dependencies below (id :: path) followed (dependencies id) with
            | .cycle chain => .cycle chain
            | .clear followed => search dependencies (below + 1) path (id :: followed) rest
termination_by ids => (depth, ids.length)

/-- The first cycle among the dependencies of some formulas. -/
def findCycle? (formulas : List Formula) : Option (List String) :=
  match search (dependenciesOf formulas) (formulas.length + 1) [] [] (formulas.map Formula.id) with
  | .cycle chain => some chain
  | .clear _ => none

end Formula

/-!
## The agenda

Formulas are put in order by means of an agenda of two lists: the ready ones, sorted by the place of their
registration, and the blocked ones, each with the number of formulas that it still waits for.  The first
ready formula is taken, and every formula that depends on it waits for one formula less; those that wait
for none any more join the ready ones.
-/

namespace Agenda

/-- A formula that has not been taken yet. -/
structure Item where
  place : Nat
  formula : Formula
  /-- How many of the formulas that it depends on have not been taken yet. -/
  missing : Nat
  deriving DecidableEq, Repr

/-- Whether a formula waits for no other. -/
def Item.isReady (item : Item) : Bool :=
  item.missing == 0

/-- An item when a formula has been taken. -/
def Item.notify (id : String) (item : Item) : Item :=
  if id ∈ item.formula.dependencies then { item with missing := item.missing - 1 } else item

/-- The blocked items when a formula has been taken; some of them may be ready now. -/
def notifyAll (id : String) (blocked : List Item) : List Item :=
  blocked.map (Item.notify id)

/-- Puts an item into its place among items that are sorted. -/
def push (item : Item) : List Item → List Item
  | [] => [item]
  | head :: rest => if item.place < head.place then item :: head :: rest else head :: push item rest

/-- Puts items into their places among items that are sorted. -/
def pushAll (ready items : List Item) : List Item :=
  items.foldl (fun ready item => push item ready) ready

theorem length_notifyAll (id : String) (blocked : List Item) :
    (notifyAll id blocked).length = blocked.length :=
  List.length_map ..

theorem push_perm (item : Item) (ready : List Item) : (push item ready).Perm (item :: ready) := by
  induction ready with
  | nil => exact .refl _
  | cons head rest ih =>
      unfold push
      split
      · exact .refl _
      · exact (ih.cons head).trans (.swap item head rest)

theorem pushAll_perm (ready items : List Item) : (pushAll ready items).Perm (ready ++ items) := by
  induction items generalizing ready with
  | nil => simp [pushAll]
  | cons item items ih =>
      have hpush : (push item ready ++ items).Perm (item :: ready ++ items) :=
        (push_perm item ready).append_right items
      exact (ih (push item ready)).trans (hpush.trans List.perm_middle.symm)

/-- Takes the ready formulas in order, until none is ready.  Formulas that stay blocked are left out. -/
def run (ready blocked : List Item) : List Formula :=
  match ready with
  | [] => []
  | next :: ready =>
      let notified := notifyAll next.formula.id blocked
      next.formula ::
        run (pushAll ready (notified.filter Item.isReady)) (notified.filter fun item => !item.isReady)
termination_by ready.length + blocked.length
decreasing_by
  have hsplit := (List.filter_append_perm Item.isReady (notifyAll next.formula.id blocked)).length_eq
  rw [List.length_append, length_notifyAll] at hsplit
  rw [(pushAll_perm _ _).length_eq, List.length_append, List.length_cons]
  omega

/-- The items of formulas of which none has been taken. -/
def items (formulas : List Formula) : List Item :=
  formulas.zipIdx.map fun (formula, place) =>
    { place, formula
      missing := formulas.countP fun other => other.id ∈ formula.dependencies }

/-- The formulas in an order in which every formula comes after those that it depends on; among formulas
that are ready, the one registered first comes first. -/
def order (formulas : List Formula) : List Formula :=
  run ((items formulas).filter Item.isReady) ((items formulas).filter fun item => !item.isReady)

end Agenda

end Appraisal
