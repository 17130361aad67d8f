import Mathlib.Algebra.BigOperators.Group.Finset.Basic
import Mathlib.Algebra.BigOperators.Group.Finset.Piecewise
import Mathlib.Algebra.Order.BigOperators.Group.Finset
import Mathlib.Data.Fintype.Basic
import Mathlib.Data.Fintype.Card

/-!
# Loads

An assignment gives every item to one owner.  The load of an owner is the number of
its items; the sum of the loads over all items falls whenever an item moves from an
owner to one whose load is smaller by two or more.

The last part is about loops that walk a list and keep the best element so far.
-/

namespace MultiRaft

namespace Balance

universe u v

variable {Item : Type u} {Owner : Type v} [Fintype Item] [DecidableEq Owner]

def load (assignment : Item → Owner) (owner : Owner) : Nat :=
  (Finset.univ.filter fun item => assignment item = owner).card

/-- Each item counts the load of its owner. -/
def imbalance (assignment : Item → Owner) : Nat :=
  ∑ item, load assignment (assignment item)

variable (assignment : Item → Owner) (owner : Owner)

theorem load_le_card : load assignment owner ≤ Fintype.card Item :=
  Finset.card_filter_le _ _

theorem imbalance_le : imbalance assignment ≤ Fintype.card Item * Fintype.card Item := by
  have bounded : ∀ item ∈ Finset.univ, load assignment (assignment item) ≤ Fintype.card Item :=
    fun item _ => load_le_card assignment _
  exact Finset.sum_le_card_nsmul _ _ _ bounded

variable [DecidableEq Item] (item : Item)

/-- The load of an owner, with one item left out. -/
def loadWithout (item : Item) (owner : Owner) : Nat :=
  ((Finset.univ.erase item).filter fun other => assignment other = owner).card

theorem load_of_owner :
    load assignment (assignment item) = loadWithout assignment item (assignment item) + 1 := by
  have split : Finset.univ = insert item (Finset.univ.erase item) :=
    (Finset.insert_erase (Finset.mem_univ item)).symm
  rw [load, split, Finset.filter_insert, if_pos rfl, Finset.card_insert_of_notMem]
  · rfl
  · simp

theorem load_of_ne {owner : Owner} (away : assignment item ≠ owner) :
    load assignment owner = loadWithout assignment item owner := by
  have split : Finset.univ = insert item (Finset.univ.erase item) :=
    (Finset.insert_erase (Finset.mem_univ item)).symm
  rw [load, split, Finset.filter_insert, if_neg away]
  rfl

/-- The part of the sum that one item has: its own summand, and one in the summand of
each item that shares its owner. -/
theorem imbalance_eq : imbalance assignment =
    ∑ other ∈ Finset.univ.erase item, loadWithout assignment item (assignment other) +
      2 * loadWithout assignment item (assignment item) + 1 := by
  have summand : ∀ other, load assignment (assignment other) =
      loadWithout assignment item (assignment other) +
        if assignment other = assignment item then 1 else 0 := by
    intro other
    split
    · rename_i shared
      rw [shared]
      exact load_of_owner assignment item
    · rename_i apart
      exact load_of_ne assignment item (Ne.symm apart)
  rw [imbalance, ← Finset.add_sum_erase _ _ (Finset.mem_univ item), load_of_owner,
    Finset.sum_congr rfl fun other _ => summand other, Finset.sum_add_distrib,
    ← Finset.card_filter, ← loadWithout]
  omega

theorem loadWithout_update (receiver : Owner) :
    loadWithout (Function.update assignment item receiver) item owner =
      loadWithout assignment item owner := by
  unfold loadWithout
  congr 1
  apply Finset.filter_congr
  intro other among
  rw [Function.update_of_ne (Finset.ne_of_mem_erase among)]

/-- What a move does to the sum. -/
theorem imbalance_update {receiver : Owner} (away : assignment item ≠ receiver) :
    imbalance (Function.update assignment item receiver) + 2 * load assignment (assignment item) =
      imbalance assignment + 2 * load assignment receiver + 2 := by
  have others : ∀ other ∈ Finset.univ.erase item,
      loadWithout (Function.update assignment item receiver) item
        (Function.update assignment item receiver other) =
      loadWithout assignment item (assignment other) := by
    intro other among
    rw [loadWithout_update, Function.update_of_ne (Finset.ne_of_mem_erase among)]
  rw [imbalance_eq _ item, imbalance_eq assignment item, Finset.sum_congr rfl others,
    Function.update_self, loadWithout_update, load_of_owner, load_of_ne assignment item away]
  omega

end Balance

section Best

universe u v

variable {Item : Type u} {Score : Type v}

/-- One step of a loop over candidates: `takes item score` says that the item replaces a
best one of that score. -/
def keepBest (takes : Item → Score → Prop) [∀ item score, Decidable (takes item score)]
    (score : Item → Score) (best : Item × Score) (item : Item) : Item × Score :=
  if takes item best.2 then (item, score item) else best

variable (takes : Item → Score → Prop) [∀ item score, Decidable (takes item score)]
  (score : Item → Score)

/-- The loop ends with what it began with, or with an item that was taken. -/
theorem foldl_keepBest_cases (items : List Item) (best : Item × Score) :
    items.foldl (keepBest takes score) best = best ∨
      ∃ item ∈ items, (∃ beaten, takes item beaten) ∧
        items.foldl (keepBest takes score) best = (item, score item) := by
  induction items generalizing best with
  | nil => exact .inl rfl
  | cons first items inductionHypothesis =>
      rw [List.foldl_cons]
      rcases inductionHypothesis (keepBest takes score best first) with
        kept | ⟨item, among, taken, last⟩
      · rw [kept, keepBest]
        split
        · rename_i takesFirst
          exact .inr ⟨first, List.mem_cons_self, ⟨_, takesFirst⟩, rfl⟩
        · exact .inl rfl
      · exact .inr ⟨item, List.mem_cons_of_mem _ among, taken, last⟩

/-- Scores only improve, so what was once refused is refused at the end. -/
theorem not_takes_foldl_keepBest
    (improves : ∀ item other best, takes other best → ¬ takes item best →
      ¬ takes item (score other))
    (irrefl : ∀ item, ¬ takes item (score item)) (items : List Item) (best : Item × Score) :
    (∀ item, ¬ takes item best.2 →
      ¬ takes item (items.foldl (keepBest takes score) best).2) ∧
    ∀ item ∈ items, ¬ takes item (items.foldl (keepBest takes score) best).2 := by
  induction items generalizing best with
  | nil => exact ⟨fun _ refused => refused, fun _ among => absurd among List.not_mem_nil⟩
  | cons first items inductionHypothesis =>
      obtain ⟨early, later⟩ := inductionHypothesis (keepBest takes score best first)
      have refusesFirst : ¬ takes first (keepBest takes score best first).2 := by
        rw [keepBest]
        split
        · exact irrefl first
        · assumption
      rw [List.foldl_cons]
      refine ⟨?_, ?_⟩
      · intro item refused
        apply early
        rw [keepBest]
        split
        · rename_i takesFirst
          exact improves item first best.2 takesFirst refused
        · exact refused
      · intro item among
        rcases List.mem_cons.mp among with rfl | rest
        · exact early _ refusesFirst
        · exact later item rest

end Best

end MultiRaft
