import Mathlib.Data.Fintype.Card
import Mathlib.Data.List.Sort
import Mathlib.Data.Fintype.Fin

/-!
# Majorities of a finite set

Two majorities of one set meet, which is all that elections and commitment by
counting rest on.  The lower median of a family of numbers is the greatest number
that a majority reaches.
-/

namespace MultiRaft

variable {Server : Type*} [Fintype Server]

/-- More than half of all servers. -/
def Majority (servers : Finset Server) : Prop :=
  Fintype.card Server < 2 * servers.card

instance (servers : Finset Server) : Decidable (Majority servers) :=
  inferInstanceAs (Decidable (_ < _))

theorem Majority.mono {small large : Finset Server} (included : small ⊆ large)
    (majority : Majority small) : Majority large := by
  have grown := Finset.card_le_card included
  unfold Majority at majority ⊢
  omega

theorem Majority.meet [DecidableEq Server] {first second : Finset Server}
    (left : Majority first) (right : Majority second) :
    ∃ server, server ∈ first ∧ server ∈ second := by
  by_contra apart
  have disjoint : Disjoint first second :=
    Finset.disjoint_left.mpr fun server inFirst inSecond =>
      apart ⟨server, inFirst, inSecond⟩
  have together : (first ∪ second).card ≤ Fintype.card Server := Finset.card_le_univ _
  rw [Finset.card_union_of_disjoint disjoint] at together
  unfold Majority at left right
  omega

/-- The comparison `votes > len(peers)/2` of an integer counter. -/
theorem majority_iff_half_lt (servers : Finset Server) :
    Majority servers ↔ Fintype.card Server / 2 < servers.card := by
  unfold Majority
  omega

theorem card_filter_le_eq_countP {n : Nat} (values : Fin n → Nat) (bound : Nat) :
    (Finset.univ.filter fun server => bound ≤ values server).card =
      (List.ofFn values).countP fun value => decide (bound ≤ value) := by
  rw [List.ofFn_eq_map, List.countP_map, Fin.univ_def]
  simp [Finset.filter, List.countP_eq_length_filter, Function.comp_def]

/-- From any position of a sorted list on, no element is smaller. -/
theorem length_drop_le_countP {values : List Nat} (sorted : values.Pairwise (· ≤ ·))
    {position bound : Nat} (found : values[position]? = some bound) :
    (values.drop position).length ≤ values.countP fun value => decide (bound ≤ value) := by
  obtain ⟨within, rfl⟩ := List.getElem?_eq_some_iff.mp found
  have all : ∀ value ∈ values.drop position, values[position] ≤ value := by
    intro value member
    obtain ⟨offset, inside, rfl⟩ := List.mem_iff_getElem.mp member
    rw [List.getElem_drop]
    rcases Nat.eq_zero_or_pos offset with rfl | positive
    · exact le_rfl
    · exact List.pairwise_iff_getElem.mp sorted _ _ _ _ (by omega)
  have counted := List.countP_eq_length.mpr fun value member => decide_eq_true (all value member)
  rw [← counted]
  exact (List.drop_sublist position values).countP_le

/-- Up to any position of a sorted list, no element reaches a larger bound. -/
theorem countP_le_length_drop {values : List Nat} (sorted : values.Pairwise (· ≤ ·))
    {position value bound : Nat} (found : values[position]? = some value)
    (larger : value < bound) :
    values.countP (fun value => decide (bound ≤ value)) ≤ (values.drop (position + 1)).length := by
  obtain ⟨within, rfl⟩ := List.getElem?_eq_some_iff.mp found
  have none : (values.take (position + 1)).countP (fun value => decide (bound ≤ value)) = 0 := by
    refine List.countP_eq_zero.mpr fun value member => ?_
    obtain ⟨offset, inside, rfl⟩ := List.mem_iff_getElem.mp member
    rw [List.length_take] at inside
    rw [List.getElem_take]
    have below : values[offset] ≤ values[position] := by
      rcases Nat.eq_or_lt_of_le (show offset ≤ position by omega) with rfl | before
      · exact le_rfl
      · exact List.pairwise_iff_getElem.mp sorted _ _ _ _ before
    simpa using below.trans_lt larger
  calc values.countP (fun value => decide (bound ≤ value))
      = (values.take (position + 1)).countP (fun value => decide (bound ≤ value)) +
          (values.drop (position + 1)).countP (fun value => decide (bound ≤ value)) := by
        rw [← List.countP_append, List.take_append_drop]
    _ ≤ (values.drop (position + 1)).length := by
        rw [none, Nat.zero_add]
        exact List.countP_le_length

/-- The lower median exists and is one of the values. -/
theorem exists_median {n : Nat} (values : Fin n → Nat) (positive : 0 < n) :
    ∃ server, ((List.ofFn values).insertionSort (· ≤ ·))[(n - 1) / 2]? =
      some (values server) := by
  have permuted := List.perm_insertionSort (· ≤ ·) (List.ofFn values)
  have within : (n - 1) / 2 < ((List.ofFn values).insertionSort (· ≤ ·)).length := by
    rw [permuted.length_eq, List.length_ofFn]
    omega
  have found := List.getElem?_eq_getElem within
  obtain ⟨server, same⟩ := List.mem_ofFn.mp (permuted.mem_iff.mp (List.mem_of_getElem? found))
  exact ⟨server, found.trans (congrArg some same.symm)⟩

/-- The entry at `(n - 1) / 2` of the sorted values is reached by a majority. -/
theorem majority_of_median {n : Nat} {values : Fin n → Nat} {bound : Nat}
    (median : ((List.ofFn values).insertionSort (· ≤ ·))[(n - 1) / 2]? = some bound) :
    Majority (Finset.univ.filter fun server => bound ≤ values server) := by
  have sorted := List.pairwise_insertionSort (· ≤ ·) (List.ofFn values)
  have permuted := List.perm_insertionSort (· ≤ ·) (List.ofFn values)
  have within := (List.getElem?_eq_some_iff.mp median).1
  have counted := length_drop_le_countP sorted median
  rw [permuted.countP_eq, List.length_drop, permuted.length_eq, List.length_ofFn] at counted
  rw [permuted.length_eq, List.length_ofFn] at within
  rw [Majority, card_filter_le_eq_countP, Fintype.card_fin]
  omega

/-- No larger number is reached by a majority. -/
theorem le_median_of_majority {n : Nat} {values : Fin n → Nat} {bound larger : Nat}
    (median : ((List.ofFn values).insertionSort (· ≤ ·))[(n - 1) / 2]? = some bound)
    (majority : Majority (Finset.univ.filter fun server => larger ≤ values server)) :
    larger ≤ bound := by
  by_contra beyond
  have sorted := List.pairwise_insertionSort (· ≤ ·) (List.ofFn values)
  have permuted := List.perm_insertionSort (· ≤ ·) (List.ofFn values)
  have counted := countP_le_length_drop sorted median (not_le.mp beyond)
  rw [permuted.countP_eq, List.length_drop, permuted.length_eq, List.length_ofFn] at counted
  rw [Majority, card_filter_le_eq_countP, Fintype.card_fin] at majority
  omega

/-- The lower median is the greatest number that a majority reaches. -/
theorem isGreatest_median {n : Nat} {values : Fin n → Nat} {bound : Nat}
    (median : ((List.ofFn values).insertionSort (· ≤ ·))[(n - 1) / 2]? = some bound) :
    IsGreatest {index | Majority (Finset.univ.filter fun server => index ≤ values server)}
      bound :=
  ⟨majority_of_median median, fun _ => le_median_of_majority median⟩

end MultiRaft
