import Mathlib.Data.List.AList
import Mathlib.Data.List.Basic
import Mathlib.Logic.Function.Basic

/-!
# Ranging over a finite map

A loop over a map meets its entries in some order, each once.  A loop that changes
for each entry only what is stored under the entry's own key does not depend on the
order.

Where a map is an association list, its order is that of one loop over it.  Another
loop may meet the same entries in another order.
-/

namespace MultiRaft

universe u v w

variable {Key : Type u} {Value : Type v} {Content : Type w}

/-- One order of the entries of a map. -/
structure Enumerates (entries : List (Key × Value)) (map : Key → Option Value) : Prop where
  nodup : (entries.map Prod.fst).Nodup
  mem_iff : ∀ key value, (key, value) ∈ entries ↔ map key = some value

variable [DecidableEq Key]

/-- `for key, value := range map { table[key] = change(value, table[key]) }`, for one
order of the entries. -/
def updateEach (change : Value → Option Content → Option Content)
    (table : Key → Option Content) : List (Key × Value) → Key → Option Content
  | [] => table
  | (key, value) :: rest =>
      updateEach change (Function.update table key (change value (table key))) rest

variable {change : Value → Option Content → Option Content} {table : Key → Option Content}
  {entries : List (Key × Value)}

theorem updateEach_of_not_mem {key : Key} (absent : key ∉ entries.map Prod.fst) :
    updateEach change table entries key = table key := by
  induction entries generalizing table with
  | nil => rfl
  | cons entry rest inductionHypothesis =>
      obtain ⟨head, value⟩ := entry
      simp only [List.map_cons, List.mem_cons, not_or] at absent
      rw [updateEach, inductionHypothesis absent.2, Function.update_of_ne absent.1]

theorem updateEach_of_mem {key : Key} {value : Value} (nodup : (entries.map Prod.fst).Nodup)
    (met : (key, value) ∈ entries) :
    updateEach change table entries key = change value (table key) := by
  induction entries generalizing table with
  | nil => exact absurd met List.not_mem_nil
  | cons entry rest inductionHypothesis =>
      obtain ⟨head, first⟩ := entry
      simp only [List.map_cons, List.nodup_cons] at nodup
      rw [updateEach]
      rcases List.mem_cons.mp met with here | later
      · cases here
        rw [updateEach_of_not_mem nodup.1, Function.update_self]
      · have away : key ≠ head := by
          rintro rfl
          exact nodup.1 (List.mem_map_of_mem later)
        rw [inductionHypothesis nodup.2 later, Function.update_of_ne away]

/-- The loop in any order is the change at every key of the map. -/
theorem updateEach_of_enumerates {map : Key → Option Value} (enumerates : Enumerates entries map) :
    updateEach change table entries = fun key =>
      match map key with
      | none => table key
      | some value => change value (table key) := by
  funext key
  cases stored : map key with
  | none =>
      apply updateEach_of_not_mem
      intro met
      obtain ⟨⟨_, value⟩, listed, rfl⟩ := List.mem_map.mp met
      rw [enumerates.mem_iff, stored] at listed
      cases listed
  | some value =>
      exact updateEach_of_mem enumerates.nodup ((enumerates.mem_iff key value).mpr stored)

section Reordered

variable {first second third : AList fun _ : Key => Value}

/-- The same entries, in any order. -/
def SameMap (first second : AList fun _ : Key => Value) : Prop :=
  first.entries.Perm second.entries

omit [DecidableEq Key] in
theorem SameMap.refl (map : AList fun _ : Key => Value) : SameMap map map := List.Perm.refl _

omit [DecidableEq Key] in
theorem SameMap.symm (same : SameMap first second) : SameMap second first := List.Perm.symm same

omit [DecidableEq Key] in
theorem SameMap.trans (same : SameMap first second) (further : SameMap second third) :
    SameMap first third :=
  List.Perm.trans same further

theorem SameMap.lookup (same : SameMap first second) (key : Key) :
    first.lookup key = second.lookup key :=
  AList.perm_lookup same

omit [DecidableEq Key] in
theorem SameMap.mem_iff (same : SameMap first second) {key : Key} : key ∈ first ↔ key ∈ second :=
  AList.mem_of_perm same

omit [DecidableEq Key] in
theorem SameMap.keys (same : SameMap first second) : first.keys.Perm second.keys :=
  List.Perm.map Sigma.fst same

theorem sameMap_of_lookup (same : ∀ key, first.lookup key = second.lookup key) :
    SameMap first second :=
  List.lookup_ext first.nodupKeys second.nodupKeys fun key value => by
    rw [show List.dlookup key first.entries = List.dlookup key second.entries from same key]

theorem SameMap.insert (same : SameMap first second) (key : Key) (value : Value) :
    SameMap (first.insert key value) (second.insert key value) :=
  AList.perm_insert same

theorem SameMap.erase (same : SameMap first second) (key : Key) :
    SameMap (first.erase key) (second.erase key) :=
  AList.perm_erase same

end Reordered

/-- The order that one `range` over a map happens to take. -/
structure RangeOrder (Key : Type u) (Value : Type v) where
  visit : (AList fun _ : Key => Value) → AList fun _ : Key => Value
  same : ∀ map, SameMap (visit map) map

end MultiRaft
