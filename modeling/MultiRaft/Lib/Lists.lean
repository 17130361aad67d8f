import Mathlib.Data.List.Forall2

/-!
# Lists and tables: fallible reads, messages in flight, counters

A network is a list of messages.  Handling one replaces it in place or takes it
out; the lemmas say what that does to a key that some messages carry.  A table
with two keys is a function of two arguments, updated at one pair.
-/

namespace MultiRaft

universe u v w

variable {α : Type u} {β : Type v}

theorem forall₂_of_mapM_eq_some {read : α → Option β} {keys : List α} {values : List β}
    (done : keys.mapM read = some values) :
    List.Forall₂ (fun key value => read key = some value) keys values := by
  induction keys generalizing values with
  | nil =>
      cases done
      exact .nil
  | cons key rest inductionHypothesis =>
      rw [List.mapM_cons] at done
      rcases Option.bind_eq_some_iff.mp done with ⟨value, first, remaining⟩
      rcases Option.bind_eq_some_iff.mp remaining with ⟨others, further, result⟩
      cases result
      exact .cons first (inductionHypothesis further)

/-- The reads all succeed if each of them does. -/
theorem isSome_mapM {read : α → Option β} {keys : List α} (each : ∀ key ∈ keys, (read key).isSome) :
    (keys.mapM read).isSome := by
  induction keys with
  | nil => rfl
  | cons key rest inductionHypothesis =>
      obtain ⟨value, first⟩ := Option.isSome_iff_exists.mp (each key List.mem_cons_self)
      obtain ⟨values, further⟩ := Option.isSome_iff_exists.mp
        (inductionHypothesis fun other member => each other (List.mem_cons_of_mem _ member))
      rw [List.mapM_cons, first, further]
      rfl

/-- Every value that was read was read at some key. -/
theorem exists_key_of_mapM_eq_some {read : α → Option β} {keys : List α} {values : List β}
    (done : keys.mapM read = some values) {value : β} (member : value ∈ values) :
    ∃ key ∈ keys, read key = some value := by
  rcases List.forall₂_iff_get.mp (forall₂_of_mapM_eq_some done) with ⟨sameLength, pointwise⟩
  rcases List.getElem_of_mem member with ⟨position, bound, rfl⟩
  exact ⟨keys[position], List.getElem_mem _, pointwise position (by omega) bound⟩

/-- What was read at one position. -/
theorem getElem?_of_mapM_eq_some {read : α → Option β} {keys : List α} {values : List β}
    (done : keys.mapM read = some values) {position : Nat} {value : β}
    (located : values[position]? = some value) :
    ∃ key, keys[position]? = some key ∧ read key = some value := by
  rcases List.forall₂_iff_get.mp (forall₂_of_mapM_eq_some done) with ⟨sameLength, pointwise⟩
  rcases List.getElem?_eq_some_iff.mp located with ⟨bound, rfl⟩
  have inKeys : position < keys.length := by omega
  exact ⟨keys[position], List.getElem?_eq_getElem inKeys, pointwise position inKeys bound⟩

/-- What a list that has grown by one holds at an index. -/
theorem getElem?_concat {items : List α} {index : Nat} {last item : α}
    (found : (items ++ [last])[index]? = some item) :
    items[index]? = some item ∨ (index = items.length ∧ item = last) := by
  rw [List.getElem?_append] at found
  split at found
  · exact .inl found
  · rw [List.getElem?_singleton] at found
    split at found
    · cases found
      exact .inr ⟨by omega, rfl⟩
    · cases found

theorem filterMap_set_of_eq {key : α → Option β} {items : List α} {index : Nat} {old new : α}
    (found : items[index]? = some old) (same : key new = key old) :
    (items.set index new).filterMap key = items.filterMap key := by
  induction items generalizing index with
  | nil => rfl
  | cons head rest inductionHypothesis =>
      cases index with
      | zero =>
          cases found
          simp only [List.set_cons_zero, List.filterMap_cons, same]
      | succ index =>
          simp only [List.set_cons_succ, List.filterMap_cons, inductionHypothesis found]

theorem filterMap_eraseIdx_sublist (key : α → Option β) (items : List α) (index : Nat) :
    ((items.eraseIdx index).filterMap key).Sublist (items.filterMap key) :=
  (List.eraseIdx_sublist items index).filterMap key

/-- Replacing a message by one without a key is, for the keys, taking it out. -/
theorem filterMap_set_of_none {key : α → Option β} (items : List α) (index : Nat) {new : α}
    (keyless : key new = none) :
    (items.set index new).filterMap key = (items.eraseIdx index).filterMap key := by
  induction items generalizing index with
  | nil => rfl
  | cons head rest inductionHypothesis =>
      cases index with
      | zero => simp [keyless]
      | succ index =>
          simp only [List.set_cons_succ, List.eraseIdx_cons_succ, List.filterMap_cons,
            inductionHypothesis]

/-- A message that is replaced keeps its key or loses it. -/
theorem filterMap_set_sublist {key : α → Option β} {items : List α} {index : Nat} {old new : α}
    (found : items[index]? = some old) (keeps : key new = key old ∨ key new = none) :
    ((items.set index new).filterMap key).Sublist (items.filterMap key) := by
  rcases keeps with same | keyless
  · rw [filterMap_set_of_eq found same]
  · rw [filterMap_set_of_none _ _ keyless]
    exact filterMap_eraseIdx_sublist _ _ _

/-- If no two messages carry one key, taking a message out takes out its key. -/
theorem notMem_filterMap_eraseIdx {key : α → Option β} {items : List α} {index : Nat} {item : α}
    {value : β} (distinct : (items.filterMap key).Nodup) (found : items[index]? = some item)
    (keyed : key item = some value) :
    value ∉ (items.eraseIdx index).filterMap key := by
  induction items generalizing index with
  | nil => cases found
  | cons head rest inductionHypothesis =>
      cases index with
      | zero =>
          cases found
          simp only [List.filterMap_cons, keyed] at distinct
          exact (List.nodup_cons.mp distinct).1
      | succ index =>
          have foundInRest : rest[index]? = some item := found
          have inRest : value ∈ rest.filterMap key :=
            List.mem_filterMap.mpr ⟨item, List.mem_of_getElem? foundInRest, keyed⟩
          simp only [List.eraseIdx_cons_succ, List.filterMap_cons]
          cases headKey : key head with
          | none =>
              simp only [List.filterMap_cons, headKey] at distinct
              exact inductionHypothesis distinct foundInRest
          | some other =>
              simp only [List.filterMap_cons, headKey] at distinct
              rcases List.nodup_cons.mp distinct with ⟨fresh, distinctRest⟩
              intro member
              rcases List.mem_cons.mp member with rfl | later
              · exact fresh inRest
              · exact inductionHypothesis distinctRest foundInRest later

theorem update_update_self {γ : Type w} [DecidableEq α] [DecidableEq β] (table : α → β → γ)
    (row : α) (column : β) (value : γ) :
    Function.update table row (Function.update (table row) column value) row column = value := by
  rw [Function.update_self, Function.update_self]

theorem update_update_of_ne {γ : Type w} [DecidableEq α] [DecidableEq β] (table : α → β → γ)
    {row row' : α} {column column' : β} (value : γ)
    (different : ¬ (row' = row ∧ column' = column)) :
    Function.update table row (Function.update (table row) column value) row' column' =
      table row' column' := by
  by_cases same : row' = row
  · subst same
    rw [Function.update_self, Function.update_of_ne (fun eq => different ⟨rfl, eq⟩)]
  · rw [Function.update_of_ne same]

end MultiRaft
