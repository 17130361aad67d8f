import MultiRaft.Porcupine.Verdict

/-!
# Histories of operations

`makeEntries` turns operations with times of call and return into entries.  Entries of
the same time are ordered calls first, so an operation precedes another one only if it
returned strictly before the other one was called.
-/

namespace MultiRaft.Porcupine

variable {State Input Output : Type}

/-- `byTime.Less` -/
def byTimeLess (a b : Entry Input Output) : Bool :=
  if a.time ≠ b.time then a.time < b.time else a.value.isCall && !b.value.isCall

/-- A way to sort entries.  `sort.Sort` does not say how it orders entries that `Less` does
not tell apart. -/
structure TimeSort (Input Output : Type) where
  sort : List (Entry Input Output) → List (Entry Input Output)
  perm : ∀ entries, (sort entries).Perm entries
  sorted : ∀ entries, (sort entries).Pairwise fun a b => byTimeLess b a = false

def Operation.callEntry (elem : Operation Input Output) (id : Nat) : Entry Input Output :=
  ⟨.call elem.input, id, elem.call, elem.clientId⟩

def Operation.returnEntry (elem : Operation Input Output) (id : Nat) : Entry Input Output :=
  ⟨.ret elem.output, id, elem.ret, elem.clientId⟩

/-- The entries before they are sorted, with ids from `id` on. -/
def listEntries (id : Nat) : List (Operation Input Output) → List (Entry Input Output)
  | [] => []
  | elem :: history =>
      elem.callEntry id :: elem.returnEntry id :: listEntries (id + 1) history

def makeEntries (by_ : TimeSort Input Output) (history : List (Operation Input Output)) :
    List (Entry Input Output) :=
  by_.sort (listEntries 0 history)

theorem byTimeLess_iff {a b : Entry Input Output} : byTimeLess a b = true ↔
    a.time < b.time ∨ a.time = b.time ∧ a.value.isCall = true ∧ b.value.isCall = false := by
  rw [byTimeLess]
  split
  · rename_i apart
    simp [apart]
  · rename_i same
    simp only [ne_eq, Decidable.not_not] at same
    simp [same]

/-- A stable sort is one. -/
def stableSort : TimeSort Input Output where
  sort entries := entries.mergeSort fun a b => !byTimeLess b a
  perm entries := List.mergeSort_perm entries _
  sorted entries := by
    refine (List.pairwise_mergeSort ?_ ?_ entries).imp fun le => by simpa using le
    · intro a b c first second
      rw [Bool.not_eq_true', ← Bool.not_eq_true, byTimeLess_iff] at *
      grind
    · intro a b
      rw [Bool.or_eq_true, Bool.not_eq_true', Bool.not_eq_true', ← Bool.not_eq_true,
        ← Bool.not_eq_true, byTimeLess_iff, byTimeLess_iff]
      grind

section Entries

variable {by_ : TimeSort Input Output} {history : List (Operation Input Output)}
  {entry : Entry Input Output}

theorem mem_listEntries {first : Nat} : entry ∈ listEntries first history ↔
    ∃ (i : Nat) (op : Operation Input Output), history[i]? = some op ∧
      (entry = op.callEntry (first + i) ∨ entry = op.returnEntry (first + i)) := by
  induction history generalizing first with
  | nil => simp [listEntries]
  | cons elem rest inductionHypothesis =>
      rw [listEntries, List.mem_cons, List.mem_cons, inductionHypothesis]
      constructor
      · rintro (here | here | ⟨i, op, found, here⟩)
        · exact ⟨0, elem, rfl, .inl here⟩
        · exact ⟨0, elem, rfl, .inr here⟩
        · exact ⟨i + 1, op, found, by rwa [← Nat.add_assoc, Nat.add_right_comm]⟩
      · rintro ⟨_ | i, op, found, here⟩
        · cases found
          exact here.imp_right .inl
        · exact .inr (.inr ⟨i, op, found, by rwa [Nat.add_right_comm, Nat.add_assoc]⟩)

theorem mem_makeEntries : entry ∈ makeEntries by_ history ↔
    ∃ (i : Nat) (op : Operation Input Output), history[i]? = some op ∧
      (entry = op.callEntry i ∨ entry = op.returnEntry i) := by
  rw [makeEntries, (by_.perm _).mem_iff, mem_listEntries]
  simp only [Nat.zero_add]

variable {op : Operation Input Output}

theorem callEntry_mem (by_ : TimeSort Input Output) {i : Nat} (found : history[i]? = some op) :
    op.callEntry i ∈ makeEntries by_ history :=
  mem_makeEntries.mpr ⟨i, op, found, .inl rfl⟩

theorem returnEntry_mem (by_ : TimeSort Input Output) {i : Nat} (found : history[i]? = some op) :
    op.returnEntry i ∈ makeEntries by_ history :=
  mem_makeEntries.mpr ⟨i, op, found, .inr rfl⟩

/-- In a sorted list an entry that is less than another one stands in front of it. -/
theorem mem_behind_of_less {front back : List (Entry Input Output)} {a b : Entry Input Output}
    (sorted : (front ++ a :: back).Pairwise fun a b => byTimeLess b a = false)
    (member : b ∈ front ++ a :: back) (less : byTimeLess a b = true) : b ∈ back := by
  obtain ⟨-, -, across⟩ := List.pairwise_append.mp sorted
  rcases List.mem_append.mp member with early | late
  · have not := across b early a List.mem_cons_self
    rw [less] at not
    cases not
  · rcases List.mem_cons.mp late with rfl | later
    · rw [byTimeLess_iff] at less
      grind
    · exact later

theorem pair_sublist_of_less {entries : List (Entry Input Output)}
    (sorted : entries.Pairwise fun a b => byTimeLess b a = false) {a b : Entry Input Output}
    (first : a ∈ entries) (second : b ∈ entries) (less : byTimeLess a b = true) :
    [a, b].Sublist entries := by
  obtain ⟨front, back, rfl⟩ := List.append_of_mem first
  have behind := mem_behind_of_less sorted second less
  exact ((List.singleton_sublist.mpr behind).cons_cons a).trans (List.sublist_append_right _ _)

theorem answered_of_split {entries : List (Entry Input Output)}
    (behind : ∀ front call back, entries = front ++ call :: back → call.value.isCall = true →
      ∃ other ∈ back, other.value.isCall = false ∧ other.id = call.id) : Answered entries := by
  induction entries with
  | nil => trivial
  | cons entry rest inductionHypothesis =>
      refine ⟨behind [] entry rest rfl, inductionHypothesis ?_⟩
      intro front call back split
      exact behind (entry :: front) call back (congrArg (entry :: ·) split)

/-- The operations of a history whose operations return at or after their calls. -/
theorem answered_makeEntries (by_ : TimeSort Input Output)
    (times : ∀ op ∈ history, op.call ≤ op.ret) : Answered (makeEntries by_ history) := by
  refine answered_of_split ?_
  intro front call back split isCall
  have sorted := by_.sorted (listEntries 0 history)
  rw [show by_.sort (listEntries 0 history) = makeEntries by_ history from rfl, split] at sorted
  have member : call ∈ makeEntries by_ history := by
    rw [split]
    exact List.mem_append_right _ List.mem_cons_self
  obtain ⟨i, op, found, rfl | rfl⟩ := mem_makeEntries.mp member
  · have ret := returnEntry_mem by_ found
    rw [split] at ret
    refine ⟨_, mem_behind_of_less sorted ret (byTimeLess_iff.mpr ?_), rfl, rfl⟩
    rcases lt_or_eq_of_le (times op (List.mem_of_getElem? found)) with before | same
    · exact .inl before
    · exact .inr ⟨same, rfl, rfl⟩
  · cases isCall

theorem ids_listEntries (kind : Bool) (first : Nat) (history : List (Operation Input Output)) :
    ((listEntries first history).filter fun entry => entry.value.isCall == kind).map (·.id) =
      List.range' first history.length := by
  induction history generalizing first with
  | nil => rfl
  | cons elem rest inductionHypothesis =>
      rw [listEntries, List.length_cons, List.range'_succ, ← inductionHypothesis]
      cases kind <;> rfl

theorem paired_makeEntries (by_ : TimeSort Input Output)
    (times : ∀ op ∈ history, op.call ≤ op.ret) :
    Paired history.length (makeEntries by_ history) := by
  have ids : ∀ kind, (((makeEntries by_ history).filter
      fun entry => entry.value.isCall == kind).map (·.id)).Perm (List.range history.length) := by
    intro kind
    refine (((by_.perm _).filter _).map _).trans ?_
    rw [ids_listEntries, List.range_eq_range']
  refine ⟨answered_makeEntries by_ times, ?_, ?_⟩
  · simpa using ids true
  · simpa using ids false

/-- A return comes in front of a call only at an earlier time. -/
theorem ret_lt_call_iff {one two : Operation Input Output} {i j : Nat} :
    byTimeLess (two.callEntry j) (one.returnEntry i) = false ↔ one.ret < two.call := by
  rw [← Bool.not_eq_true, byTimeLess_iff]
  simp only [Operation.callEntry, Operation.returnEntry, Value.isCall, and_true]
  omega

theorem precedes_makeEntries {i j : Nat} : precedes (makeEntries by_ history) i j ↔
    ∃ one two, history[i]? = some one ∧ history[j]? = some two ∧ one.ret < two.call := by
  have sorted : (makeEntries by_ history).Pairwise fun a b => byTimeLess b a = false :=
    by_.sorted _
  constructor
  · rintro ⟨ret, call, sublist, notCall, rfl, isCall, rfl⟩
    have less := (List.pairwise_cons.mp (sorted.sublist sublist)).1 call
      (List.mem_singleton_self call)
    obtain ⟨i, one, found, rfl | rfl⟩ := mem_makeEntries.mp (sublist.subset List.mem_cons_self)
    · cases notCall
    · obtain ⟨j, two, found', rfl | rfl⟩ := mem_makeEntries.mp
        (sublist.subset (List.mem_cons_of_mem _ (List.mem_singleton_self _)))
      · exact ⟨one, two, found, found', ret_lt_call_iff.mp less⟩
      · cases isCall
  · rintro ⟨one, two, found, found', before⟩
    refine ⟨one.returnEntry i, two.callEntry j, ?_, rfl, rfl, rfl, rfl⟩
    exact pair_sublist_of_less sorted (returnEntry_mem by_ found) (callEntry_mem by_ found')
      (byTimeLess_iff.mpr (.inl before))

/-- `model.Step` for a whole operation. -/
def Model.stepOperation [DecidableEq State] (model : Model State Input Output) (state : State)
    (op : Operation Input Output) : Option State :=
  if (model.step state op.input op.output).1 then some (model.step state op.input op.output).2
  else none

/-- The operations can be put in a row that the model allows and that keeps every operation
in front of those called after its return. -/
def LinearizableOperations [DecidableEq State] (model : Model State Input Output)
    (history : List (Operation Input Output)) : Prop :=
  Linearizable model.stepOperation model.init (fun one two => one.ret < two.call) history

theorem stepOf_makeEntries [DecidableEq State] (model : Model State Input Output)
    (times : ∀ op ∈ history, op.call ≤ op.ret) (state : State) {i : Nat}
    (found : history[i]? = some op) :
    stepOf model (makeEntries by_ history) state i = model.stepOperation state op := by
  have paired := paired_makeEntries by_ times
  have call := paired.valueOf (callEntry_mem by_ found)
  have ret := paired.valueOf (returnEntry_mem by_ found)
  simp only [Operation.callEntry, Operation.returnEntry, Value.isCall] at call ret
  simp only [stepOf, call, ret, Model.stepOperation]

/-- The entries of a history are linearizable iff its operations are. -/
theorem linearizableEntries_iff [DecidableEq State] (model : Model State Input Output)
    (by_ : TimeSort Input Output) (times : ∀ op ∈ history, op.call ≤ op.ret) :
    LinearizableEntries model history.length (makeEntries by_ history) ↔
      LinearizableOperations model history := by
  have found : ∀ default : Operation Input Output, ∀ i ∈ List.range history.length,
      history[i]? = some (history.getD i default) := by
    intro default i member
    rw [List.getD_eq_getElem?_getD, List.getElem?_eq_getElem (List.mem_range.mp member)]
    rfl
  have named : ∀ default : Operation Input Output,
      (List.range history.length).map (history.getD · default) = history := by
    intro default
    refine List.ext_getElem? fun i => ?_
    rw [List.getElem?_map]
    by_cases inside : i < history.length
    · rw [List.getElem?_range inside, found default i (List.mem_range.mpr inside)]
      rfl
    · rw [List.getElem?_eq_none (by simpa using inside), List.getElem?_eq_none (by simpa using inside)]
      rfl
  cases history with
  | nil => exact ⟨fun _ => ⟨[], .refl _, .nil, rfl⟩, fun _ => ⟨[], .refl _, .nil, rfl⟩⟩
  | cons first rest =>
      rw [LinearizableOperations]
      nth_rewrite 3 [← named first]
      refine linearizable_map ?_ ?_
      · intro state i member
        exact stepOf_makeEntries model times state (found first i member)
      · intro i member j member'
        rw [precedes_makeEntries, found first i member, found first j member']
        simp

end Entries

end MultiRaft.Porcupine
