import MultiRaft.Porcupine.Operations
import MultiRaft.Porcupine.Termination

/-!
# `CheckOperations` on the key/value model

The model splits a history by its keys and checks each part as a history of one
register.  Linearizability is local, so this decides whether the history of the whole
store is linearizable.
-/

namespace MultiRaft.Porcupine

variable {State Input Output : Type}

/-- `checkOperations`; the boolean `timed` says whether there is a timeout. -/
def checkOperations [DecidableEq State] (model : Model State Input Output)
    (by_ : TimeSort Input Output) (history : List (Operation Input Output))
    (verbose timed : Bool) :=
  checkParallel model ((model.partition history).map (makeEntries by_)) verbose timed

section Partition

variable {history : List (Operation KvInput KvOutput)}

theorem operationsByKey_eq (history : List (Operation KvInput KvOutput)) :
    operationsByKey history = opsAt (fun op => op.input.key) history := by
  have fold : ∀ (m : String → List (Operation KvInput KvOutput)) key,
      history.foldl (fun m v => Function.update m v.input.key (m v.input.key ++ [v])) m key =
        m key ++ opsAt (fun op => op.input.key) history key := by
    induction history with
    | nil => simp [opsAt]
    | cons op rest inductionHypothesis =>
        intro m key
        rw [List.foldl_cons, inductionHypothesis]
        by_cases same : op.input.key = key
        · subst same
          simp [opsAt]
        · rw [Function.update_of_ne (Ne.symm same)]
          simp [opsAt, same]
  funext key
  exact fold (fun _ => []) key

theorem mem_kvPartition {part : List (Operation KvInput KvOutput)} :
    part ∈ kvPartition history ↔ ∃ key ∈ history.map (·.input.key),
      part = opsAt (fun op => op.input.key) history key := by
  simp only [kvPartition, operationsByKey_eq, List.mem_map, List.mem_mergeSort, List.mem_dedup,
    eq_comm]

/-- The operations on all keys can be put in one row that the store allows.  A key that was
never written has the empty value. -/
def LinearizableStore (history : List (Operation KvInput KvOutput)) : Prop :=
  Linearizable (stepAt (fun op => op.input.key) kvModel.stepOperation) (fun _ => "")
    (fun one two => one.ret < two.call) history

/-- The store is linearizable iff each part is. -/
theorem linearizableStore_iff (times : ∀ op ∈ history, op.call ≤ op.ret) :
    LinearizableStore history ↔
      ∀ part ∈ kvPartition history, LinearizableOperations kvModel part := by
  refine (linearizable_iff_parts _ _ (fun _ => "") times).trans ⟨?_, ?_⟩
  · rintro parts part member
    obtain ⟨key, -, rfl⟩ := mem_kvPartition.mp member
    exact parts key
  · intro parts key
    by_cases known : key ∈ history.map (·.input.key)
    · exact parts _ (mem_kvPartition.mpr ⟨key, known, rfl⟩)
    · have nothing : opsAt (fun op => op.input.key) history key = [] := by
        refine List.filter_eq_nil_iff.mpr fun op member isKey => known ?_
        exact List.mem_map.mpr ⟨op, member, of_decide_eq_true isKey⟩
      rw [nothing]
      exact ⟨[], .refl _, .nil, rfl⟩

theorem times_kvPartition (times : ∀ op ∈ history, op.call ≤ op.ret) :
    ∀ part ∈ kvModel.partition history, ∀ op ∈ part, op.call ≤ op.ret := by
  intro part member op inside
  obtain ⟨key, -, rfl⟩ := mem_kvPartition.mp member
  exact times op (mem_opsAt.mp inside).1

end Partition

section Verdict

variable [DecidableEq State] {model : Model State Input Output} {by_ : TimeSort Input Output}
  {history part : List (Operation Input Output)}

omit [DecidableEq State] in
/-- A history has two entries for each operation. -/
theorem half_makeEntries (by_ : TimeSort Input Output) (times : ∀ op ∈ part, op.call ≤ op.ret) :
    (makeEntries by_ part).length / 2 = part.length := by
  rw [(paired_makeEntries by_ times).length]
  omega

/-- The result of `checkOperations` for the parts of the history. -/
theorem checkOperations_parts (laws : model.EqualLaws)
    (times : ∀ part ∈ model.partition history, ∀ op ∈ part, op.call ≤ op.ret)
    {verbose timed : Bool} {check : Check State Input Output _}
    (reached : (checkOperations model by_ history verbose timed).Reachable System.anyStep check)
    {result : CheckResult} {partials : Option _}
    (returned : check.phase = .returned result partials) :
    (result = .ok → ∀ part ∈ model.partition history, LinearizableOperations model part) ∧
      (result = .illegal →
        ∃ part ∈ model.partition history, ¬ LinearizableOperations model part) ∧
      (result = .unknown → timed = true) := by
  have parts : ∀ i, ∃ part ∈ model.partition history,
      ((model.partition history).map (makeEntries by_)).get i = makeEntries by_ part := by
    intro i
    obtain ⟨part, member, isPart⟩ := List.mem_map.mp (List.get_mem _ i)
    exact ⟨part, member, isPart.symm⟩
  have paired : ∀ i, Paired ((((model.partition history).map (makeEntries by_)).get i).length / 2)
      (((model.partition history).map (makeEntries by_)).get i) := by
    intro i
    obtain ⟨part, member, isPart⟩ := parts i
    rw [isPart, half_makeEntries by_ (times part member)]
    exact paired_makeEntries by_ (times part member)
  obtain ⟨verdict, longests, checked, tracks⟩ := exists_tracks laws paired reached
  obtain ⟨allTrue, oneFalse, late⟩ := tracks.verdicts returned
  refine ⟨?_, ?_, fun isUnknown => (late isUnknown).2⟩
  · intro isOk part member
    obtain ⟨i, isPart⟩ := List.mem_iff_get.mp (List.mem_map_of_mem (f := makeEntries by_) member)
    have linearizable := (checked i).verdict_iff.mp (allTrue isOk i)
    rw [isPart, half_makeEntries by_ (times part member)] at linearizable
    exact (linearizableEntries_iff model by_ (times part member)).mp linearizable
  · intro isIllegal
    obtain ⟨i, refuted⟩ := oneFalse isIllegal
    obtain ⟨part, member, isPart⟩ := parts i
    refine ⟨part, member, fun linearizable => ?_⟩
    have entries := (linearizableEntries_iff model by_ (times part member)).mpr linearizable
    rw [← half_makeEntries by_ (times part member), ← isPart] at entries
    cases refuted.symm.trans ((checked i).verdict_iff.mpr entries)

end Verdict

section Store

variable {by_ : TimeSort KvInput KvOutput} {history : List (Operation KvInput KvOutput)}
  {verbose timed : Bool}

/-- Whatever the schedule and the order of entries of the same time, `Ok` means that the
history of the whole store is linearizable and `Illegal` that it is not. -/
theorem checkOperations_kvModel (times : ∀ op ∈ history, op.call ≤ op.ret)
    {check : Check String KvInput KvOutput _}
    (reached : (checkOperations kvModel by_ history verbose timed).Reachable System.anyStep check)
    {result : CheckResult} {partials : Option _}
    (returned : check.phase = .returned result partials) :
    (result = .ok → LinearizableStore history) ∧
      (result = .illegal → ¬ LinearizableStore history) ∧
      (result = .unknown → timed = true) := by
  obtain ⟨good, bad, late⟩ := checkOperations_parts (kvModel.equalLaws_shallow rfl)
    (times_kvPartition times) reached returned
  refine ⟨?_, ?_, late⟩
  · exact fun isOk => (linearizableStore_iff times).mpr (good isOk)
  · intro isIllegal linearizable
    obtain ⟨part, member, refuted⟩ := bad isIllegal
    exact refuted ((linearizableStore_iff times).mp linearizable part member)

/-- The operations of `twoKeys`. -/
def twoKeysHistory : List (Operation KvInput KvOutput) :=
  [⟨0, ⟨0, "x", ""⟩, 1, ⟨"1"⟩, 22⟩, ⟨1, ⟨1, "x", "1"⟩, 3, ⟨""⟩, 21⟩,
    ⟨2, ⟨2, "y", "a"⟩, 6, ⟨""⟩, 24⟩]

theorem makeEntries_twoKeysHistory :
    (kvModel.partition twoKeysHistory).map (makeEntries stableSort) = twoKeys := by
  simp [kvModel, kvPartition, operationsByKey_eq, twoKeysHistory, opsAt, List.mergeSort,
    makeEntries, stableSort, listEntries]
  simp [byTimeLess, Operation.callEntry, Operation.returnEntry, twoKeys, overlapping]

theorem checkOperations_twoKeysHistory : ∃ check,
    (checkOperations kvModel stableSort twoKeysHistory false false).Reachable System.anyStep
      check ∧ check.phase = .returned .ok none := by
  rw [checkOperations, makeEntries_twoKeysHistory]
  exact ⟨_, twoKeysEnd_reachable false, rfl⟩

theorem checkOperations_kvModel_twoKeys :
    (∀ op ∈ twoKeysHistory, op.call ≤ op.ret) ∧
      (∃ check, (checkOperations kvModel stableSort twoKeysHistory false false).Reachable
        System.anyStep check ∧ check.phase = .returned .ok none) ∧
      LinearizableStore twoKeysHistory := by
  have times : ∀ op ∈ twoKeysHistory, op.call ≤ op.ret := by decide
  refine ⟨times, checkOperations_twoKeysHistory, ?_⟩
  obtain ⟨check, reached, returned⟩ := checkOperations_twoKeysHistory
  exact (checkOperations_kvModel times reached returned).1 rfl

end Store

end MultiRaft.Porcupine
