import Mathlib.Data.Fin.VecNotation
import MultiRaft.Lib.Majority
import MultiRaft.Node.Server
import MultiRaft.Raft.Server

/-!
# The index a majority has reached

`Raft` sorts the match indexes with the library and `Node` exchanges them in two
nested loops.  Both then read position `(n - 1) / 2`, which is the greatest index
that more than half of the servers have reached.
-/

namespace MultiRaft

variable {n : Nat} {Command : Type}

namespace Node

/-- One round of the outer loop only exchanges. -/
theorem exchangePass_perm (index : Nat) (indexes : List Nat) :
    ((exchangePass index indexes).1 :: (exchangePass index indexes).2).Perm
      (index :: indexes) := by
  induction indexes generalizing index with
  | nil => exact .refl _
  | cons later rest inductionHypothesis =>
      by_cases smaller : index > later
      · simp only [exchangePass, smaller, if_true]
        exact (List.Perm.swap index _ _).trans ((inductionHypothesis later).cons index)
      · simp only [exchangePass, smaller, if_false]
        have kept : ((exchangePass index rest).1 :: later :: (exchangePass index rest).2).Perm
            (later :: index :: rest) :=
          (List.Perm.swap later _ _).trans ((inductionHypothesis index).cons later)
        exact kept.trans (.swap index later rest)

/-- What stands at the position after the round is the least of what was there. -/
theorem exchangePass_le (index : Nat) (indexes : List Nat) :
    ∀ other ∈ index :: indexes, (exchangePass index indexes).1 ≤ other := by
  induction indexes generalizing index with
  | nil =>
      intro other member
      rw [List.mem_singleton.mp member]
      exact le_rfl
  | cons later rest inductionHypothesis =>
      by_cases smaller : index > later
      · simp only [exchangePass, smaller, if_true, List.forall_mem_cons]
        have least := List.forall_mem_cons.mp (inductionHypothesis later)
        exact ⟨least.1.trans (Nat.le_of_lt smaller), least⟩
      · simp only [exchangePass, smaller, if_false, List.forall_mem_cons]
        have least := List.forall_mem_cons.mp (inductionHypothesis index)
        exact ⟨least.1, least.1.trans (not_lt.mp smaller), least.2⟩

theorem exchangeSort_perm (rounds : Nat) (indexes : List Nat) :
    (exchangeSort rounds indexes).Perm indexes := by
  induction rounds generalizing indexes with
  | zero => exact .refl _
  | succ rounds inductionHypothesis =>
      cases indexes with
      | nil => exact .refl _
      | cons index rest =>
          exact ((inductionHypothesis _).cons _).trans (exchangePass_perm index rest)

/-- The last position needs no round of its own. -/
theorem exchangeSort_sorted {rounds : Nat} {indexes : List Nat}
    (enough : indexes.length ≤ rounds + 1) : (exchangeSort rounds indexes).Pairwise (· ≤ ·) := by
  induction rounds generalizing indexes with
  | zero =>
      match indexes, enough with
      | [], _ => exact .nil
      | [index], _ => exact List.pairwise_singleton _ _
  | succ rounds inductionHypothesis =>
      cases indexes with
      | nil => exact .nil
      | cons index rest =>
          have permuted := exchangePass_perm index rest
          have length := permuted.length_eq
          simp only [List.length_cons] at enough length
          refine List.pairwise_cons.mpr ⟨?_, inductionHypothesis (by omega)⟩
          intro other member
          have among := (exchangeSort_perm rounds _).mem_iff.mp member
          exact exchangePass_le index rest other
            (permuted.mem_iff.mp (List.mem_cons_of_mem _ among))

/-- The nested loops sort. -/
theorem exchangeSort_eq_insertionSort {rounds : Nat} {indexes : List Nat}
    (enough : indexes.length ≤ rounds + 1) :
    exchangeSort rounds indexes = indexes.insertionSort (· ≤ ·) :=
  List.Perm.eq_of_pairwise' (exchangeSort_sorted enough)
    (List.pairwise_insertionSort (· ≤ ·) indexes)
    ((exchangeSort_perm rounds indexes).trans (List.perm_insertionSort (· ≤ ·) indexes).symm)

/-- The commit index moves to the index that was picked, if it can. -/
theorem updateCommitIndexLocked_of_picked {node : Node n Command} {majorityIdx : Nat}
    (picked : (exchangeSort (n - 1) (List.ofFn node.matchIndex))[(n - 1) / 2]? =
      some majorityIdx) :
    node.updateCommitIndexLocked =
      if node.commitIndex < majorityIdx ∧ node.log.snapLastIdx ≤ majorityIdx then
        (node.log.entryAt majorityIdx).map fun entry =>
          if entry.term = node.currentTerm then { node with commitIndex := majorityIdx }
          else node
      else some node := by
  rw [updateCommitIndexLocked, picked]
  by_cases above : node.commitIndex < majorityIdx
  · by_cases kept : node.log.snapLastIdx ≤ majorityIdx
    · simp only [Option.bind_eq_bind, Option.bind_some, gt_iff_lt, ge_iff_le, above, kept, if_true,
        and_self]
      cases node.log.entryAt majorityIdx with
      | none => rfl
      | some entry =>
          rw [Option.bind_some, Option.map_some]
          split <;> rfl
    · simp [above, kept]
  · simp [above]

end Node

/-- Both servers read the same index off the same match indexes: the greatest that
more than half of the servers have reached. -/
theorem quorum_index (positive : 0 < n) (matchIndex : Fin n → Nat) (rf : Raft n Command)
    (node : Node n Command) (rfCounts : rf.matchIndex = matchIndex)
    (nodeCounts : node.matchIndex = matchIndex) :
    ∃ majorityIdx,
      rf.getMajorityIndexLocked = some majorityIdx ∧
      (Node.exchangeSort (n - 1) (List.ofFn node.matchIndex))[(n - 1) / 2]? =
        some majorityIdx ∧
      node.updateCommitIndexLocked =
        (if node.commitIndex < majorityIdx ∧ node.log.snapLastIdx ≤ majorityIdx then
          (node.log.entryAt majorityIdx).map fun entry =>
            if entry.term = node.currentTerm then { node with commitIndex := majorityIdx }
            else node
        else some node) ∧
      IsGreatest {index | n / 2 <
        (Finset.univ.filter fun server => index ≤ matchIndex server).card} majorityIdx := by
  obtain ⟨server, median⟩ := exists_median matchIndex positive
  have picked : (Node.exchangeSort (n - 1) (List.ofFn node.matchIndex))[(n - 1) / 2]? =
      some (matchIndex server) := by
    rw [nodeCounts, Node.exchangeSort_eq_insertionSort (by rw [List.length_ofFn]; omega)]
    exact median
  refine ⟨matchIndex server, ?_, picked, Node.updateCommitIndexLocked_of_picked picked, ?_⟩
  · rw [Raft.getMajorityIndexLocked, rfCounts]
    exact median
  · simpa only [majority_iff_half_lt, Fintype.card_fin] using isGreatest_median median

/-- Two of four servers have reached index 5, and that is not enough. -/
theorem quorum_index_even :
    (Raft.getMajorityIndexLocked
      { Raft.make (0 : Fin 4) (makePersister 4 Nat) with matchIndex := ![7, 2, 5, 3] }) = some 3 ∧
    IsGreatest {index | 4 / 2 <
      (Finset.univ.filter fun server => index ≤ (![7, 2, 5, 3] : Fin 4 → Nat) server).card} 3 := by
  obtain ⟨majorityIdx, picked, _, _, greatest⟩ := quorum_index (by decide) ![7, 2, 5, 3]
    { Raft.make (0 : Fin 4) (makePersister 4 Nat) with matchIndex := ![7, 2, 5, 3] }
    { Node.newNode (0 : Fin 4) (RaftStorage.empty 4 Nat) 1 with matchIndex := ![7, 2, 5, 3] } rfl rfl
  cases picked
  exact ⟨rfl, greatest⟩

end MultiRaft
