import MultiRaft.Node.Updates

/-!
# What a `Node` keeps over a restart

`persistLocked` writes the whole log into the `RaftState` record, but it also
writes a `Snapshot` record every time, and `loadFromStorage` lets that record
replace the log it has just decoded.  What comes back is the term, the vote and
the snapshot; every entry after the snapshot is lost.
-/

namespace MultiRaft.Node

variable {n : Nat} {Command : Type}

/-- The part of the state that is meant to survive a restart. -/
def persistent (node : Node n Command) : Nat × Option (Fin n) × RaftLog Command :=
  (node.currentTerm, node.votedFor, node.log)

/-- The storage works and holds the present term, vote and snapshot, or nothing
was ever written. -/
structure Stored (node : Node n Command) : Prop where
  working : node.storage.failures = []
  headed : node.log.Headed
  records :
    (∃ log, node.storage.raftState =
        some { currentTerm := node.currentTerm, votedFor := node.votedFor, log }) ∧
      node.storage.snapshot = some node.snapshotRecord ∨
    (node.storage.raftState = none ∧ node.storage.snapshot = none ∧ node.currentTerm = 1 ∧
      node.votedFor = none ∧ node.log = newLog invalidIndex invalidTerm [] [])

variable {node : Node n Command}

theorem persistLocked_storage (working : node.storage.failures = []) :
    node.persistLocked.storage =
      { raftState := some node.stateRecord, snapshot := some node.snapshotRecord,
        failures := [] } := by
  rw [persistLocked_storage_eq, working]
  rfl

theorem stored_persistLocked (working : node.storage.failures = []) (headed : node.log.Headed) :
    node.persistLocked.Stored where
  working := by rw [persistLocked_storage working]
  headed := headed
  records := by
    rw [persistLocked_storage working]
    exact .inl ⟨⟨node.serializeLog, rfl⟩, rfl⟩

/-- What agrees with a node is stored as that node is. -/
theorem Stored.of_agrees {next : Node n Command} (stored : node.Stored) (same : node.Agrees next) :
    next.Stored where
  working := by rw [same.storage, stored.working]
  headed := same.log ▸ stored.headed
  records := by
    rw [same.storage, same.term, same.vote, snapshotRecord, same.log]
    exact stored.records

theorem Stored.update {next : Node n Command} (stored : node.Stored) (update : node.Update next) :
    next.Stored := by
  cases update with
  | kept same => exact stored.of_agrees same
  | saved draft unsaved headed result =>
      have saved : draft.persistLocked.Stored :=
        stored_persistLocked (unsaved ▸ stored.working) (headed stored.headed)
      exact saved.of_agrees result

/-- `NewNode` on the storage of a node that stopped: the log is cut back to its
snapshot. -/
theorem Stored.newNode_eq (stored : node.Stored) (me : Fin n) (capacity : Nat) :
    newNode me node.storage capacity =
      { storage := node.storage, me, role := .follower, currentTerm := node.currentTerm,
        votedFor := node.votedFor,
        log := newLog node.log.snapLastIdx node.log.snapLastTerm node.log.snapshot []
        nextIndex := fun _ => 0, matchIndex := fun _ => 0,
        commitIndex := node.log.snapLastIdx, lastApplied := node.log.snapLastIdx,
        applyCh := ApplyCh.make capacity, snapPending := false, msgs := [] } := by
  rcases stored.records with ⟨⟨log, state⟩, record⟩ | ⟨noState, noSnapshot, term, vote, log⟩
  · simp only [newNode, loadFromStorage, state, record, snapshotRecord]
    split
    · rfl
    · rename_i nothing
      have zero : node.log.snapLastIdx = 0 := Nat.le_zero.mp (not_lt.mp nothing)
      rw [zero]
  · simp only [newNode, loadFromStorage, noState, noSnapshot, term, vote, log]
    rfl

theorem Stored.newNode (stored : node.Stored) (me : Fin n) (capacity : Nat) :
    (newNode me node.storage capacity).Stored := by
  rw [stored.newNode_eq]
  refine ⟨stored.working, RaftLog.headed_newLog _ _ _ _, ?_⟩
  rcases stored.records with written | ⟨noState, noSnapshot, term, vote, log⟩
  · exact .inl written
  · refine .inr ⟨noState, noSnapshot, term, vote, ?_⟩
    rw [log]
    rfl

theorem Stored.handle {next : Node n Command} {call : NodeCall n Command} (stored : node.Stored)
    (handled : node.handle call = some next) : next.Stored := by
  by_cases restarts : ∃ capacity, call = .restart capacity
  · obtain ⟨capacity, rfl⟩ := restarts
    cases handled
    exact stored.newNode node.me capacity
  · apply (handle_updates handled (not_exists.mp restarts)).preserves Stored ?_ stored
    exact fun first last before update => before.update update

theorem stored_empty (me : Fin n) (capacity : Nat) :
    (Node.newNode me (RaftStorage.empty n Command) capacity).Stored :=
  ⟨rfl, ⟨[], rfl⟩, .inr ⟨rfl, rfl, rfl, rfl, rfl⟩⟩

theorem stored_of_reachable (reached : (nodeSystem n Command).Reachable System.anyStep node) :
    node.Stored := by
  refine reached.preserves ?_ ?_
  · rintro _ ⟨me, capacity, rfl⟩
    exact stored_empty me capacity
  · intro _ _ _ stored _ handled
    exact stored.handle handled

/-- A restart brings back term, vote and log exactly if the log holds no entry
after its snapshot. -/
theorem newNode_persistent_iff {node : Node n Command}
    (reached : (nodeSystem n Command).Reachable System.anyStep node) (capacity : Nat) :
    (newNode node.me node.storage capacity).persistent = node.persistent ↔
      node.log.tailLog.length = 1 := by
  have stored := stored_of_reachable reached
  rcases stored.headed with ⟨entries, shape⟩
  have log : node.log = newLog node.log.snapLastIdx node.log.snapLastTerm node.log.snapshot
      entries := by
    cases held : node.log
    rw [held] at shape
    simp [newLog, ← shape]
  rw [stored.newNode_eq, shape]
  simp only [persistent, Prod.mk.injEq, true_and, List.length_cons, Nat.add_eq_right]
  constructor
  · intro same
    rw [log] at same
    simpa [newLog] using same
  · intro none
    rw [log, List.length_eq_zero_iff.mp none]
    rfl

/-- A candidate of term 2 with a log it compacted nothing of and that is empty. -/
def candidateNode : Node 2 Nat :=
  (nodeSystem 2 Nat).after (fun _ _ => true) (newNode 0 (RaftStorage.empty 2 Nat) 4)
    [.electionTimeout]

theorem newNode_persistent_candidate :
    candidateNode.currentTerm = 2 ∧ candidateNode.votedFor = some 0 ∧
      (newNode 0 candidateNode.storage 4).persistent = candidateNode.persistent :=
  ⟨rfl, rfl, (@newNode_persistent_iff _ _ candidateNode
    ⟨_, ⟨0, 4, rfl⟩, (System.run_after (fun _ _ => true) _ _).mono fun _ _ _ => trivial⟩ 4).mpr
    rfl⟩

/-- One entry of a leader of term 2, from the start of the log. -/
def firstAppend : AppendEntriesArgs 2 Nat :=
  { term := 2, leaderId := 1, prevLogIndex := 0, prevLogTerm := 0,
    entries := [{ term := 2, commandValid := true, command := some 7 }], leaderCommit := 0 }

/-- A follower that has accepted it. -/
def acknowledgedNode : Node 2 Nat :=
  (nodeSystem 2 Nat).after (fun _ _ => true) (newNode 0 (RaftStorage.empty 2 Nat) 4)
    [.appendEntries firstAppend]

/-- The entry was acknowledged and written to the storage, and a restart on that
storage comes up without it. -/
theorem newNode_forgets_acknowledged :
    (nodeSystem 2 Nat).Reachable System.anyStep acknowledgedNode ∧
    ((newNode 0 (RaftStorage.empty 2 Nat) 4).handleAppendEntries firstAppend).map
      (·.2.success) = some true ∧
    acknowledgedNode.storage.raftState.map (·.log.tailLog) =
      some (LogEntry.dummy 0 :: firstAppend.entries) ∧
    acknowledgedNode.log.tailLog = LogEntry.dummy 0 :: firstAppend.entries ∧
    (newNode 0 acknowledgedNode.storage 4).log.tailLog = [LogEntry.dummy 0] :=
  ⟨⟨_, ⟨0, 4, rfl⟩, (System.run_after (fun _ _ => true) _ _).mono fun _ _ _ => trivial⟩,
    rfl, rfl, rfl, rfl⟩

end MultiRaft.Node
