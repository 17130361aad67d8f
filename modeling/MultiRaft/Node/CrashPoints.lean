import MultiRaft.Node.Updates

/-!
# A `Node` that crashes in the middle of its saves

`persistLocked` writes two records one after the other.  A crash may fall before,
between and after the writes of any section; what comes next is `NewNode` on what was
written.  The two records leave no hole as long as no crash falls between the two
writes of a new snapshot.
-/

namespace MultiRaft

variable {n : Nat} {Command : Type}

namespace RaftStorage

/-- The stored `Snapshot.Index`; without a record the log begins at index 0. -/
def snapshotIndex (storage : RaftStorage n Command) : Nat :=
  (storage.snapshot.map (·.index)).getD 0

/-- The stored log begins inside the stored snapshot. -/
def Covered (storage : RaftStorage n Command) : Prop :=
  ∀ state, storage.raftState = some state → state.log.snapLastIdx ≤ storage.snapshotIndex

/-- A storage of which only the next few writes are still made; no section makes more
than four. -/
def onlyFirst (storage : RaftStorage n Command) (writes : Nat) : RaftStorage n Command :=
  { storage with failures := List.replicate writes false ++ List.replicate 4 true }

end RaftStorage

/-- A section runs to its end, or the process stops after some of its writes and a new
one starts on the storage. -/
inductive CrashEvent (n : Nat) (Command : Type) where
  | run (call : NodeCall n Command)
  | crash (call : NodeCall n Command) (writes capacity : Nat)

namespace Node

variable {node next : Node n Command} {call : NodeCall n Command} {writes capacity : Nat}

def crash (node : Node n Command) (call : NodeCall n Command) (writes capacity : Nat) :
    Option (Node n Command) :=
  (Node.handle { node with storage := node.storage.onlyFirst writes } call).map fun stopped =>
    newNode node.me { stopped.storage with failures := [] } capacity

def crashStep (node : Node n Command) : CrashEvent n Command → Option (Node n Command)
  | .run call => node.handle call
  | .crash call writes capacity => node.crash call writes capacity

/-- A crash between the two writes of a new snapshot.  An installation in a later term
has written that term before. -/
def torn (node : Node n Command) (call : NodeCall n Command) (writes : Nat) : Bool :=
  node.compacts call && match call with
    | .installSnapshot req => writes == if node.currentTerm < req.term then 3 else 1
    | _ => writes == 1

def keepsRecords (node : Node n Command) : CrashEvent n Command → Bool
  | .run _ => true
  | .crash call writes _ => !node.torn call writes

end Node

def crashSystem (n : Nat) (Command : Type) :
    System (Node n Command) (CrashEvent n Command) where
  init node := ∃ me capacity, node = Node.newNode me (RaftStorage.empty n Command) capacity
  step := Node.crashStep

namespace Node

variable {node next : Node n Command} {call : NodeCall n Command} {writes capacity : Nat}

/-- The stored snapshot is that of the present log, and covers the stored log. -/
structure Matches (node : Node n Command) : Prop where
  index : node.storage.snapshotIndex = node.log.snapLastIdx
  covered : node.storage.Covered

/-- A save that does not move the snapshot may be cut off anywhere. -/
theorem Matches.update (fits : node.Matches) (update : node.Update next)
    (same : next.log.snapLastIdx = node.log.snapLastIdx) : next.Matches := by
  have index := fits.index
  have covered := fits.covered
  cases update with
  | kept agrees => exact ⟨by rw [agrees.storage, agrees.log]; exact index,
      by rw [agrees.storage]; exact covered⟩
  | saved draft unsaved headed result =>
      have log : next.log = draft.log := result.log
      rw [log] at same
      have written : draft.persistLocked.storage.snapshotIndex = node.log.snapLastIdx := by
        rw [persistLocked_storage_eq, unsaved, RaftStorage.snapshotIndex]
        dsimp only
        split
        · exact index
        · exact same
      refine ⟨by rw [result.storage, log, written, same], ?_⟩
      intro state stored
      rw [result.storage, persistLocked_storage_eq, unsaved] at stored
      rw [result.storage, written]
      dsimp only at stored
      split at stored
      · rw [← index]
        exact covered state stored
      · cases stored
        exact Nat.le_of_eq same

/-- A save of both records or of none. -/
theorem covered_persistLocked (covered : node.storage.Covered)
    (whole : node.storage.failures[0]? = some true ↔ node.storage.failures[1]? = some true) :
    node.persistLocked.storage.Covered := by
  intro state stored
  rw [persistLocked_storage_eq, RaftStorage.snapshotIndex]
  rw [persistLocked_storage_eq] at stored
  dsimp only at stored ⊢
  by_cases fails : node.storage.failures[0]? = some true
  · rw [if_pos fails] at stored
    rw [if_pos (whole.mp fails)]
    exact covered state stored
  · rw [if_neg fails] at stored
    rw [if_neg (fun other => fails (whole.mpr other))]
    cases stored
    exact Nat.le_refl _

theorem matches_newNode {storage : RaftStorage n Command} (covered : storage.Covered)
    (me : Fin n) (capacity : Nat) : (newNode me storage capacity).Matches := by
  refine ⟨?_, by rw [newNode_storage]; exact covered⟩
  rw [newNode_storage]
  cases record : storage.snapshot with
  | some snapshot =>
      have loaded : (newNode me storage capacity).log =
          newLog snapshot.index snapshot.term snapshot.data [] := by
        simp only [newNode, loadFromStorage]
        cases storage.raftState <;> simp only [record] <;> split <;> rfl
      rw [loaded, RaftStorage.snapshotIndex, record]
      rfl
  | none =>
      have zero : storage.snapshotIndex = 0 := by rw [RaftStorage.snapshotIndex, record]; rfl
      rw [zero]
      cases written : storage.raftState with
      | none =>
          simp only [newNode, loadFromStorage, written, record]
          rfl
      | some state =>
          have begins := covered state written
          simp only [newNode, loadFromStorage, written, record, deserializeLog]
          omega

/-- While all saves are made, the two records are written together. -/
theorem matches_of_working (fits : node.Matches) (working : node.storage.failures = [])
    (update : node.Update next) : next.Matches ∧ next.storage.failures = [] := by
  cases update with
  | kept agrees =>
      rw [agrees.storage]
      refine ⟨⟨?_, ?_⟩, working⟩
      · rw [agrees.storage, agrees.log]
        exact fits.index
      · rw [agrees.storage]
        exact fits.covered
  | saved draft unsaved headed result =>
      have storage := result.storage
      rw [persistLocked_storage_eq, unsaved, working] at storage
      rw [storage]
      refine ⟨⟨?_, ?_⟩, rfl⟩
      · rw [storage, result.log]
        rfl
      · rw [storage]
        intro state stored
        cases stored
        exact Nat.le_refl _

theorem failures_onlyFirst (storage : RaftStorage n Command) {writes position : Nat}
    (within : position < 4) :
    (storage.onlyFirst writes).failures[position]? = some true ↔ writes ≤ position := by
  simp only [RaftStorage.onlyFirst, List.getElem?_append, List.length_replicate,
    List.getElem?_replicate]
  grind

/-- A section that is cut off in its writes, but not between the two of a new snapshot. -/
theorem Matches.covered_of_cut (fits : node.Matches) (whole : node.torn call writes = false)
    (running : ∀ capacity, call ≠ .restart capacity)
    (handled : Node.handle { node with storage := node.storage.onlyFirst writes } call =
      some next) : next.storage.Covered := by
  have cut : Matches { node with storage := node.storage.onlyFirst writes } :=
    ⟨fits.index, fits.covered⟩
  by_cases moves : node.compacts call = true
  · cases call with
    | snapshot index bytes =>
        simp only [torn, moves, Bool.true_and, beq_eq_false_iff_ne] at whole
        rcases snapshot_cases handled with rfl | ⟨-, -, log, -, rfl⟩
        · exact cut.covered
        · apply covered_persistLocked
          · exact cut.covered
          · rw [failures_onlyFirst _ (by decide), failures_onlyFirst _ (by decide)]
            omega
    | installSnapshot req =>
        simp only [torn, moves, Bool.true_and, beq_eq_false_iff_ne] at whole
        obtain ⟨⟨_, resp⟩, installed, rfl⟩ := Option.map_eq_some_iff.mp handled
        rcases handleInstallSnapshot_cases installed with
          ⟨-, rfl⟩ | ⟨current, rfl⟩ | ⟨current, log, -, -, rfl⟩
        · exact cut.covered
        · obtain ⟨update, log⟩ := update_becomeFollowerLocked _ current
          exact (cut.update update (by rw [log])).covered
        · obtain ⟨update, same⟩ := update_becomeFollowerLocked _ current
          apply covered_persistLocked
          · exact (cut.update update (by rw [same])).covered
          · -- a later term has used up the first two writes
            rcases becomeFollowerLocked_cases _ current with ⟨here, aligns⟩ | ⟨later, aligns⟩
            · dsimp only at here
              rw [if_neg (by omega)] at whole
              rw [aligns]
              dsimp only
              rw [failures_onlyFirst _ (by decide), failures_onlyFirst _ (by decide)]
              omega
            · dsimp only at later
              rw [if_pos later] at whole
              rw [aligns, persistLocked_storage_eq]
              dsimp only
              rw [List.getElem?_drop, List.getElem?_drop, failures_onlyFirst _ (by decide),
                failures_onlyFirst _ (by decide)]
              omega
    | _ => cases moves
  · have updates := handle_updates handled running
    obtain ⟨middle, front, log, back⟩ := updates.parts
    have half := cut.update front (by rw [log])
    refine (half.update back ?_).covered
    rw [log]
    exact updates.snapshot (Bool.eq_false_iff.mpr moves)

theorem Matches.crashStep (fits : node.Matches) (working : node.storage.failures = [])
    {event : CrashEvent n Command} (whole : node.keepsRecords event = true)
    (stepped : node.crashStep event = some next) :
    next.Matches ∧ next.storage.failures = [] := by
  cases event with
  | run call =>
      by_cases restarts : ∃ capacity, call = .restart capacity
      · obtain ⟨capacity, rfl⟩ := restarts
        cases stepped
        exact ⟨matches_newNode fits.covered _ _, by rw [newNode_storage]; exact working⟩
      · have updates := handle_updates stepped (not_exists.mp restarts)
        apply updates.preserves (fun node => node.Matches ∧ node.storage.failures = [])
        · exact fun first last before update => matches_of_working before.1 before.2 update
        · exact ⟨fits, working⟩
  | crash call writes capacity =>
      obtain ⟨stopped, handled, rfl⟩ := Option.map_eq_some_iff.mp stepped
      have covered : stopped.storage.Covered := by
        by_cases restarts : ∃ capacity, call = .restart capacity
        · obtain ⟨again, rfl⟩ := restarts
          cases handled
          rw [newNode_storage]
          exact fits.covered
        · apply fits.covered_of_cut _ (not_exists.mp restarts) handled
          simpa [keepsRecords] using whole
      refine ⟨matches_newNode ?_ _ _, by rw [newNode_storage]⟩
      exact covered

end Node

/-- If no crash falls between the two writes of a new snapshot, then at every point of
every run, crashes at all other points included, the stored log begins inside the stored
snapshot: every index up to the last stored one is in the snapshot or in the log. -/
theorem stored_records_cover {node : Node n Command}
    (reached : (crashSystem n Command).Reachable (fun node event => node.keepsRecords event = true)
      node) {state : RaftState n Command} (stored : node.storage.raftState = some state) :
    state.log.snapLastIdx ≤ node.storage.snapshotIndex ∧
      ∀ index < (Node.deserializeLog state.log).size, index ≤ node.storage.snapshotIndex ∨
        ∃ entry, (Node.deserializeLog state.log).entryAt index = some entry := by
  have start : ∀ node, (crashSystem n Command).init node →
      node.Matches ∧ node.storage.failures = [] := by
    rintro _ ⟨me, capacity, rfl⟩
    exact ⟨Node.matches_newNode (fun state none => by cases none) _ _, rfl⟩
  have fits : node.Matches ∧ node.storage.failures = [] := by
    apply reached.preserves start
    intro first event last before whole stepped
    exact before.1.crashStep before.2 whole stepped
  have begins := fits.1.covered state stored
  refine ⟨begins, ?_⟩
  intro index below
  by_cases inside : index ≤ node.storage.snapshotIndex
  · exact .inl inside
  · have above : (Node.deserializeLog state.log).snapLastIdx ≤ index := by
      simp only [Node.deserializeLog]
      omega
    rw [RaftLog.entryAt_of_mem above below]
    exact .inr ⟨_, List.getElem?_eq_getElem (by simp only [RaftLog.size] at below; omega)⟩

/-- A snapshot of the first five entries. -/
def firstFive : InstallSnapshotArgs 2 :=
  { term := 2, leaderId := 1, lastIncludedIndex := 5, lastIncludedTerm := 1, snapshot := [1] }

/-- A fresh node that crashes after some writes of its installation. -/
def crashedNode (writes : Nat) : Node 2 Nat :=
  (crashSystem 2 Nat).after Node.keepsRecords (Node.newNode 0 (RaftStorage.empty 2 Nat) 4)
    [.crash (.installSnapshot firstFive) writes 4]

theorem stored_records_cover_crashed :
    (crashedNode 4).storage.raftState.map (·.log.snapLastIdx) = some 5 ∧
      5 ≤ (crashedNode 4).storage.snapshotIndex := by
  refine ⟨rfl, ?_⟩
  have reached : (crashSystem 2 Nat).Reachable (fun node event => node.keepsRecords event = true)
      (crashedNode 4) :=
    ⟨_, ⟨0, 4, rfl⟩, System.run_after Node.keepsRecords _ _⟩
  exact (stored_records_cover reached rfl).1

/-- A crash between the two writes of the installation: the stored log begins at index 5,
the stored snapshot ends at index 0, and the next process comes up with neither. -/
def tornNode : Node 2 Nat :=
  (crashSystem 2 Nat).after (fun _ _ => true) (Node.newNode 0 (RaftStorage.empty 2 Nat) 4)
    [.crash (.installSnapshot firstFive) 3 4]

theorem stored_records_torn :
    (crashSystem 2 Nat).Reachable System.anyStep tornNode ∧
      tornNode.storage.raftState.map (·.log.snapLastIdx) = some 5 ∧
      tornNode.storage.snapshotIndex = 0 ∧ tornNode.log.snapLastIdx = 0 :=
  ⟨⟨_, ⟨0, 4, rfl⟩, (System.run_after (fun _ _ => true) _ _).mono fun _ _ _ => trivial⟩,
    rfl, rfl, rfl⟩

end MultiRaft
