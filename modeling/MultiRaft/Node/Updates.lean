import MultiRaft.Node.Sections

/-!
# What a section writes to the storage

A critical section saves at most twice: when it goes to a later term, and after that
for what it is about.  Only a compaction and an installation move the snapshot.
-/

namespace MultiRaft.Node

variable {n : Nat} {Command : Type} {node next : Node n Command}

/-- The state record that `persistLocked` asks the storage to keep. -/
def stateRecord (node : Node n Command) : RaftState n Command :=
  { currentTerm := node.currentTerm, votedFor := node.votedFor, log := node.serializeLog }

/-- The snapshot record of the present log. -/
def snapshotRecord (node : Node n Command) : Snapshot :=
  { index := node.log.snapLastIdx, term := node.log.snapLastTerm, data := node.log.snapshot }

/-- Each of the two saves may fail on its own. -/
theorem persistLocked_storage_eq (node : Node n Command) :
    node.persistLocked.storage =
      { raftState := if node.storage.failures[0]? = some true then node.storage.raftState
          else some node.stateRecord
        snapshot := if node.storage.failures[1]? = some true then node.storage.snapshot
          else some node.snapshotRecord
        failures := node.storage.failures.drop 2 } := by
  simp only [persistLocked, RaftStorage.saveRaftState, RaftStorage.saveSnapshot, stateRecord,
    snapshotRecord]
  cases node.storage.failures with
  | nil => rfl
  | cons first rest =>
      cases rest with
      | nil => cases first <;> rfl
      | cons second rest => cases first <;> cases second <;> rfl

theorem newNode_storage (me : Fin n) (storage : RaftStorage n Command) (capacity : Nat) :
    (newNode me storage capacity).storage = storage := by
  unfold newNode loadFromStorage
  grind

/-- Two states with the same storage and the same content for it. -/
structure Agrees (node next : Node n Command) : Prop where
  storage : next.storage = node.storage
  term : next.currentTerm = node.currentTerm
  vote : next.votedFor = node.votedFor
  log : next.log = node.log

theorem Agrees.refl (node : Node n Command) : node.Agrees node := ⟨rfl, rfl, rfl, rfl⟩

/-- A part of a section that calls `persistLocked` at most once. -/
inductive Update (node next : Node n Command) : Prop
  | kept (same : node.Agrees next)
  | saved (draft : Node n Command) (unsaved : draft.storage = node.storage)
      (headed : node.log.Headed → draft.log.Headed) (result : draft.persistLocked.Agrees next)

theorem Update.refl (node : Node n Command) : node.Update node := .kept (.refl node)

theorem update_persistLocked {draft : Node n Command}
    (headed : node.log.Headed → draft.log.Headed) (unsaved : draft.storage = node.storage) :
    node.Update draft.persistLocked :=
  .saved draft unsaved headed (.refl _)

/-- The part that goes to a later term. -/
theorem update_becomeFollowerLocked (node : Node n Command) {term : Nat}
    (current : node.currentTerm ≤ term) :
    node.Update (node.becomeFollowerLocked term) ∧
      (node.becomeFollowerLocked term).log = node.log := by
  refine ⟨?_, node.becomeFollowerLocked_log current⟩
  rcases node.becomeFollowerLocked_cases current with ⟨-, result⟩ | ⟨-, result⟩
  · rw [result]
    exact .kept ⟨rfl, rfl, rfl, rfl⟩
  · rw [result]
    exact update_persistLocked id rfl

theorem update_aligned (node : Node n Command) {term : Nat} (current : node.currentTerm ≤ term) :
    node.Update (node.aligned term) ∧ (node.aligned term).log = node.log := by
  rcases node.aligned_cases current with ⟨-, result⟩ | ⟨-, result⟩
  · rw [result]
    exact ⟨.refl node, rfl⟩
  · rw [result]
    exact ⟨update_persistLocked id rfl, rfl⟩

/-- The calls that move the snapshot. -/
def compacts (node : Node n Command) : NodeCall n Command → Bool
  | .snapshot index _ => decide (node.log.snapLastIdx < index ∧ index ≤ node.commitIndex)
  | .installSnapshot req =>
      decide (node.currentTerm ≤ req.term ∧ node.log.snapLastIdx < req.lastIncludedIndex)
  | _ => false

/-- Two parts, of which only the second one touches the log. -/
structure Updates (node : Node n Command) (call : NodeCall n Command) (next : Node n Command) :
    Prop where
  parts : ∃ middle, node.Update middle ∧ middle.log = node.log ∧ middle.Update next
  snapshot : node.compacts call = false → next.log.snapLastIdx = node.log.snapLastIdx

variable {call : NodeCall n Command}

theorem Updates.of_agrees (same : node.Agrees next) : node.Updates call next where
  parts := ⟨node, .refl node, rfl, .kept same⟩
  snapshot _ := by rw [same.log]

theorem Updates.of_update (update : node.Update next) (log : next.log = node.log) :
    node.Updates call next where
  parts := ⟨next, update, log, .refl next⟩
  snapshot _ := by rw [log]

theorem handle_updates (handled : node.handle call = some next)
    (running : ∀ capacity, call ≠ .restart capacity) : node.Updates call next := by
  cases handle_outcome handled with
  | follow _ term current =>
      obtain ⟨update, log⟩ := node.update_becomeFollowerLocked current
      exact .of_update update log
  | stand => exact .of_update (update_persistLocked id rfl) rfl
  | vote req current =>
      obtain ⟨update, log⟩ := node.update_aligned current
      exact ⟨⟨_, update, log, update_persistLocked id rfl⟩, fun _ => by rw [← log]; rfl⟩
  | adopt req prev log current _ _ written =>
      obtain ⟨update, same⟩ := node.update_becomeFollowerLocked current
      refine ⟨⟨_, update, same, .saved { node.becomeFollowerLocked req.term with log } rfl ?_
        ⟨rfl, rfl, rfl, rfl⟩⟩, ?_⟩
      · rw [same]
        exact fun headed => headed.appendFrom written
      · exact fun _ => RaftLog.appendFrom_snapLastIdx written
  | install req log current newer written =>
      obtain ⟨update, same⟩ := node.update_becomeFollowerLocked current
      refine ⟨⟨_, update, same, .saved { node.becomeFollowerLocked req.term with log } rfl ?_
        ⟨rfl, rfl, rfl, rfl⟩⟩, ?_⟩
      · rw [same]
        exact fun headed => headed.installSnapshot written
      · intro still
        simp [compacts, current, newer] at still
  | start command =>
      exact ⟨⟨node, .refl node, rfl, update_persistLocked (fun headed => headed.append _) rfl⟩,
        fun _ => rfl⟩
  | compact index bytes log committed newer written =>
      refine ⟨⟨node, .refl node, rfl,
        update_persistLocked (fun headed => headed.doSnapshot written) rfl⟩, ?_⟩
      intro still
      simp [compacts, committed, newer] at still
  | restart capacity => exact absurd rfl (running capacity)
  | stay | promote | replicate | probe | count | commit | ship | collectSnapshot | collect | send
  | receive | giveUp => exact .of_agrees ⟨rfl, rfl, rfl, rfl⟩

/-- The rule for what each part of a section preserves. -/
theorem Updates.preserves (holds : Node n Command → Prop) (updates : node.Updates call next)
    (part : ∀ first last, holds first → first.Update last → holds last) (start : holds node) :
    holds next := by
  obtain ⟨middle, front, -, back⟩ := updates.parts
  exact part middle next (part node middle start front) back

end MultiRaft.Node
