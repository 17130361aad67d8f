import MultiRaft.Raft.LogStep

/-!
# A leader only appends

`AppendEntries` and `InstallSnapshot` rewrite the log of whoever accepts them, but
they also end a leadership.  As long as it lasts, `Start` adds entries at the end
and `Snapshot` moves the beginning, so an index that `Start` returned keeps its
command.
-/

namespace MultiRaft

variable {n : Nat} {Command : Type}

/-- The new log goes on where the old one ended and may be compacted further. -/
structure RaftLog.Continues (old new : RaftLog Command) : Prop where
  size : old.size ≤ new.size
  snapLastIdx : old.snapLastIdx ≤ new.snapLastIdx
  entries : ∀ index, new.snapLastIdx < index → index < old.size →
    new.entryAt index = old.entryAt index

namespace RaftLog

theorem Continues.refl (rl : RaftLog Command) : rl.Continues rl :=
  ⟨le_rfl, le_rfl, fun _ _ _ => rfl⟩

theorem Continues.trans {first middle last : RaftLog Command}
    (front : first.Continues middle) (back : middle.Continues last) : first.Continues last where
  size := front.size.trans back.size
  snapLastIdx := front.snapLastIdx.trans back.snapLastIdx
  entries index above below :=
    (back.entries index above (below.trans_le front.size)).trans
      (front.entries index (back.snapLastIdx.trans_lt above) below)

theorem continues_append (rl : RaftLog Command) (entry : LogEntry Command) :
    rl.Continues (rl.append entry) :=
  ⟨(rl.size_append entry).ge.trans' (Nat.le_succ _), le_rfl, fun _ _ below => entryAt_append below⟩

theorem continues_doSnapshot {rl next : RaftLog Command} {index : Nat} {bytes : Bytes}
    (newer : rl.snapLastIdx < index) (compacted : rl.doSnapshot index bytes = some next) :
    rl.Continues next where
  size := (size_doSnapshot compacted).ge
  snapLastIdx := by
    rcases doSnapshot_snapLastIdx compacted with rfl | moved
    · exact le_rfl
    · exact newer.le.trans moved.ge
  entries _ above _ := entryAt_doSnapshot compacted above

end RaftLog

/-- `Start` on a leader returns the index at which its entry will stand. -/
theorem Raft.start_index {rf : Raft n Command} (leads : rf.role = .leader)
    (command : Option Command) : (rf.start command).2.1 = rf.log.size := by
  simp [Raft.start, leads, RaftLog.size_append]

/-- A section that leaves a leader a leader only appends or compacts. -/
theorem Raft.LogStep.continues {rf next : Raft n Command} {call : Call n Command}
    (step : LogStep rf next call) (leads : next.role = .leader) : rf.log.Continues next.log := by
  cases step with
  | kept log =>
      rw [log]
      exact .refl _
  | append _ _ _ log =>
      rw [log]
      exact RaftLog.continues_append _ _
  | adopt _ role => exact nomatch leads.symm.trans role
  | install _ role => exact nomatch leads.symm.trans role
  | compact _ _ _ newer log => exact RaftLog.continues_doSnapshot newer log

namespace Cluster

/-- The server is the leader of the term. -/
def Leads (cluster : Cluster n Command) (server : Fin n) (term : Nat) : Prop :=
  (cluster.servers server).role = .leader ∧ (cluster.servers server).currentTerm = term

theorem continues_step {cluster next : Cluster n Command} {event : Event n Command}
    (stepped : cluster.Step event next) {server : Fin n}
    (leads : (next.servers server).role = .leader) :
    (cluster.servers server).log.Continues (next.servers server).log := by
  rcases stepped.servers server with same | ⟨call, handled, _⟩ | ⟨_, restarted⟩
  · rw [same]
    exact .refl _
  · exact (Raft.proceeds_handle handled).log.continues leads
  · rw [restarted, Raft.make_role] at leads
    cases leads

theorem continues_run {first last : Cluster n Command} {server : Fin n} {term : Nat}
    (run : (raftSystem n Command).Run (fun cluster _ => cluster.Leads server term) first last)
    (leads : last.Leads server term) :
    (first.servers server).log.Continues (last.servers server).log := by
  induction run with
  | refl => exact .refl _
  | tail front permitted stepped inductionHypothesis =>
      exact (inductionHypothesis permitted).trans (continues_step (step_cases stepped) leads.1)

end Cluster

/-- While a server leads a term its log only grows at the end, what it holds stays
where it is, and no two calls of `Start` return the same index. -/
theorem leader_append_only {first last : Cluster n Command} {server : Fin n} {term : Nat}
    (run : (raftSystem n Command).Run (fun cluster _ => cluster.Leads server term) first last)
    (leads : last.Leads server term) :
    (first.servers server).log.size ≤ (last.servers server).log.size ∧
    (∀ index, (last.servers server).log.snapLastIdx < index →
      index < (first.servers server).log.size →
      (last.servers server).log.entryAt index = (first.servers server).log.entryAt index) ∧
    ∀ (before : Cluster n Command) (command : Option Command), before.Leads server term →
      before.step (.start server command) = some first →
      (∀ other, ((before.servers server).start command).2.1 <
        ((last.servers server).start other).2.1) ∧
      ((last.servers server).log.snapLastIdx < ((before.servers server).start command).2.1 →
        (last.servers server).log.entryAt ((before.servers server).start command).2.1 =
          some { term, commandValid := true, command }) := by
  have continues := Cluster.continues_run run leads
  refine ⟨continues.size, continues.entries, ?_⟩
  rintro before command ⟨led, rfl⟩ started
  cases started
  rcases (before.servers server).start_cases command with ⟨notLeader, _⟩ | ⟨_, result⟩
  · exact absurd led notLeader
  · rw [Cluster.setServer_servers_self, result] at continues
    have size : (before.servers server).log.size < (last.servers server).log.size :=
      (RaftLog.size_append _ _).ge.trans continues.size
    rw [Raft.start_index led]
    refine ⟨?_, ?_⟩
    · intro other
      rw [Raft.start_index leads.1]
      exact size
    · intro above
      rw [continues.entries _ above (RaftLog.size_append _ _).ge]
      exact RaftLog.entryAt_append_self _

/-- Server 0 leads term 2. -/
def leadingCheck (cluster : Cluster 3 Nat) (_ : Event 3 Nat) : Bool :=
  (cluster.servers 0).role == .leader && (cluster.servers 0).currentTerm == 2

/-- The leader takes a second command, commits it, compacts and takes a third one. -/
def continuedCluster : Cluster 3 Nat :=
  (raftSystem 3 Nat).after leadingCheck commandedCluster [.start 0 (some 11)]

def compactedCluster : Cluster 3 Nat :=
  (raftSystem 3 Nat).after leadingCheck continuedCluster
    [.startReplication 0 2, .deliver 1, .deliver 1, .snapshot 0 1 [], .start 0 (some 12)]

theorem leader_append_only_compacted :
    (compactedCluster.servers 0).log.snapLastIdx = 1 ∧
    (continuedCluster.servers 0).log.size = 3 ∧
    (continuedCluster.servers 0).log.size ≤ (compactedCluster.servers 0).log.size ∧
    (compactedCluster.servers 0).log.entryAt 2 =
      some { term := 2, commandValid := true, command := some 11 } := by
  have run : (raftSystem 3 Nat).Run (fun cluster _ => cluster.Leads 0 2) continuedCluster
      compactedCluster :=
    (System.run_after leadingCheck _ _).mono fun _ _ checked => by
      simpa [leadingCheck, Cluster.Leads] using checked
  obtain ⟨size, _, started⟩ := leader_append_only run ⟨rfl, rfl⟩
  obtain ⟨_, stays⟩ := started commandedCluster (some 11) ⟨rfl, rfl⟩ rfl
  exact ⟨rfl, rfl, size, stays (by decide)⟩

end MultiRaft
