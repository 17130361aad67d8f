import MultiRaft.Node.ApplyStream
import MultiRaft.Node.Storage
import MultiRaft.Node.Step

/-!
# What the apply loop of a `Node` reads

`applicationTicker` reads the log at every index after the one it has reached, up to
`commitIndex`, and `at` panics outside the log.  `commitIndex` never goes back, but
`HandleAppendEntries` cuts the log behind the entries of any request whose previous
entry matches.  The loop stays inside the log as long as no such cut goes below
`commitIndex`.
-/

namespace MultiRaft

variable {n : Nat} {Command : Type}

namespace Node

/-- The index up to which the loop has nothing to read: it hands over a pending
snapshot first. -/
def applyFrom (node : Node n Command) : Nat :=
  if node.snapPending then node.log.snapLastIdx else node.lastApplied

/-- The request passes all checks of `HandleAppendEntries`, and the log it leaves ends
below `commitIndex`. -/
def cutsCommitted (node : Node n Command) (req : AppendEntriesArgs n Command) : Bool :=
  decide (node.currentTerm ≤ req.term) &&
    ((node.log.entryAt req.prevLogIndex).map (·.term) == some req.prevLogTerm) &&
    decide (req.prevLogIndex + req.entries.length < node.commitIndex)

/-- The loop stands inside the log, and what it handed over is behind it. -/
structure Bounded (node : Node n Command) : Prop where
  stored : node.Stored
  committed : node.commitIndex < node.log.size
  behind : node.log.snapLastIdx ≤ node.commitIndex
  applied : node.lastApplied ≤ node.commitIndex
  snapshot : node.snapPending = false → node.log.snapLastIdx ≤ node.lastApplied
  handed : ∀ msg ∈ node.stream, msg.index ≤ node.lastApplied

/-- A request that cuts nothing committed, and a compaction at an index that the
service has received. -/
def Permits (node : Node n Command) : NodeCall n Command → Prop
  | .appendEntries req => node.cutsCommitted req = false
  | .snapshot index _ => ∃ msg ∈ node.applyCh.received, msg.index = index
  | _ => True

variable {node next : Node n Command}

/-- A section that leaves the loop alone and keeps the log around it. -/
theorem Bounded.outside (bounded : node.Bounded) (stored : next.Stored)
    (same : SameStream node next) (grown : node.commitIndex ≤ next.commitIndex)
    (committed : next.commitIndex < next.log.size)
    (behind : next.log.snapLastIdx ≤ next.commitIndex)
    (snapshot : next.snapPending = false → next.log.snapLastIdx ≤ node.lastApplied) :
    next.Bounded := by
  refine ⟨stored, committed, behind, ?_, ?_, ?_⟩
  · rw [same.lastApplied]
    exact bounded.applied.trans grown
  · rw [same.lastApplied]
    exact snapshot
  · rw [stream, same.applyCh, same.msgs, same.lastApplied]
    exact bounded.handed

/-- A section that leaves the log alone as well. -/
theorem Bounded.idle (bounded : node.Bounded) (stored : next.Stored) (same : SameStream node next)
    (log : next.log = node.log) (commitIndex : next.commitIndex = node.commitIndex)
    (snapPending : next.snapPending = node.snapPending) : next.Bounded := by
  apply bounded.outside stored same commitIndex.ge
  · rw [log, commitIndex]
    exact bounded.committed
  · rw [log, commitIndex]
    exact bounded.behind
  · rw [log, snapPending]
    exact bounded.snapshot

theorem Bounded.follow (bounded : node.Bounded) {term : Nat} (current : node.currentTerm ≤ term)
    (stored : (node.becomeFollowerLocked term).Stored) :
    (node.becomeFollowerLocked term).Bounded :=
  bounded.idle stored (node.sameStream_becomeFollowerLocked current)
    (node.becomeFollowerLocked_log current) (node.becomeFollowerLocked_commitIndex current)
    (node.becomeFollowerLocked_snapPending current)

theorem Bounded.vote (bounded : node.Bounded) {req : RequestVoteArgs n}
    (current : node.currentTerm ≤ req.term)
    (stored : (persistLocked
      { node.aligned req.term with votedFor := some req.candidateId }).Stored) :
    (persistLocked { node.aligned req.term with votedFor := some req.candidateId }).Bounded := by
  rcases node.aligned_cases current with ⟨_, result⟩ | ⟨_, result⟩
  · rw [result] at stored ⊢
    exact bounded.idle stored ⟨rfl, rfl, rfl⟩ rfl rfl rfl
  · rw [result] at stored ⊢
    exact bounded.idle stored ⟨rfl, rfl, rfl⟩ rfl rfl rfl

/-- A request that is accepted ends its log at or above `commitIndex`, and raises
`commitIndex` no further than the end. -/
theorem Bounded.adopt (bounded : node.Bounded) {req : AppendEntriesArgs n Command}
    {prev : LogEntry Command} (stored : next.Stored) (same : SameStream node next)
    (uncut : node.cutsCommitted req = false) (current : node.currentTerm ≤ req.term)
    (found : node.log.entryAt req.prevLogIndex = some prev) (prevTerm : prev.term = req.prevLogTerm)
    (written : node.log.appendFrom req.prevLogIndex req.entries = some next.log)
    (commitIndex : next.commitIndex =
      if req.leaderCommit > node.commitIndex then
        if req.leaderCommit > next.log.last.1 then next.log.last.1 else req.leaderCommit
      else node.commitIndex) (snapPending : next.snapPending = node.snapPending) :
    next.Bounded := by
  have size := (RaftLog.appendFrom_bounds written).2.2
  have last := (bounded.stored.headed.appendFrom written).size_eq
  have kept : node.commitIndex ≤ req.prevLogIndex + req.entries.length := by
    simpa [cutsCommitted, current, found, prevTerm] using uncut
  have grown : node.commitIndex ≤ next.commitIndex ∧ next.commitIndex < next.log.size := by
    rw [commitIndex]
    split_ifs <;> omega
  apply bounded.outside stored same grown.1 grown.2
  · rw [RaftLog.appendFrom_snapLastIdx written]
    exact bounded.behind.trans grown.1
  · rw [RaftLog.appendFrom_snapLastIdx written, snapPending]
    exact bounded.snapshot

/-- An installed snapshot reaches beyond the log, or keeps what is behind it. -/
theorem Bounded.install (bounded : node.Bounded) {req : InstallSnapshotArgs n}
    (stored : next.Stored) (same : SameStream node next)
    (newer : node.log.snapLastIdx < req.lastIncludedIndex)
    (written : node.log.installSnapshot req.lastIncludedIndex req.lastIncludedTerm
      req.snapshot = some next.log)
    (commitIndex : next.commitIndex =
      if req.lastIncludedIndex > node.commitIndex then req.lastIncludedIndex
      else node.commitIndex) (snapPending : next.snapPending = true) : next.Bounded := by
  have inside := bounded.committed
  have size : max node.log.size (req.lastIncludedIndex + 1) ≤ next.log.size := by
    rcases RaftLog.installSnapshot_cases newer written with ⟨longer, result⟩ | ⟨shorter, result⟩
    · rw [result]
      simp only [RaftLog.size, List.length_cons, List.length_drop] at longer ⊢
      omega
    · rw [result]
      simp only [RaftLog.size, List.length_singleton] at shorter ⊢
      omega
  apply bounded.outside stored same
  · rw [commitIndex]
    split_ifs <;> omega
  · rw [commitIndex]
    split_ifs <;> omega
  · rw [commitIndex, RaftLog.installSnapshot_snapLastIdx newer written]
    split_ifs <;> omega
  · intro nothing
    rw [snapPending] at nothing
    cases nothing

/-- A compaction stays behind the loop, since the service has received its index. -/
theorem Bounded.compact (bounded : node.Bounded) {index : Nat} {bytes : Bytes}
    (stored : next.Stored) (same : SameStream node next)
    (received : ∃ msg ∈ node.applyCh.received, msg.index = index)
    (committed : index ≤ node.commitIndex)
    (written : node.log.doSnapshot index bytes = some next.log)
    (commitIndex : next.commitIndex = node.commitIndex)
    (snapPending : next.snapPending = node.snapPending) : next.Bounded := by
  obtain ⟨msg, member, rfl⟩ := received
  have handed : msg.index ≤ node.lastApplied := bounded.handed msg (by simp [stream, member])
  apply bounded.outside stored same commitIndex.ge
  · rw [commitIndex, RaftLog.size_doSnapshot written]
    exact bounded.committed
  · rw [commitIndex]
    rcases RaftLog.doSnapshot_snapLastIdx written with unmoved | moved
    · rw [unmoved]
      exact bounded.behind
    · rw [moved]
      exact committed
  · rw [snapPending]
    intro nothing
    rcases RaftLog.doSnapshot_snapLastIdx written with unmoved | moved
    · rw [unmoved]
      exact bounded.snapshot nothing
    · rw [moved]
      exact handed

/-- The indexes the loop reads. -/
def reads (node : Node n Command) : List Nat :=
  List.range' (node.applyFrom + 1) (node.commitIndex - node.applyFrom)

theorem mem_reads {index : Nat} :
    index ∈ node.reads ↔ node.applyFrom < index ∧ index ≤ node.commitIndex := by
  rw [reads, List.mem_range'_1]
  omega

theorem Bounded.applyFrom (bounded : node.Bounded) :
    node.log.snapLastIdx ≤ node.applyFrom := by
  unfold Node.applyFrom
  split
  · exact le_rfl
  · rename_i nothing
    exact bounded.snapshot (Bool.not_eq_true _ ▸ nothing)

theorem Bounded.reads (bounded : node.Bounded) {index : Nat} (read : index ∈ node.reads) :
    node.log.snapLastIdx ≤ index ∧ index < node.log.size := by
  obtain ⟨above, below⟩ := mem_reads.mp read
  have position := bounded.applyFrom
  have inside := bounded.committed
  omega

/-- The loop does not panic. -/
theorem Bounded.isSome_collect (bounded : node.Bounded) (idle : node.msgs = [])
    (due : node.lastApplied < node.commitIndex ∨ node.snapPending = true) :
    node.collect.isSome := by
  have made : (node.reads.mapM node.commandMsg).isSome := by
    apply isSome_mapM
    intro index read
    obtain ⟨above, below⟩ := bounded.reads read
    rw [commandMsg, Option.isSome_map]
    exact RaftLog.isSome_entryAt above below
  obtain ⟨commands, made⟩ := Option.isSome_iff_exists.mp made
  have pending : ¬ (node.commitIndex ≤ node.lastApplied ∧ node.snapPending = false) := by
    rintro ⟨reached, nothing⟩
    rw [nothing] at due
    simp only [Bool.false_eq_true, or_false] at due
    omega
  simp only [Node.collect, idle]
  rw [if_neg pending]
  change ((node.reads.mapM node.commandMsg).bind _).isSome = true
  rw [made]
  rfl

theorem index_of_collected {start : Nat} {commands : List (ApplyMsg Command)}
    (made : (List.range' (start + 1) (node.commitIndex - start)).mapM node.commandMsg =
      some commands) {msg : ApplyMsg Command} (member : msg ∈ commands) :
    msg.index ≤ node.commitIndex := by
  obtain ⟨index, read, result⟩ := exists_key_of_mapM_eq_some made member
  rw [List.mem_range'_1] at read
  rw [commandMsg_index index msg result]
  omega

/-- The loop takes everything up to `commitIndex`. -/
theorem Bounded.batch (bounded : node.Bounded) (stored : next.Stored) (idle : node.msgs = [])
    (log : next.log = node.log) (commitIndex : next.commitIndex = node.commitIndex)
    (lastApplied : next.lastApplied = node.commitIndex) (applyCh : next.applyCh = node.applyCh)
    (indexes : ∀ msg ∈ next.msgs, msg.index ≤ node.commitIndex) : next.Bounded := by
  refine ⟨stored, ?_, ?_, ?_, ?_, ?_⟩
  · rw [log, commitIndex]
    exact bounded.committed
  · rw [log, commitIndex]
    exact bounded.behind
  · rw [commitIndex, lastApplied]
  · intro _
    rw [log, lastApplied]
    exact bounded.behind
  · intro msg member
    rw [lastApplied]
    rw [stream, applyCh, List.mem_append] at member
    rcases member with earlier | collected
    · have before : msg ∈ node.stream := by
        rw [stream, idle, List.append_nil]
        exact earlier
      exact (bounded.handed msg before).trans bounded.applied
    · exact indexes msg collected

theorem Bounded.collect (bounded : node.Bounded) (collected : node.collect = some next) :
    next.Bounded := by
  have handled : node.handle .collect = some next := collected
  have stored := bounded.stored.handle handled
  obtain ⟨idle, commands, ⟨_, made, rfl⟩ | ⟨_, made, rfl⟩⟩ := collect_cases collected
  · apply bounded.batch stored idle rfl rfl (max_eq_right bounded.behind) rfl
    intro msg member
    rcases List.mem_cons.mp member with rfl | command
    · exact bounded.behind
    · exact index_of_collected made command
  · apply bounded.batch stored idle rfl rfl (max_eq_right bounded.applied) rfl
    exact fun msg command => index_of_collected made command

/-- The consumer and the hand-over bring no new message. -/
theorem Bounded.handOver (bounded : node.Bounded) {msgs : List (ApplyMsg Command)}
    {applyCh : ApplyCh Command} (stored : Stored { node with msgs, applyCh })
    (stream : ∀ msg ∈ Node.stream { node with msgs, applyCh }, msg ∈ node.stream) :
    Bounded { node with msgs, applyCh } :=
  ⟨stored, bounded.committed, bounded.behind, bounded.applied, bounded.snapshot,
    fun msg member => bounded.handed msg (stream msg member)⟩

theorem Bounded.send (bounded : node.Bounded) (sent : node.send = some next) : next.Bounded := by
  have handled : node.handle .send = some next := sent
  have stored := bounded.stored.handle handled
  obtain ⟨first, rest, handing, rfl⟩ := send_cases sent
  apply bounded.handOver stored
  intro msg member
  simp only [stream, ApplyCh.trySend, handing, List.mem_append, List.mem_cons] at member ⊢
  split_ifs at member
  · rw [List.mem_append, List.mem_singleton] at member
    tauto
  · rw [List.mem_append, List.mem_singleton] at member
    tauto
  · tauto

theorem Bounded.receive (bounded : node.Bounded)
    (stored : Stored { node with applyCh := node.applyCh.receive }) :
    Bounded { node with applyCh := node.applyCh.receive } := by
  apply bounded.handOver stored
  intro msg member
  cases held : node.applyCh.buffer with
  | nil => simpa [stream, ApplyCh.receive, held] using member
  | cons first rest => simpa [stream, ApplyCh.receive, held] using member

theorem bounded_newNode (stored : node.Stored) (me : Fin n) (capacity : Nat) :
    (newNode me node.storage capacity).Bounded := by
  have again := stored.newNode me capacity
  rw [stored.newNode_eq] at again ⊢
  refine ⟨again, ?_, le_rfl, le_rfl, fun _ => le_rfl, ?_⟩
  · exact again.headed.snapLastIdx_lt
  · intro msg member
    cases member

theorem Bounded.handle {call : NodeCall n Command} (bounded : node.Bounded)
    (permits : node.Permits call) (handled : node.handle call = some next) : next.Bounded := by
  have stored := bounded.stored.handle handled
  cases handle_outcome handled with
  | follow _ term current => exact bounded.follow current stored
  | vote req current => exact bounded.vote current stored
  | adopt req prev log current found prevTerm written =>
      exact bounded.adopt stored (sameStream_handle rfl handled) permits current found prevTerm
        written rfl (node.becomeFollowerLocked_snapPending current)
  | commit peer args resp majorityIdx entry more found =>
      exact bounded.outside stored ⟨rfl, rfl, rfl⟩ more.le (RaftLog.entryAt_bounds found).2
        (bounded.behind.trans more.le) bounded.snapshot
  | install req log current newer written =>
      exact bounded.install stored (sameStream_handle rfl handled) newer written rfl rfl
  | start command =>
      refine bounded.outside stored ⟨rfl, rfl, rfl⟩ le_rfl ?_ bounded.behind bounded.snapshot
      dsimp only [persistLocked]
      rw [RaftLog.size_append]
      exact Nat.lt_succ_of_lt bounded.committed
  | compact index bytes log committed newer written =>
      exact bounded.compact stored ⟨rfl, rfl, rfl⟩ permits committed written rfl rfl
  | collectSnapshot | collect => exact bounded.collect handled
  | send => exact bounded.send handled
  | receive => exact bounded.receive stored
  | giveUp => exact bounded.handOver stored fun _ member => member
  | restart capacity => exact bounded_newNode bounded.stored node.me capacity
  | stay | stand | promote | replicate | probe | count | ship =>
      exact bounded.idle stored ⟨rfl, rfl, rfl⟩ rfl rfl rfl

end Node

namespace NodeCluster

/-- The service compacts only at indexes that it has received on `applyCh`. -/
def asksReceived (cluster : NodeCluster n Command) : NodeEvent n Command → Bool
  | .snapshot node index _ => (cluster.nodes node).applyCh.received.any (·.index == index)
  | _ => true

/-- No node accepts an `AppendEntries` request that leaves it a log which ends below
its `commitIndex`. -/
def keepsCommitted (cluster : NodeCluster n Command) : NodeEvent n Command → Bool
  | .deliver index =>
      match cluster.calls[index]? with
      | some { peer, body := .append req _ _, .. } => !(cluster.nodes peer).cutsCommitted req
      | _ => true
  | _ => true

theorem Causes.permits {cluster : NodeCluster n Command} {event : NodeEvent n Command}
    {node : Fin n} {call : NodeCall n Command} (causes : cluster.Causes event node call)
    (received : cluster.asksReceived event = true)
    (kept : cluster.keepsCommitted event = true) : (cluster.nodes node).Permits call := by
  cases call with
  | appendEntries req =>
      obtain ⟨index, ⟨caller, incarnation, peer, body⟩, responses, returned, rfl, found, rfl, rfl⟩ :=
        causes
      simpa [keepsCommitted, found, Node.Permits] using kept
  | snapshot index bytes =>
      cases causes
      simpa [asksReceived, Node.Permits] using received
  | _ => trivial

end NodeCluster

/-- In every run in which the service compacts only at received indexes and no
`AppendEntries` request that would leave a node's log ending below its `commitIndex`
is accepted, the apply loop reads inside the log and never panics. -/
theorem apply_loop_in_range {cluster : NodeCluster n Command}
    (reached : (nodeClusterSystem n Command).Reachable
      (fun state event => state.asksReceived event = true ∧ state.keepsCommitted event = true)
      cluster) (node : Fin n) :
    (cluster.nodes node).commitIndex < (cluster.nodes node).log.size ∧
    (cluster.nodes node).log.snapLastIdx ≤ (cluster.nodes node).applyFrom + 1 ∧
    (∀ index ∈ (cluster.nodes node).reads,
      (cluster.nodes node).log.snapLastIdx ≤ index ∧ index < (cluster.nodes node).log.size) ∧
    ((cluster.nodes node).msgs = [] →
      (cluster.nodes node).lastApplied < (cluster.nodes node).commitIndex ∨
        (cluster.nodes node).snapPending = true →
      (cluster.nodes node).collect.isSome) := by
  have start : ∀ state, (nodeClusterSystem n Command).init state →
      ∀ node, (state.nodes node).Bounded := by
    rintro state ⟨capacity, rfl⟩ node
    exact Node.bounded_newNode (Node.stored_empty node (capacity node)) node (capacity node)
  have bounded : (cluster.nodes node).Bounded := by
    refine reached.preserves start ?_ node
    rintro state event next before ⟨received, kept⟩ stepped node
    rcases NodeCluster.step_nodes stepped node with
      same | ⟨call, handled, causes⟩ | ⟨capacity, restarted⟩
    · rw [same]
      exact before node
    · exact (before node).handle (causes.permits received kept) handled
    · rw [restarted]
      exact Node.bounded_newNode (before node).stored node capacity
  refine ⟨bounded.committed, Nat.le_succ_of_le bounded.applyFrom, ?_, bounded.isSome_collect⟩
  exact fun index read => bounded.reads read

/-- Node 0 compacts at an index its service has received; node 1 installs the snapshot
and gets one more entry before its loop runs. -/
def pendingCluster : NodeCluster 3 Nat :=
  (nodeClusterSystem 3 Nat).after
    (fun state event => state.asksReceived event && state.keepsCommitted event)
    (NodeCluster.initial 3 Nat fun _ => 1)
    [.electionTimeout 0, .startElection 0, .deliver 0, .answer 0 0, .count 0, .promote 0,
     .start 0 (some 10), .start 0 (some 11), .startReplication 0 2, .deliver 3, .answer 3 0,
     .collect 0, .send 0, .receive 0, .snapshot 0 1 [7], .startReplication 0 2, .deliver 4,
     .answer 4 0, .startReplication 0 2, .deliver 6]

theorem apply_loop_in_range_pending :
    (pendingCluster.nodes 1).snapPending = true ∧ (pendingCluster.nodes 1).reads = [2] ∧
      (pendingCluster.nodes 1).log.snapLastIdx = 1 ∧
      (pendingCluster.nodes 1).collect.isSome :=
  ⟨rfl, rfl, rfl, (apply_loop_in_range
    ⟨_, ⟨_, rfl⟩, (System.run_after _ _ _).mono fun _ _ both => Bool.and_eq_true_iff.mp both⟩
    1).2.2.2 rfl (.inr rfl)⟩

/-- Without the condition on requests: node 1 has two entries and commits both, when a
request that node 0 had made for the first of them arrives late.  The loop is then to
read index 2 of a log that ends at index 1. -/
theorem apply_loop_panics :
    ((nodeClusterSystem 3 Nat).execute NodeCluster.asksReceived
      (NodeCluster.initial 3 Nat fun _ => 1)
      [.electionTimeout 0, .startElection 0, .deliver 0, .answer 0 0, .count 0, .promote 0,
       .start 0 (some 10), .startReplication 0 2, .start 0 (some 11), .startReplication 0 2,
       .deliver 5, .answer 5 0, .startReplication 0 2, .deliver 6, .deliver 2]).map
      (fun cluster => ((cluster.nodes 1).reads, (cluster.nodes 1).commitIndex,
        (cluster.nodes 1).log.size, (cluster.nodes 1).msgs, (cluster.nodes 1).collect.isSome)) =
    some ([1, 2], 2, 2, [], false) := by
  rfl

end MultiRaft
