import MultiRaft.Node.Server
import MultiRaft.Lib.Lists

/-!
# What each critical section of a `Node` can do

One inversion lemma for every function of `Node.Server`, with its guards.
-/

namespace MultiRaft.Node

variable {n : Nat} {Command : Type}

variable {term : Nat}

@[simp] theorem contextLostLocked_eq_false {node : Node n Command} {role : Role} :
    node.contextLostLocked role term = false ↔ node.currentTerm = term ∧ node.role = role := by
  simp [contextLostLocked]

theorem becomeFollowerLocked_cases (node : Node n Command) (current : node.currentTerm ≤ term) :
    (term = node.currentTerm ∧
      node.becomeFollowerLocked term = { node with role := .follower }) ∨
    (node.currentTerm < term ∧ node.becomeFollowerLocked term = persistLocked
      { node with role := .follower, votedFor := none, currentTerm := term }) := by
  unfold becomeFollowerLocked
  rw [if_neg (by omega)]
  rcases Nat.lt_or_ge node.currentTerm term with later | reached
  · exact .inr ⟨later, by simp [Nat.ne_of_lt later, later]⟩
  · have same : term = node.currentTerm := le_antisymm reached current
    subst same
    exact .inl ⟨rfl, by simp⟩

/-- The alignment that `HandleRequestVote` makes before it looks at its vote. -/
def aligned (node : Node n Command) (term : Nat) : Node n Command :=
  if term > node.currentTerm then node.becomeFollowerLocked term else node

theorem aligned_cases (node : Node n Command) (current : node.currentTerm ≤ term) :
    (term = node.currentTerm ∧ node.aligned term = node) ∨
    (node.currentTerm < term ∧ node.aligned term = persistLocked
      { node with role := .follower, votedFor := none, currentTerm := term }) := by
  unfold aligned
  rcases Nat.lt_or_ge node.currentTerm term with later | reached
  · rcases node.becomeFollowerLocked_cases current with ⟨same, _⟩ | ⟨_, aligns⟩
    · omega
    · exact .inr ⟨later, by rw [if_pos later, aligns]⟩
  · exact .inl ⟨le_antisymm reached current, if_neg (by omega)⟩

theorem becomeFollowerLocked_log (node : Node n Command) (current : node.currentTerm ≤ term) :
    (node.becomeFollowerLocked term).log = node.log := by
  rcases node.becomeFollowerLocked_cases current with ⟨_, result⟩ | ⟨_, result⟩
  · rw [result]
  · rw [result]
    rfl

theorem becomeFollowerLocked_role (node : Node n Command) (current : node.currentTerm ≤ term) :
    (node.becomeFollowerLocked term).role = .follower := by
  rcases node.becomeFollowerLocked_cases current with ⟨_, result⟩ | ⟨_, result⟩
  · rw [result]
  · rw [result]
    rfl

theorem becomeFollowerLocked_commitIndex (node : Node n Command)
    (current : node.currentTerm ≤ term) :
    (node.becomeFollowerLocked term).commitIndex = node.commitIndex := by
  rcases node.becomeFollowerLocked_cases current with ⟨_, result⟩ | ⟨_, result⟩
  · rw [result]
  · rw [result]
    rfl

theorem becomeFollowerLocked_snapPending (node : Node n Command)
    (current : node.currentTerm ≤ term) :
    (node.becomeFollowerLocked term).snapPending = node.snapPending := by
  rcases node.becomeFollowerLocked_cases current with ⟨_, result⟩ | ⟨_, result⟩
  · rw [result]
  · rw [result]
    rfl

theorem becomeCandidateLocked_eq (node : Node n Command) (notLeader : node.role ≠ .leader) :
    node.becomeCandidateLocked = persistLocked { node with
      currentTerm := node.currentTerm + 1, role := .candidate, votedFor := some node.me } := by
  simp [becomeCandidateLocked, notLeader]

theorem promote_cases (node : Node n Command) (term : Nat) :
    node.promote term = node ∨
    (node.role = .candidate ∧ node.currentTerm = term ∧
      node.promote term = { node with
        role := .leader, nextIndex := fun _ => node.log.size, matchIndex := fun _ => 0 }) := by
  unfold promote
  split
  · rename_i still
    exact .inr ⟨still.1, still.2, by simp [becomeLeaderLocked, still.1]⟩
  · exact .inl rfl

theorem start_cases (node : Node n Command) (command : Option Command) :
    (node.role ≠ .leader ∧ (node.start command).1 = node) ∨
    (node.role = .leader ∧ (node.start command).1 = persistLocked { node with
      log := node.log.append { term := node.currentTerm, commandValid := true, command } }) := by
  unfold start
  by_cases leads : node.role = .leader
  · exact .inr ⟨leads, by simp [leads]⟩
  · exact .inl ⟨leads, by simp [leads]⟩

theorem handleRequestVote_cases (node : Node n Command) (req : RequestVoteArgs n) :
    (req.term < node.currentTerm ∧ (node.handleRequestVote req).1 = node ∧
      (node.handleRequestVote req).2.voteGranted = false) ∨
    (node.currentTerm ≤ req.term ∧ (node.handleRequestVote req).1 = node.aligned req.term ∧
      (node.handleRequestVote req).2.voteGranted = false) ∨
    (node.currentTerm ≤ req.term ∧
      ((node.aligned req.term).votedFor = none ∨
        (node.aligned req.term).votedFor = some req.candidateId) ∧
      (node.aligned req.term).isMoreUpToDateLocked req.lastLogIndex req.lastLogTerm = false ∧
      (node.handleRequestVote req).1 = persistLocked
        { node.aligned req.term with votedFor := some req.candidateId } ∧
      (node.handleRequestVote req).2.voteGranted = true) := by
  unfold handleRequestVote
  by_cases past : req.term < node.currentTerm
  · exact .inl ⟨past, by simp [past]⟩
  · simp only [past, if_false]
    have current : node.currentTerm ≤ req.term := by omega
    rw [show (if req.term > node.currentTerm then node.becomeFollowerLocked req.term else node) =
      node.aligned req.term from rfl]
    by_cases taken : (node.aligned req.term).votedFor ≠ none ∧
        (node.aligned req.term).votedFor ≠ some req.candidateId
    · exact .inr (.inl ⟨current, by simp [taken]⟩)
    · have free : (node.aligned req.term).votedFor = none ∨
          (node.aligned req.term).votedFor = some req.candidateId := by
        by_contra neither
        exact taken (not_or.mp neither)
      by_cases newer : (node.aligned req.term).isMoreUpToDateLocked
          req.lastLogIndex req.lastLogTerm = true
      · exact .inr (.inl ⟨current, by simp only [taken, newer, if_false, if_true, and_self]⟩)
      · rw [Bool.not_eq_true] at newer
        refine .inr (.inr ⟨current, free, newer, ?_⟩)
        simp only [taken, newer, if_false, Bool.false_eq_true, and_self]

theorem checkVote_cases (node : Node n Command) (term : Nat) (resp : RequestVoteReply) :
    (node.currentTerm < resp.term ∧
      node.checkVote term resp = (node.becomeFollowerLocked resp.term, false)) ∨
    node.checkVote term resp = (node, false) ∨
    (node.currentTerm = term ∧ node.role = .candidate ∧ resp.voteGranted = true ∧
      node.checkVote term resp = (node, true)) := by
  unfold checkVote
  split
  · rename_i later
    exact .inl ⟨later, rfl⟩
  split
  · exact .inr (.inl rfl)
  · rename_i kept
    rw [Bool.not_eq_true] at kept
    rcases contextLostLocked_eq_false.mp kept with ⟨sameTerm, candidate⟩
    cases granted : resp.voteGranted with
    | false => exact .inr (.inl rfl)
    | true => exact .inr (.inr ⟨sameTerm, candidate, rfl, rfl⟩)

variable {node next : Node n Command} {resp : AppendEntriesReply}

theorem handleAppendEntries_cases {req : AppendEntriesArgs n Command}
    (handled : node.handleAppendEntries req = some (next, resp)) :
    (req.term < node.currentTerm ∧ next = node ∧ resp.success = false) ∨
    (node.currentTerm ≤ req.term ∧ next = node.becomeFollowerLocked req.term ∧
      resp.success = false) ∨
    (node.currentTerm ≤ req.term ∧ ∃ prev log,
      (node.becomeFollowerLocked req.term).log.entryAt req.prevLogIndex = some prev ∧
      prev.term = req.prevLogTerm ∧
      (node.becomeFollowerLocked req.term).log.appendFrom req.prevLogIndex req.entries =
        some log ∧
      next = { persistLocked { node.becomeFollowerLocked req.term with log } with
        commitIndex :=
          if req.leaderCommit > (node.becomeFollowerLocked req.term).commitIndex then
            if req.leaderCommit > log.last.1 then log.last.1 else req.leaderCommit
          else (node.becomeFollowerLocked req.term).commitIndex } ∧
      resp.success = true) := by
  unfold handleAppendEntries at handled
  by_cases past : req.term < node.currentTerm
  · simp only [past, if_true, Option.some.injEq, Prod.mk.injEq] at handled
    rcases handled with ⟨rfl, rfl⟩
    exact .inl ⟨past, rfl, rfl⟩
  · have current : node.currentTerm ≤ req.term := by omega
    simp only [past, if_false] at handled
    generalize node.becomeFollowerLocked req.term = node' at handled ⊢
    split at handled
    · simp only [Option.some.injEq, Prod.mk.injEq] at handled
      rcases handled with ⟨rfl, rfl⟩
      exact .inr (.inl ⟨current, rfl, rfl⟩)
    split at handled
    · simp only [Option.some.injEq, Prod.mk.injEq] at handled
      rcases handled with ⟨rfl, rfl⟩
      exact .inr (.inl ⟨current, rfl, rfl⟩)
    rcases Option.bind_eq_some_iff.mp handled with ⟨prev, found, rest⟩
    split at rest
    · simp only [pure, Option.some.injEq, Prod.mk.injEq] at rest
      rcases rest with ⟨rfl, rfl⟩
      exact .inr (.inl ⟨current, rfl, rfl⟩)
    · rename_i matching
      rcases Option.bind_eq_some_iff.mp rest with ⟨log, appended, result⟩
      simp only [pure, Option.some.injEq, Prod.mk.injEq] at result
      rcases result with ⟨rfl, rfl⟩
      exact .inr (.inr ⟨current, prev, log, found, not_not.mp matching, appended, rfl, rfl⟩)

theorem handleInstallSnapshot_cases {req : InstallSnapshotArgs n} {resp : InstallSnapshotReply}
    (handled : node.handleInstallSnapshot req = some (next, resp)) :
    (req.term < node.currentTerm ∧ next = node) ∨
    (node.currentTerm ≤ req.term ∧ next = node.becomeFollowerLocked req.term) ∨
    (node.currentTerm ≤ req.term ∧ ∃ log,
      (node.becomeFollowerLocked req.term).log.snapLastIdx < req.lastIncludedIndex ∧
      (node.becomeFollowerLocked req.term).log.installSnapshot req.lastIncludedIndex
        req.lastIncludedTerm req.snapshot = some log ∧
      next = { persistLocked { node.becomeFollowerLocked req.term with log } with
        snapPending := true
        commitIndex :=
          if req.lastIncludedIndex > (node.becomeFollowerLocked req.term).commitIndex then
            req.lastIncludedIndex
          else (node.becomeFollowerLocked req.term).commitIndex }) := by
  unfold handleInstallSnapshot at handled
  by_cases past : req.term < node.currentTerm
  · simp only [past, if_true, Option.some.injEq, Prod.mk.injEq] at handled
    exact .inl ⟨past, handled.1.symm⟩
  · have current : node.currentTerm ≤ req.term := by omega
    simp only [past, if_false] at handled
    split at handled
    · simp only [Option.some.injEq, Prod.mk.injEq] at handled
      exact .inr (.inl ⟨current, handled.1.symm⟩)
    · rename_i newer
      rcases Option.bind_eq_some_iff.mp handled with ⟨log, installed, result⟩
      simp only [pure, Option.some.injEq, Prod.mk.injEq] at result
      exact .inr (.inr ⟨current, log, by omega, installed, result.1.symm⟩)

theorem updateCommitIndexLocked_cases (updated : node.updateCommitIndexLocked = some next) :
    next = node ∨ ∃ majorityIdx entry,
      (exchangeSort (n - 1) (List.ofFn node.matchIndex))[(n - 1) / 2]? = some majorityIdx ∧
      node.commitIndex < majorityIdx ∧ node.log.snapLastIdx ≤ majorityIdx ∧
      node.log.entryAt majorityIdx = some entry ∧ entry.term = node.currentTerm ∧
      next = { node with commitIndex := majorityIdx } := by
  rcases Option.bind_eq_some_iff.mp updated with ⟨majorityIdx, picked, rest⟩
  split at rest
  · rename_i above
    split at rest
    · rename_i kept
      rcases Option.bind_eq_some_iff.mp rest with ⟨entry, found, result⟩
      split at result
      · rename_i ownTerm
        cases result
        exact .inr ⟨majorityIdx, entry, picked, above, kept, found, ownTerm, rfl⟩
      · cases result
        exact .inl rfl
    · cases rest
      exact .inl rfl
  · cases rest
    exact .inl rfl

theorem appendReply_cases {peer : Fin n} {args : AppendEntriesArgs n Command}
    (handled : node.appendReply peer args resp = some next) :
    (node.currentTerm < resp.term ∧ next = node.becomeFollowerLocked resp.term) ∨
    next = node ∨
    (node.currentTerm = args.term ∧ node.role = .leader ∧ resp.success = false ∧
      next = { node with
        nextIndex :=
          Function.update node.nextIndex peer (node.nextProbe args.prevLogIndex resp) }) ∨
    (node.currentTerm = args.term ∧ node.role = .leader ∧ resp.success = true ∧
      updateCommitIndexLocked { node with
        matchIndex := Function.update node.matchIndex peer
          (args.prevLogIndex + args.entries.length)
        nextIndex := Function.update node.nextIndex peer
          (args.prevLogIndex + args.entries.length + 1) } = some next) := by
  unfold appendReply at handled
  split at handled
  · rename_i later
    cases handled
    exact .inl ⟨later, rfl⟩
  split at handled
  · cases handled
    exact .inr (.inl rfl)
  · rename_i kept
    rw [Bool.not_eq_true] at kept
    rcases contextLostLocked_eq_false.mp kept with ⟨sameTerm, leads⟩
    cases success : resp.success with
    | false =>
        rw [success] at handled
        cases handled
        exact .inr (.inr (.inl ⟨sameTerm, leads, rfl, rfl⟩))
    | true =>
        rw [success] at handled
        exact .inr (.inr (.inr ⟨sameTerm, leads, rfl, handled⟩))

theorem installReply_cases (node : Node n Command) (peer : Fin n) (term : Nat)
    (resp : InstallSnapshotReply) :
    (node.currentTerm < resp.term ∧
      node.installReply peer term resp = node.becomeFollowerLocked resp.term) ∨
    node.installReply peer term resp = node ∨
    (node.currentTerm = term ∧ node.role = .leader ∧
      node.installReply peer term resp = { node with
        matchIndex := Function.update node.matchIndex peer node.log.snapLastIdx
        nextIndex := Function.update node.nextIndex peer (node.log.snapLastIdx + 1) }) := by
  unfold installReply
  split
  · rename_i later
    exact .inl ⟨later, rfl⟩
  split
  · exact .inr (.inl rfl)
  · rename_i kept
    rw [Bool.not_eq_true] at kept
    rcases contextLostLocked_eq_false.mp kept with ⟨sameTerm, leads⟩
    exact .inr (.inr ⟨sameTerm, leads, rfl⟩)

theorem startReplication_cases {requests : List (Fin n × NodeReplicate n Command)}
    (started : node.startReplication term = some (next, requests)) :
    (next = node ∧ requests = []) ∨
    (node.currentTerm = term ∧ node.role = .leader ∧
      next = { node with
        matchIndex := Function.update node.matchIndex node.me (node.log.size - 1)
        nextIndex := Function.update node.nextIndex node.me node.log.size } ∧
      ∀ peer request, (peer, request) ∈ requests →
        peer ≠ node.me ∧ node.replicate peer = some request) := by
  unfold startReplication at started
  split at started
  · simp only [Option.some.injEq, Prod.mk.injEq] at started
    exact .inl ⟨started.1.symm, started.2.symm⟩
  · rename_i kept
    rw [Bool.not_eq_true] at kept
    rcases contextLostLocked_eq_false.mp kept with ⟨sameTerm, leads⟩
    rcases Option.bind_eq_some_iff.mp started with ⟨sent, collected, result⟩
    simp only [pure, Option.some.injEq, Prod.mk.injEq] at result
    rcases result with ⟨rfl, rfl⟩
    refine .inr ⟨sameTerm, leads, rfl, ?_⟩
    intro peer request member
    rcases exists_key_of_mapM_eq_some collected member with ⟨target, selected, made⟩
    rcases Option.map_eq_some_iff.mp made with ⟨_, replicated, same⟩
    cases same
    have otherPeer : peer ≠ node.me := by simpa using (List.mem_filter.mp selected).2
    refine ⟨otherPeer, ?_⟩
    rw [← replicated]
    simp [replicate, Function.update_of_ne otherPeer]

theorem snapshot_cases {index : Nat} {bytes : Bytes}
    (taken : node.snapshot index bytes = some next) :
    next = node ∨
    (index ≤ node.commitIndex ∧ node.log.snapLastIdx < index ∧
      ∃ log, node.log.doSnapshot index bytes = some log ∧
        next = persistLocked { node with log }) := by
  unfold snapshot at taken
  split at taken
  · cases taken
    exact .inl rfl
  split at taken
  · cases taken
    exact .inl rfl
  · rename_i committed newer
    rcases Option.bind_eq_some_iff.mp taken with ⟨log, compacted, result⟩
    cases result
    exact .inr ⟨by omega, by omega, log, compacted, rfl⟩

/-- The command message that `applicationTicker` makes of the entry at an index. -/
def commandMsg (node : Node n Command) (index : Nat) : Option (ApplyMsg Command) :=
  (node.log.entryAt index).map fun entry =>
    { commandValid := true, command := entry.command, commandIndex := index }

/-- What `applicationTicker` collects: the pending snapshot if there is one, and
the committed commands after it. -/
theorem collect_cases (collected : node.collect = some next) :
    node.msgs = [] ∧ ∃ commands,
      (node.snapPending = true ∧
        (List.range' (node.log.snapLastIdx + 1)
          (node.commitIndex - node.log.snapLastIdx)).mapM node.commandMsg = some commands ∧
        next = { node with
          snapPending := false
          lastApplied := max node.log.snapLastIdx node.commitIndex
          msgs := { snapshotValid := true, snapshot := node.log.snapshot,
                    snapshotTerm := node.log.snapLastTerm,
                    snapshotIndex := node.log.snapLastIdx } :: commands }) ∨
      (node.snapPending = false ∧
        (List.range' (node.lastApplied + 1)
          (node.commitIndex - node.lastApplied)).mapM node.commandMsg = some commands ∧
        next = { node with
          snapPending := false
          lastApplied := max node.lastApplied node.commitIndex
          msgs := commands }) := by
  unfold collect at collected
  split at collected
  · rename_i idle
    refine ⟨idle, ?_⟩
    split at collected
    · cases collected
    · rcases Option.bind_eq_some_iff.mp collected with ⟨commands, read, result⟩
      cases result
      refine ⟨commands, ?_⟩
      cases pending : node.snapPending with
      | true =>
          rw [pending] at read
          exact .inl ⟨rfl, read, rfl⟩
      | false =>
          rw [pending] at read
          exact .inr ⟨rfl, read, rfl⟩
  · cases collected

theorem send_cases (sent : node.send = some next) :
    ∃ msg rest, node.msgs = msg :: rest ∧
      next = { node with msgs := rest, applyCh := node.applyCh.trySend msg } := by
  unfold send at sent
  split at sent
  · rename_i msg rest handing
    cases sent
    exact ⟨msg, rest, handing, rfl⟩
  · cases sent

/-- What a section makes of the node, with what its guards found. -/
inductive Outcome (node : Node n Command) : NodeCall n Command → Node n Command → Prop
  | stay (call : NodeCall n Command) : Outcome node call node
  | follow (call : NodeCall n Command) (term : Nat) (current : node.currentTerm ≤ term) :
      Outcome node call (node.becomeFollowerLocked term)
  | stand (notLeader : node.role ≠ .leader) :
      Outcome node .electionTimeout (persistLocked { node with
        currentTerm := node.currentTerm + 1, role := .candidate, votedFor := some node.me })
  | vote (req : RequestVoteArgs n) (current : node.currentTerm ≤ req.term)
      (free : (node.aligned req.term).votedFor = none ∨
        (node.aligned req.term).votedFor = some req.candidateId) :
      Outcome node (.requestVote req)
        (persistLocked { node.aligned req.term with votedFor := some req.candidateId })
  | promote (term : Nat) (candidate : node.role = .candidate)
      (sameTerm : node.currentTerm = term) :
      Outcome node (.promote term) { node with
        role := .leader, nextIndex := fun _ => node.log.size, matchIndex := fun _ => 0 }
  | adopt (req : AppendEntriesArgs n Command) (prev : LogEntry Command) (log : RaftLog Command)
      (current : node.currentTerm ≤ req.term)
      (found : node.log.entryAt req.prevLogIndex = some prev)
      (prevTerm : prev.term = req.prevLogTerm)
      (written : node.log.appendFrom req.prevLogIndex req.entries = some log) :
      Outcome node (.appendEntries req)
        { persistLocked { node.becomeFollowerLocked req.term with log } with
          commitIndex :=
            if req.leaderCommit > node.commitIndex then
              if req.leaderCommit > log.last.1 then log.last.1 else req.leaderCommit
            else node.commitIndex }
  | replicate (term : Nat) :
      Outcome node (.startReplication term) { node with
        matchIndex := Function.update node.matchIndex node.me (node.log.size - 1)
        nextIndex := Function.update node.nextIndex node.me node.log.size }
  | probe (peer : Fin n) (args : AppendEntriesArgs n Command) (resp : AppendEntriesReply) :
      Outcome node (.appendReply peer args resp) { node with
        nextIndex :=
          Function.update node.nextIndex peer (node.nextProbe args.prevLogIndex resp) }
  | count (peer : Fin n) (args : AppendEntriesArgs n Command) (resp : AppendEntriesReply) :
      Outcome node (.appendReply peer args resp) { node with
        matchIndex := Function.update node.matchIndex peer
          (args.prevLogIndex + args.entries.length)
        nextIndex := Function.update node.nextIndex peer
          (args.prevLogIndex + args.entries.length + 1) }
  | commit (peer : Fin n) (args : AppendEntriesArgs n Command) (resp : AppendEntriesReply)
      (majorityIdx : Nat) (entry : LogEntry Command) (more : node.commitIndex < majorityIdx)
      (found : node.log.entryAt majorityIdx = some entry) :
      Outcome node (.appendReply peer args resp) { node with
        matchIndex := Function.update node.matchIndex peer
          (args.prevLogIndex + args.entries.length)
        nextIndex := Function.update node.nextIndex peer
          (args.prevLogIndex + args.entries.length + 1)
        commitIndex := majorityIdx }
  | install (req : InstallSnapshotArgs n) (log : RaftLog Command)
      (current : node.currentTerm ≤ req.term)
      (newer : node.log.snapLastIdx < req.lastIncludedIndex)
      (written : node.log.installSnapshot req.lastIncludedIndex req.lastIncludedTerm
        req.snapshot = some log) :
      Outcome node (.installSnapshot req)
        { persistLocked { node.becomeFollowerLocked req.term with log } with
          snapPending := true
          commitIndex :=
            if req.lastIncludedIndex > node.commitIndex then req.lastIncludedIndex
            else node.commitIndex }
  | ship (peer : Fin n) (term : Nat) (resp : InstallSnapshotReply) :
      Outcome node (.installReply peer term resp) { node with
        matchIndex := Function.update node.matchIndex peer node.log.snapLastIdx
        nextIndex := Function.update node.nextIndex peer (node.log.snapLastIdx + 1) }
  | start (command : Option Command) :
      Outcome node (.start command) (persistLocked { node with
        log := node.log.append { term := node.currentTerm, commandValid := true, command } })
  | compact (index : Nat) (bytes : Bytes) (log : RaftLog Command)
      (committed : index ≤ node.commitIndex) (newer : node.log.snapLastIdx < index)
      (written : node.log.doSnapshot index bytes = some log) :
      Outcome node (.snapshot index bytes) (persistLocked { node with log })
  | collectSnapshot (msgs : List (ApplyMsg Command)) :
      Outcome node .collect { node with
        snapPending := false
        lastApplied := max node.log.snapLastIdx node.commitIndex
        msgs }
  | collect (msgs : List (ApplyMsg Command)) :
      Outcome node .collect { node with
        snapPending := false
        lastApplied := max node.lastApplied node.commitIndex
        msgs }
  | send (msg : ApplyMsg Command) (rest : List (ApplyMsg Command)) :
      Outcome node .send { node with msgs := rest, applyCh := node.applyCh.trySend msg }
  | receive : Outcome node .receive { node with applyCh := node.applyCh.receive }
  | giveUp : Outcome node .giveUp { node with applyCh := node.applyCh.giveUp }
  | restart (capacity : Nat) :
      Outcome node (.restart capacity) (newNode node.me node.storage capacity)

theorem outcome_aligned (node : Node n Command) (call : NodeCall n Command)
    (current : node.currentTerm ≤ term) : node.Outcome call (node.aligned term) := by
  unfold aligned
  split
  · exact .follow call term current
  · exact .stay call

theorem outcome_handleRequestVote (node : Node n Command) (req : RequestVoteArgs n) :
    node.Outcome (.requestVote req) (node.handleRequestVote req).1 := by
  rcases node.handleRequestVote_cases req with
    ⟨_, result, _⟩ | ⟨current, result, _⟩ | ⟨current, free, _, result, _⟩
  · rw [result]
    exact .stay _
  · rw [result]
    exact node.outcome_aligned _ current
  · rw [result]
    exact .vote req current free

theorem outcome_handleAppendEntries {req : AppendEntriesArgs n Command}
    (appended : node.handleAppendEntries req = some (next, resp)) :
    node.Outcome (.appendEntries req) next := by
  rcases handleAppendEntries_cases appended with
    ⟨_, rfl, _⟩ | ⟨current, rfl, _⟩ | ⟨current, prev, log, found, prevTerm, written, rfl, _⟩
  · exact .stay _
  · exact .follow _ _ current
  · rw [node.becomeFollowerLocked_log current] at found written
    rw [node.becomeFollowerLocked_commitIndex current]
    exact .adopt req prev log current found prevTerm written

theorem outcome_handleInstallSnapshot {req : InstallSnapshotArgs n} {resp : InstallSnapshotReply}
    (installed : node.handleInstallSnapshot req = some (next, resp)) :
    node.Outcome (.installSnapshot req) next := by
  rcases handleInstallSnapshot_cases installed with
    ⟨_, rfl⟩ | ⟨current, rfl⟩ | ⟨current, log, newer, written, rfl⟩
  · exact .stay _
  · exact .follow _ _ current
  · rw [node.becomeFollowerLocked_log current] at newer written
    rw [node.becomeFollowerLocked_commitIndex current]
    exact .install req log current newer written

theorem outcome_appendReply {peer : Fin n} {args : AppendEntriesArgs n Command}
    (handled : node.appendReply peer args resp = some next) :
    node.Outcome (.appendReply peer args resp) next := by
  rcases appendReply_cases handled with
    ⟨later, rfl⟩ | rfl | ⟨_, _, _, rfl⟩ | ⟨_, _, _, updated⟩
  · exact .follow _ _ later.le
  · exact .stay _
  · exact .probe peer args resp
  · rcases updateCommitIndexLocked_cases updated with
      rfl | ⟨majorityIdx, entry, _, more, _, found, _, rfl⟩
    · exact .count peer args resp
    · exact .commit peer args resp majorityIdx entry more found

theorem handle_outcome {call : NodeCall n Command} (handled : node.handle call = some next) :
    node.Outcome call next := by
  cases call with
  | electionTimeout =>
      simp only [Node.handle] at handled
      split at handled
      · cases handled
      · rename_i notLeader
        cases handled
        rw [node.becomeCandidateLocked_eq notLeader]
        exact .stand notLeader
  | requestVote req =>
      cases handled
      exact node.outcome_handleRequestVote req
  | checkVote term resp =>
      cases handled
      rcases node.checkVote_cases term resp with ⟨later, result⟩ | result | ⟨_, _, _, result⟩
      · rw [result]
        exact .follow _ _ later.le
      all_goals
        rw [result]
        exact .stay _
  | promote term =>
      cases handled
      rcases node.promote_cases term with result | ⟨candidate, sameTerm, result⟩
      · rw [result]
        exact .stay _
      · rw [result]
        exact .promote term candidate sameTerm
  | appendEntries req =>
      obtain ⟨⟨_, resp⟩, appended, rfl⟩ := Option.map_eq_some_iff.mp handled
      exact outcome_handleAppendEntries appended
  | startReplication term =>
      obtain ⟨⟨_, requests⟩, started, rfl⟩ := Option.map_eq_some_iff.mp handled
      rcases startReplication_cases started with ⟨rfl, _⟩ | ⟨_, _, rfl, _⟩
      · exact .stay _
      · exact .replicate term
  | appendReply peer args resp => exact outcome_appendReply handled
  | installSnapshot req =>
      obtain ⟨⟨_, resp⟩, installed, rfl⟩ := Option.map_eq_some_iff.mp handled
      exact outcome_handleInstallSnapshot installed
  | installReply peer term resp =>
      cases handled
      rcases node.installReply_cases peer term resp with ⟨later, result⟩ | result | ⟨_, _, result⟩
      · rw [result]
        exact .follow _ _ later.le
      · rw [result]
        exact .stay _
      · rw [result]
        exact .ship peer term resp
  | start command =>
      cases handled
      rcases node.start_cases command with ⟨_, result⟩ | ⟨_, result⟩
      · rw [result]
        exact .stay _
      · rw [result]
        exact .start command
  | snapshot index bytes =>
      rcases snapshot_cases handled with rfl | ⟨committed, newer, log, written, rfl⟩
      · exact .stay _
      · exact .compact index bytes log committed newer written
  | collect =>
      obtain ⟨_, commands, ⟨_, _, rfl⟩ | ⟨_, _, rfl⟩⟩ := collect_cases handled
      · exact .collectSnapshot _
      · exact .collect commands
  | send =>
      obtain ⟨msg, rest, _, rfl⟩ := send_cases handled
      exact .send msg rest
  | receive =>
      cases handled
      exact .receive
  | giveUp =>
      cases handled
      exact .giveUp
  | restart capacity =>
      cases handled
      exact .restart capacity

end MultiRaft.Node
