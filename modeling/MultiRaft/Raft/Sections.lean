import MultiRaft.Raft.Server
import MultiRaft.Lib.Lists

/-!
# What each critical section can do

One inversion lemma for every function of `Server`, with its guards.  Later
proofs split a step with these lemmas and do not unfold the functions again.
-/

namespace MultiRaft.Raft

variable {n : Nat} {Command : Type}

@[simp] theorem persistLocked_currentTerm (rf : Raft n Command) :
    rf.persistLocked.currentTerm = rf.currentTerm := rfl
@[simp] theorem persistLocked_votedFor (rf : Raft n Command) :
    rf.persistLocked.votedFor = rf.votedFor := rfl
@[simp] theorem persistLocked_log (rf : Raft n Command) : rf.persistLocked.log = rf.log := rfl

variable {term : Nat}

@[simp] theorem contextLostLocked_eq_false {rf : Raft n Command} {role : Role} :
    rf.contextLostLocked role term = false ↔ rf.currentTerm = term ∧ rf.role = role := by
  simp [contextLostLocked]

/-- The server after it aligned its term with a message of a term it accepts. -/
theorem becomeFollowerLocked_cases (rf : Raft n Command) (current : rf.currentTerm ≤ term) :
    (term = rf.currentTerm ∧ rf.becomeFollowerLocked term = { rf with role := .follower }) ∨
    (rf.currentTerm < term ∧ rf.becomeFollowerLocked term = persistLocked
      { rf with role := .follower, votedFor := none, currentTerm := term }) := by
  unfold becomeFollowerLocked
  rw [if_neg (by omega)]
  rcases Nat.lt_or_ge rf.currentTerm term with later | reached
  · exact .inr ⟨later, by simp [Nat.ne_of_lt later, later]⟩
  · have same : term = rf.currentTerm := le_antisymm reached current
    subst same
    exact .inl ⟨rfl, by simp⟩

/-- The alignment that `RequestVote` makes before it looks at its vote. -/
def aligned (rf : Raft n Command) (term : Nat) : Raft n Command :=
  if term > rf.currentTerm then rf.becomeFollowerLocked term else rf

theorem aligned_cases (rf : Raft n Command) (current : rf.currentTerm ≤ term) :
    (term = rf.currentTerm ∧ rf.aligned term = rf) ∨
    (rf.currentTerm < term ∧ rf.aligned term = persistLocked
      { rf with role := .follower, votedFor := none, currentTerm := term }) := by
  unfold aligned
  rcases Nat.lt_or_ge rf.currentTerm term with later | reached
  · rcases rf.becomeFollowerLocked_cases current with ⟨same, _⟩ | ⟨_, aligns⟩
    · omega
    · exact .inr ⟨later, by rw [if_pos later, aligns]⟩
  · exact .inl ⟨le_antisymm reached current, if_neg (by omega)⟩

@[simp]
theorem becomeFollowerLocked_role (rf : Raft n Command) (current : rf.currentTerm ≤ term) :
    (rf.becomeFollowerLocked term).role = .follower := by
  rcases rf.becomeFollowerLocked_cases current with ⟨_, result⟩ | ⟨_, result⟩
  · rw [result]
  · rw [result]
    rfl

@[simp]
theorem becomeFollowerLocked_me (rf : Raft n Command) (term : Nat) :
    (rf.becomeFollowerLocked term).me = rf.me := by
  unfold becomeFollowerLocked
  split
  · rfl
  · dsimp only
    split <;> rfl

theorem becomeFollowerLocked_currentTerm (rf : Raft n Command) (current : rf.currentTerm ≤ term) :
    (rf.becomeFollowerLocked term).currentTerm = term := by
  rcases rf.becomeFollowerLocked_cases current with ⟨same, result⟩ | ⟨_, result⟩
  · rw [result]
    exact same.symm
  · rw [result]
    rfl

theorem aligned_currentTerm (rf : Raft n Command) (current : rf.currentTerm ≤ term) :
    (rf.aligned term).currentTerm = term := by
  rcases rf.aligned_cases current with ⟨same, result⟩ | ⟨_, result⟩
  · rw [result]
    exact same.symm
  · rw [result]
    rfl

theorem becomeFollowerLocked_log (rf : Raft n Command) (current : rf.currentTerm ≤ term) :
    (rf.becomeFollowerLocked term).log = rf.log := by
  rcases rf.becomeFollowerLocked_cases current with ⟨_, result⟩ | ⟨_, result⟩
  · rw [result]
  · rw [result]
    rfl

theorem becomeFollowerLocked_commitIndex (rf : Raft n Command) (current : rf.currentTerm ≤ term) :
    (rf.becomeFollowerLocked term).commitIndex = rf.commitIndex := by
  rcases rf.becomeFollowerLocked_cases current with ⟨_, result⟩ | ⟨_, result⟩
  · rw [result]
  · rw [result]
    rfl

theorem aligned_log (rf : Raft n Command) (current : rf.currentTerm ≤ term) :
    (rf.aligned term).log = rf.log := by
  rcases rf.aligned_cases current with ⟨_, result⟩ | ⟨_, result⟩
  · rw [result]
  · rw [result]
    rfl

theorem aligned_me (rf : Raft n Command) (term : Nat) : (rf.aligned term).me = rf.me := by
  unfold aligned
  split
  · exact becomeFollowerLocked_me rf term
  · rfl

theorem becomeCandidateLocked_eq (rf : Raft n Command) (notLeader : rf.role ≠ .leader) :
    rf.becomeCandidateLocked = persistLocked { rf with
      currentTerm := rf.currentTerm + 1, role := .candidate, votedFor := some rf.me } := by
  simp [becomeCandidateLocked, notLeader]

theorem becomeLeaderLocked_eq (rf : Raft n Command) (candidate : rf.role = .candidate) :
    rf.becomeLeaderLocked = { rf with
      role := .leader, nextIndex := fun _ => rf.log.size, matchIndex := fun _ => 0 } := by
  simp [becomeLeaderLocked, candidate]

theorem start_cases (rf : Raft n Command) (command : Option Command) :
    (rf.role ≠ .leader ∧ (rf.start command).1 = rf) ∨
    (rf.role = .leader ∧ (rf.start command).1 = persistLocked { rf with
      log := rf.log.append { term := rf.currentTerm, commandValid := true, command } }) := by
  unfold start
  by_cases leads : rf.role = .leader
  · exact .inr ⟨leads, by simp [leads]⟩
  · exact .inl ⟨leads, by simp [leads]⟩

theorem requestVote_cases (rf : Raft n Command) (args : RequestVoteArgs n) :
    (args.term < rf.currentTerm ∧ (rf.requestVote args).1 = rf ∧
      (rf.requestVote args).2.voteGranted = false) ∨
    (rf.currentTerm ≤ args.term ∧ (rf.requestVote args).1 = rf.aligned args.term ∧
      (rf.requestVote args).2.voteGranted = false) ∨
    (rf.currentTerm ≤ args.term ∧ (rf.aligned args.term).votedFor = none ∧
      (rf.aligned args.term).isMoreUpToDateLocked args.lastLogIndex args.lastLogTerm = false ∧
      (rf.requestVote args).1 = persistLocked
        { rf.aligned args.term with votedFor := some args.candidateId } ∧
      (rf.requestVote args).2.voteGranted = true) := by
  unfold requestVote
  by_cases past : args.term < rf.currentTerm
  · exact .inl ⟨past, by simp [past]⟩
  · simp only [past, if_false]
    have current : rf.currentTerm ≤ args.term := by omega
    change _ ∨ _ ∨ _
    rw [show (if args.term > rf.currentTerm then rf.becomeFollowerLocked args.term else rf) =
      rf.aligned args.term from rfl]
    by_cases voted : (rf.aligned args.term).votedFor = none
    · by_cases newer : (rf.aligned args.term).isMoreUpToDateLocked
          args.lastLogIndex args.lastLogTerm = true
      · exact .inr (.inl ⟨current, by simp [voted, newer]⟩)
      · rw [Bool.not_eq_true] at newer
        exact .inr (.inr ⟨current, voted, newer, by simp [voted, newer]⟩)
    · exact .inr (.inl ⟨current, by simp [voted]⟩)

theorem eq_of_mem_voteRequests {rf : Raft n Command} {peer : Fin n} {args : RequestVoteArgs n}
    (asked : (peer, args) ∈ rf.voteRequests) :
    args = { term := rf.currentTerm, candidateId := rf.me,
             lastLogIndex := rf.log.last.1, lastLogTerm := rf.log.last.2 } := by
  obtain ⟨_, _, same⟩ := List.mem_map.mp asked
  exact (congrArg Prod.snd same).symm

theorem voteReply_cases (rf : Raft n Command) (term votes : Nat) (reply : RequestVoteReply) :
    (rf.currentTerm < reply.term ∧
      rf.voteReply term votes reply = (rf.becomeFollowerLocked reply.term, votes)) ∨
    rf.voteReply term votes reply = (rf, votes) ∨
    (rf.currentTerm = term ∧ rf.role = .candidate ∧ reply.voteGranted = true ∧
      ((votes + 1 ≤ n / 2 ∧ rf.voteReply term votes reply = (rf, votes + 1)) ∨
       (n / 2 < votes + 1 ∧
        rf.voteReply term votes reply = (rf.becomeLeaderLocked, votes + 1)))) := by
  unfold voteReply
  by_cases later : rf.currentTerm < reply.term
  · exact .inl ⟨later, by simp [later]⟩
  · by_cases lost : rf.contextLostLocked .candidate term = true
    · exact .inr (.inl (by simp [later, lost]))
    · rw [Bool.not_eq_true] at lost
      rcases contextLostLocked_eq_false.mp lost with ⟨sameTerm, sameRole⟩
      by_cases granted : reply.voteGranted = true
      · refine .inr (.inr ⟨sameTerm, sameRole, granted, ?_⟩)
        by_cases enough : n / 2 < votes + 1
        · exact .inr ⟨enough, by simp [later, lost, granted, enough]⟩
        · exact .inl ⟨by omega, by simp [later, lost, granted, enough]⟩
      · exact .inr (.inl (by simp [later, lost, granted]))

variable {rf next : Raft n Command} {args : AppendEntriesArgs n Command}
  {reply : AppendEntriesReply}

/-- `AppendEntries` refuses, or finds the entry before the new ones and replaces
all that follows it. -/
theorem appendEntries_cases (handled : rf.appendEntries args = some (next, reply)) :
    (args.term < rf.currentTerm ∧ next = rf ∧ reply.success = false) ∨
    (rf.currentTerm ≤ args.term ∧ next = rf.becomeFollowerLocked args.term ∧
      reply.success = false) ∨
    (rf.currentTerm ≤ args.term ∧ ∃ prev log,
      (rf.becomeFollowerLocked args.term).log.entryAt args.prevLogIndex = some prev ∧
      prev.term = args.prevLogTerm ∧
      (rf.becomeFollowerLocked args.term).log.appendFrom args.prevLogIndex args.entries =
        some log ∧
      next = { persistLocked { rf.becomeFollowerLocked args.term with log } with
        commitIndex := max (rf.becomeFollowerLocked args.term).commitIndex
          args.leaderCommit } ∧
      reply.success = true) := by
  unfold appendEntries at handled
  by_cases past : args.term < rf.currentTerm
  · simp only [past, if_true, Option.some.injEq, Prod.mk.injEq] at handled
    rcases handled with ⟨rfl, rfl⟩
    exact .inl ⟨past, rfl, rfl⟩
  · have current : rf.currentTerm ≤ args.term := by omega
    simp only [past, if_false] at handled
    generalize rf.becomeFollowerLocked args.term = rf' at handled ⊢
    split at handled
    · simp only [Option.some.injEq, Prod.mk.injEq] at handled
      rcases handled with ⟨rfl, rfl⟩
      exact .inr (.inl ⟨current, rfl, rfl⟩)
    split at handled
    · simp only [Option.some.injEq, Prod.mk.injEq] at handled
      rcases handled with ⟨rfl, rfl⟩
      exact .inr (.inl ⟨current, rfl, rfl⟩)
    rcases Option.bind_eq_some_iff.mp handled with ⟨prev, found, rest⟩
    split at rest
    · simp only [pure, Option.some.injEq, Prod.mk.injEq] at rest
      rcases rest with ⟨rfl, rfl⟩
      exact .inr (.inl ⟨current, rfl, rfl⟩)
    · rename_i matching
      rcases Option.bind_eq_some_iff.mp rest with ⟨log, appended, result⟩
      simp only [pure, Option.some.injEq, Prod.mk.injEq] at result
      rcases result with ⟨rfl, rfl⟩
      refine .inr (.inr ⟨current, prev, log, found, not_not.mp matching, appended, ?_, rfl⟩)
      congr 1
      change (if args.leaderCommit > rf'.commitIndex then args.leaderCommit
        else rf'.commitIndex) = max rf'.commitIndex args.leaderCommit
      split <;> omega

theorem installSnapshot_cases {args : InstallSnapshotArgs n} {reply : InstallSnapshotReply}
    (handled : rf.installSnapshot args = some (next, reply)) :
    (args.term < rf.currentTerm ∧ next = rf) ∨
    (rf.currentTerm ≤ args.term ∧
      args.lastIncludedIndex ≤ (rf.becomeFollowerLocked args.term).log.snapLastIdx ∧
      next = rf.becomeFollowerLocked args.term) ∨
    (rf.currentTerm ≤ args.term ∧ ∃ log,
      (rf.becomeFollowerLocked args.term).log.snapLastIdx < args.lastIncludedIndex ∧
      (rf.becomeFollowerLocked args.term).log.installSnapshot args.lastIncludedIndex
        args.lastIncludedTerm args.snapshot = some log ∧
      next = { persistLocked { rf.becomeFollowerLocked args.term with log } with
        snapPending := true }) := by
  unfold installSnapshot at handled
  by_cases past : args.term < rf.currentTerm
  · simp only [past, if_true, Option.some.injEq, Prod.mk.injEq] at handled
    exact .inl ⟨past, handled.1.symm⟩
  · have current : rf.currentTerm ≤ args.term := by omega
    simp only [past, if_false] at handled
    split at handled
    · rename_i covered
      simp only [Option.some.injEq, Prod.mk.injEq] at handled
      exact .inr (.inl ⟨current, covered, handled.1.symm⟩)
    · rename_i newer
      rcases Option.bind_eq_some_iff.mp handled with ⟨log, installed, result⟩
      simp only [pure, Option.some.injEq, Prod.mk.injEq] at result
      exact .inr (.inr ⟨current, log, by omega, installed, result.1.symm⟩)

/-- The reply to `AppendEntries` ends a leadership, moves `nextIndex`, or
records a match and perhaps raises `commitIndex` to the majority index. -/
theorem appendReply_cases {peer : Fin n} (handled : rf.appendReply peer args reply = some next) :
    (rf.currentTerm < reply.term ∧ next = rf.becomeFollowerLocked reply.term) ∨
    next = rf ∨
    (rf.currentTerm = args.term ∧ rf.role = .leader ∧ reply.success = false ∧
      next = { rf with
        nextIndex := Function.update rf.nextIndex peer (rf.nextProbe peer reply) }) ∨
    (rf.currentTerm = args.term ∧ rf.role = .leader ∧ reply.success = true ∧
      ∃ majority,
        let matched := { rf with
          matchIndex := Function.update rf.matchIndex peer
            (args.prevLogIndex + args.entries.length)
          nextIndex := Function.update rf.nextIndex peer
            (args.prevLogIndex + args.entries.length + 1) }
        matched.getMajorityIndexLocked = some majority ∧
        (next = matched ∨
          (rf.commitIndex < majority ∧
            ∃ entry, rf.log.entryAt majority = some entry ∧ entry.term = rf.currentTerm ∧
              next = { matched with commitIndex := majority }))) := by
  unfold appendReply at handled
  split at handled
  · rename_i later
    cases handled
    exact .inl ⟨later, rfl⟩
  split at handled
  · cases handled
    exact .inr (.inl rfl)
  · rename_i kept
    rw [Bool.not_eq_true] at kept
    rcases contextLostLocked_eq_false.mp kept with ⟨sameTerm, leads⟩
    cases success : reply.success with
    | false =>
        rw [success] at handled
        refine .inr (.inr (.inl ⟨sameTerm, leads, rfl, ?_⟩))
        simp only [Bool.not_false, if_true] at handled
        split at handled
        · rcases Option.bind_eq_some_iff.mp handled with ⟨_, _, result⟩
          cases result
          rfl
        · cases handled
          rfl
    | true =>
        rw [success] at handled
        refine .inr (.inr (.inr ⟨sameTerm, leads, rfl, ?_⟩))
        simp only [Bool.not_true, Bool.false_eq_true, if_false] at handled
        rcases Option.bind_eq_some_iff.mp handled with ⟨majority, picked, rest⟩
        refine ⟨majority, picked, ?_⟩
        split at rest
        · rename_i above
          rcases Option.bind_eq_some_iff.mp rest with ⟨entry, found, result⟩
          split at result
          · rename_i ownTerm
            cases result
            exact .inr ⟨above, entry, found, ownTerm, rfl⟩
          · cases result
            exact .inl rfl
        · cases rest
          exact .inl rfl

theorem installReply_cases (rf : Raft n Command) (peer : Fin n) (args : InstallSnapshotArgs n)
    (reply : InstallSnapshotReply) :
    (rf.currentTerm < reply.term ∧
      rf.installReply peer args reply = rf.becomeFollowerLocked reply.term) ∨
    rf.installReply peer args reply = rf ∨
    (rf.currentTerm = args.term ∧ rf.role = .leader ∧
      rf.installReply peer args reply = { rf with
        matchIndex := Function.update rf.matchIndex peer args.lastIncludedIndex
        nextIndex := Function.update rf.nextIndex peer (args.lastIncludedIndex + 1) }) := by
  unfold installReply
  split
  · rename_i later
    exact .inl ⟨later, rfl⟩
  split
  · exact .inr (.inl rfl)
  · rename_i kept
    rw [Bool.not_eq_true] at kept
    rcases contextLostLocked_eq_false.mp kept with ⟨sameTerm, leads⟩
    split
    · exact .inr (.inr ⟨sameTerm, leads, rfl⟩)
    · exact .inr (.inl rfl)

theorem startReplication_cases {requests : List (Fin n × Replicate n Command)}
    (started : rf.startReplication term = some (next, requests)) :
    (next = rf ∧ requests = []) ∨
    (rf.currentTerm = term ∧ rf.role = .leader ∧
      next = { rf with
        matchIndex := Function.update rf.matchIndex rf.me (rf.log.size - 1)
        nextIndex := Function.update rf.nextIndex rf.me rf.log.size } ∧
      ∀ peer request, (peer, request) ∈ requests →
        peer ≠ rf.me ∧ rf.replicate peer = some request) := by
  unfold startReplication at started
  split at started
  · simp only [Option.some.injEq, Prod.mk.injEq] at started
    exact .inl ⟨started.1.symm, started.2.symm⟩
  · rename_i kept
    rw [Bool.not_eq_true] at kept
    rcases contextLostLocked_eq_false.mp kept with ⟨sameTerm, leads⟩
    rcases Option.bind_eq_some_iff.mp started with ⟨sent, collected, result⟩
    simp only [pure, Option.some.injEq, Prod.mk.injEq] at result
    rcases result with ⟨rfl, rfl⟩
    refine .inr ⟨sameTerm, leads, rfl, ?_⟩
    intro peer request member
    rcases exists_key_of_mapM_eq_some collected member with ⟨target, selected, made⟩
    rcases Option.map_eq_some_iff.mp made with ⟨_, replicated, same⟩
    cases same
    have otherPeer : peer ≠ rf.me := by simpa using (List.mem_filter.mp selected).2
    refine ⟨otherPeer, ?_⟩
    rw [← replicated]
    simp [replicate, Function.update_of_ne otherPeer]

theorem replicate_cases {peer : Fin n} {request : Replicate n Command}
    (made : rf.replicate peer = some request) :
    request = .snapshot
      { term := rf.currentTerm, leaderId := rf.me,
        lastIncludedIndex := rf.log.snapLastIdx, lastIncludedTerm := rf.log.snapLastTerm,
        snapshot := rf.log.snapshot } ∨
    ∃ prevIdx prev entries, rf.log.entryAt prevIdx = some prev ∧
      rf.log.tail (prevIdx + 1) = some entries ∧ request = .append
        { term := rf.currentTerm, leaderId := rf.me, prevLogIndex := prevIdx,
          prevLogTerm := prev.term, entries, leaderCommit := rf.commitIndex } := by
  unfold replicate at made
  split at made
  · cases made
    exact .inl rfl
  · obtain ⟨prev, found, rest⟩ := Option.bind_eq_some_iff.mp made
    obtain ⟨entries, read, result⟩ := Option.bind_eq_some_iff.mp rest
    cases result
    exact .inr ⟨_, prev, entries, found, read, rfl⟩

theorem snapshot_cases {index : Nat} {bytes : Bytes} (taken : rf.snapshot index bytes = some next) :
    next = rf ∨
    (index ≤ rf.commitIndex ∧ rf.log.snapLastIdx < index ∧
      ∃ log, rf.log.doSnapshot index bytes = some log ∧
        next = persistLocked { rf with log }) := by
  unfold snapshot at taken
  split at taken
  · cases taken
    exact .inl rfl
  split at taken
  · cases taken
    exact .inl rfl
  · rename_i committed newer
    rcases Option.bind_eq_some_iff.mp taken with ⟨log, compacted, result⟩
    cases result
    exact .inr ⟨by omega, by omega, log, compacted, rfl⟩

theorem collect_cases (collected : rf.collect = some next) :
    rf.ticker = .waiting ∧
    ((rf.snapPending = true ∧ next = { rf with ticker := .sendSnapshot }) ∨
     (rf.snapPending = false ∧ ∃ entries,
      (List.range' (max rf.lastApplied rf.log.snapLastIdx + 1)
        (min rf.commitIndex (rf.log.size - 1) - max rf.lastApplied rf.log.snapLastIdx)).mapM
          rf.log.entryAt = some entries ∧
      next = { rf with
        lastApplied := max rf.lastApplied rf.log.snapLastIdx
        ticker := .sendEntries entries 0 })) := by
  unfold collect at collected
  split at collected
  · rename_i idle
    refine ⟨idle, ?_⟩
    cases pending : rf.snapPending with
    | true =>
        rw [pending] at collected
        cases collected
        exact .inl ⟨rfl, rfl⟩
    | false =>
        rw [pending] at collected
        simp only [Bool.false_eq_true, if_false] at collected
        have applied : (if rf.lastApplied < rf.log.snapLastIdx then rf.log.snapLastIdx
            else rf.lastApplied) = max rf.lastApplied rf.log.snapLastIdx := by
          split <;> omega
        have bounded : (if rf.commitIndex ≥ rf.log.size then rf.log.size - 1
            else rf.commitIndex) = min rf.commitIndex (rf.log.size - 1) := by
          split <;> omega
        rw [applied, bounded] at collected
        rcases Option.bind_eq_some_iff.mp collected with ⟨entries, read, result⟩
        cases result
        exact .inr ⟨rfl, entries, read, rfl⟩
  · cases collected

theorem send_cases {msg : ApplyMsg Command} (sent : rf.send = some (next, msg)) :
    (∃ entries count entry, rf.ticker = .sendEntries entries count ∧
      entries[count]? = some entry ∧
      msg = { commandValid := entry.commandValid, command := entry.command,
              commandIndex := rf.lastApplied + 1 + count } ∧
      next = { rf with ticker := .sendEntries entries (count + 1),
                       applyCh := rf.applyCh ++ [msg] }) ∨
    (rf.ticker = .sendSnapshot ∧
      msg = { snapshotValid := true, snapshot := rf.log.snapshot,
              snapshotIndex := rf.log.snapLastIdx, snapshotTerm := rf.log.snapLastTerm } ∧
      next = { rf with ticker := .snapshotSent, applyCh := rf.applyCh ++ [msg] }) := by
  unfold send at sent
  split at sent
  · rename_i entries count ticking
    rcases Option.bind_eq_some_iff.mp sent with ⟨entry, found, result⟩
    simp only [pure, Option.some.injEq, Prod.mk.injEq] at result
    rcases result with ⟨rfl, rfl⟩
    exact .inl ⟨entries, count, entry, ticking, found, rfl, rfl⟩
  · rename_i ticking
    simp only [Option.some.injEq, Prod.mk.injEq] at sent
    rcases sent with ⟨rfl, rfl⟩
    exact .inr ⟨ticking, rfl, rfl⟩
  · cases sent

theorem finish_cases (finished : rf.finish = some next) :
    (∃ entries, rf.ticker = .sendEntries entries entries.length ∧
      next = { rf with
        lastApplied := rf.lastApplied + entries.length, ticker := .waiting }) ∨
    (rf.ticker = .snapshotSent ∧
      next = { rf with
        lastApplied := rf.log.snapLastIdx
        commitIndex := max rf.commitIndex rf.log.snapLastIdx
        snapPending := false
        ticker := .waiting }) := by
  unfold finish at finished
  split at finished
  · rename_i entries count ticking
    split at finished
    · rename_i complete
      cases finished
      exact .inl ⟨entries, complete ▸ ticking, rfl⟩
    · cases finished
  · rename_i ticking
    cases finished
    refine .inr ⟨ticking, ?_⟩
    congr 1
    split <;> omega
  · cases finished

/-- What a section makes of the server, with what its guards found. -/
inductive Outcome (rf : Raft n Command) : Call n Command → Raft n Command → Prop
  | stay (call : Call n Command) : Outcome rf call rf
  | follow (call : Call n Command) (term : Nat) (current : rf.currentTerm ≤ term) :
      Outcome rf call (rf.becomeFollowerLocked term)
  | stand (notLeader : rf.role ≠ .leader) :
      Outcome rf .electionTimeout (persistLocked { rf with
        currentTerm := rf.currentTerm + 1, role := .candidate, votedFor := some rf.me })
  | vote (args : RequestVoteArgs n) (current : rf.currentTerm ≤ args.term)
      (free : (rf.aligned args.term).votedFor = none)
      (upToDate : rf.isMoreUpToDateLocked args.lastLogIndex args.lastLogTerm = false) :
      Outcome rf (.requestVote args)
        (persistLocked { rf.aligned args.term with votedFor := some args.candidateId })
  | win (term votes : Nat) (reply : RequestVoteReply) (sameTerm : rf.currentTerm = term)
      (candidate : rf.role = .candidate) (granted : reply.voteGranted = true)
      (enough : n / 2 < votes + 1) :
      Outcome rf (.voteReply term votes reply) { rf with
        role := .leader, nextIndex := fun _ => rf.log.size, matchIndex := fun _ => 0 }
  | adopt (args : AppendEntriesArgs n Command) (prev : LogEntry Command) (log : RaftLog Command)
      (current : rf.currentTerm ≤ args.term)
      (found : rf.log.entryAt args.prevLogIndex = some prev)
      (prevTerm : prev.term = args.prevLogTerm)
      (written : rf.log.appendFrom args.prevLogIndex args.entries = some log) :
      Outcome rf (.appendEntries args)
        { persistLocked { rf.becomeFollowerLocked args.term with log } with
          commitIndex := max rf.commitIndex args.leaderCommit }
  | replicate (term : Nat) (sameTerm : rf.currentTerm = term) (leads : rf.role = .leader) :
      Outcome rf (.startReplication term) { rf with
        matchIndex := Function.update rf.matchIndex rf.me (rf.log.size - 1)
        nextIndex := Function.update rf.nextIndex rf.me rf.log.size }
  | probe (peer : Fin n) (args : AppendEntriesArgs n Command) (reply : AppendEntriesReply)
      (sameTerm : rf.currentTerm = args.term) (leads : rf.role = .leader) :
      Outcome rf (.appendReply peer args reply) { rf with
        nextIndex := Function.update rf.nextIndex peer (rf.nextProbe peer reply) }
  | count (peer : Fin n) (args : AppendEntriesArgs n Command) (reply : AppendEntriesReply)
      (sameTerm : rf.currentTerm = args.term) (leads : rf.role = .leader) :
      Outcome rf (.appendReply peer args reply) { rf with
        matchIndex := Function.update rf.matchIndex peer
          (args.prevLogIndex + args.entries.length)
        nextIndex := Function.update rf.nextIndex peer
          (args.prevLogIndex + args.entries.length + 1) }
  | commit (peer : Fin n) (args : AppendEntriesArgs n Command) (reply : AppendEntriesReply)
      (majority : Nat) (sameTerm : rf.currentTerm = args.term) (leads : rf.role = .leader)
      (more : rf.commitIndex < majority) :
      Outcome rf (.appendReply peer args reply) { rf with
        matchIndex := Function.update rf.matchIndex peer
          (args.prevLogIndex + args.entries.length)
        nextIndex := Function.update rf.nextIndex peer
          (args.prevLogIndex + args.entries.length + 1)
        commitIndex := majority }
  | install (args : InstallSnapshotArgs n) (log : RaftLog Command)
      (current : rf.currentTerm ≤ args.term)
      (newer : rf.log.snapLastIdx < args.lastIncludedIndex)
      (written : rf.log.installSnapshot args.lastIncludedIndex args.lastIncludedTerm
        args.snapshot = some log) :
      Outcome rf (.installSnapshot args)
        { persistLocked { rf.becomeFollowerLocked args.term with log } with snapPending := true }
  | ship (peer : Fin n) (args : InstallSnapshotArgs n) (reply : InstallSnapshotReply)
      (sameTerm : rf.currentTerm = args.term) (leads : rf.role = .leader) :
      Outcome rf (.installReply peer args reply) { rf with
        matchIndex := Function.update rf.matchIndex peer args.lastIncludedIndex
        nextIndex := Function.update rf.nextIndex peer (args.lastIncludedIndex + 1) }
  | start (command : Option Command) (leads : rf.role = .leader) :
      Outcome rf (.start command) (persistLocked { rf with
        log := rf.log.append { term := rf.currentTerm, commandValid := true, command } })
  | compact (index : Nat) (bytes : Bytes) (log : RaftLog Command)
      (committed : index ≤ rf.commitIndex) (newer : rf.log.snapLastIdx < index)
      (written : rf.log.doSnapshot index bytes = some log) :
      Outcome rf (.snapshot index bytes) (persistLocked { rf with log })
  | awaitSnapshot : Outcome rf .collect { rf with ticker := .sendSnapshot }
  | collect (entries : List (LogEntry Command)) :
      Outcome rf .collect { rf with
        lastApplied := max rf.lastApplied rf.log.snapLastIdx
        ticker := .sendEntries entries 0 }
  | sendEntry (entries : List (LogEntry Command)) (count : Nat) (msg : ApplyMsg Command) :
      Outcome rf .send { rf with
        ticker := .sendEntries entries (count + 1), applyCh := rf.applyCh ++ [msg] }
  | sendSnapshot (msg : ApplyMsg Command) :
      Outcome rf .send { rf with ticker := .snapshotSent, applyCh := rf.applyCh ++ [msg] }
  | bookEntries (entries : List (LogEntry Command)) :
      Outcome rf .finish { rf with
        lastApplied := rf.lastApplied + entries.length, ticker := .waiting }
  | bookSnapshot :
      Outcome rf .finish { rf with
        lastApplied := rf.log.snapLastIdx
        commitIndex := max rf.commitIndex rf.log.snapLastIdx
        snapPending := false
        ticker := .waiting }

theorem outcome_aligned (rf : Raft n Command) (call : Call n Command)
    (current : rf.currentTerm ≤ term) : rf.Outcome call (rf.aligned term) := by
  unfold aligned
  split
  · exact .follow call term current
  · exact .stay call

theorem outcome_requestVote (rf : Raft n Command) (args : RequestVoteArgs n) :
    rf.Outcome (.requestVote args) (rf.requestVote args).1 := by
  rcases rf.requestVote_cases args with
    ⟨_, result, _⟩ | ⟨current, result, _⟩ | ⟨current, free, upToDate, result, _⟩
  · rw [result]
    exact .stay _
  · rw [result]
    exact rf.outcome_aligned _ current
  · rw [isMoreUpToDateLocked, rf.aligned_log current] at upToDate
    rw [result]
    exact .vote args current free upToDate

theorem outcome_voteReply (rf : Raft n Command) (term votes : Nat) (reply : RequestVoteReply) :
    rf.Outcome (.voteReply term votes reply) (rf.voteReply term votes reply).1 := by
  rcases rf.voteReply_cases term votes reply with
    ⟨later, result⟩ | result | ⟨sameTerm, candidate, granted, ⟨_, result⟩ | ⟨enough, result⟩⟩
  · rw [result]
    exact .follow _ _ later.le
  · rw [result]
    exact .stay _
  · rw [result]
    exact .stay _
  · rw [result, rf.becomeLeaderLocked_eq candidate]
    exact .win term votes reply sameTerm candidate granted enough

theorem outcome_appendEntries (appended : rf.appendEntries args = some (next, reply)) :
    rf.Outcome (.appendEntries args) next := by
  rcases appendEntries_cases appended with
    ⟨_, rfl, _⟩ | ⟨current, rfl, _⟩ | ⟨current, prev, log, found, prevTerm, written, rfl, _⟩
  · exact .stay _
  · exact .follow _ _ current
  · rw [rf.becomeFollowerLocked_log current] at found written
    rw [rf.becomeFollowerLocked_commitIndex current]
    exact .adopt args prev log current found prevTerm written

theorem outcome_installSnapshot {args : InstallSnapshotArgs n} {reply : InstallSnapshotReply}
    (installed : rf.installSnapshot args = some (next, reply)) :
    rf.Outcome (.installSnapshot args) next := by
  rcases installSnapshot_cases installed with
    ⟨_, rfl⟩ | ⟨current, _, rfl⟩ | ⟨current, log, newer, written, rfl⟩
  · exact .stay _
  · exact .follow _ _ current
  · rw [rf.becomeFollowerLocked_log current] at newer written
    exact .install args log current newer written

theorem outcome_appendReply {peer : Fin n} (handled : rf.appendReply peer args reply = some next) :
    rf.Outcome (.appendReply peer args reply) next := by
  rcases appendReply_cases handled with
    ⟨later, rfl⟩ | rfl | ⟨sameTerm, leads, _, rfl⟩ |
      ⟨sameTerm, leads, _, majority, _, rfl | ⟨more, _, _, _, rfl⟩⟩
  · exact .follow _ _ later.le
  · exact .stay _
  · exact .probe peer args reply sameTerm leads
  · exact .count peer args reply sameTerm leads
  · exact .commit peer args reply majority sameTerm leads more

theorem handle_outcome {call : Call n Command} (handled : rf.handle call = some next) :
    rf.Outcome call next := by
  cases call with
  | electionTimeout =>
      simp only [Raft.handle] at handled
      split at handled
      · cases handled
      · rename_i notLeader
        cases handled
        rw [rf.becomeCandidateLocked_eq notLeader]
        exact .stand notLeader
  | requestVote args =>
      cases handled
      exact rf.outcome_requestVote args
  | voteReply term votes reply =>
      cases handled
      exact rf.outcome_voteReply term votes reply
  | appendEntries args =>
      obtain ⟨⟨_, reply⟩, appended, rfl⟩ := Option.map_eq_some_iff.mp handled
      exact outcome_appendEntries appended
  | startReplication term =>
      obtain ⟨⟨_, requests⟩, started, rfl⟩ := Option.map_eq_some_iff.mp handled
      rcases startReplication_cases started with ⟨rfl, _⟩ | ⟨sameTerm, leads, rfl, _⟩
      · exact .stay _
      · exact .replicate term sameTerm leads
  | appendReply peer args reply => exact outcome_appendReply handled
  | installSnapshot args =>
      obtain ⟨⟨_, reply⟩, installed, rfl⟩ := Option.map_eq_some_iff.mp handled
      exact outcome_installSnapshot installed
  | installReply peer args reply =>
      cases handled
      rcases rf.installReply_cases peer args reply with
        ⟨later, result⟩ | result | ⟨sameTerm, leads, result⟩
      · rw [result]
        exact .follow _ _ later.le
      · rw [result]
        exact .stay _
      · rw [result]
        exact .ship peer args reply sameTerm leads
  | start command =>
      cases handled
      rcases rf.start_cases command with ⟨_, result⟩ | ⟨leads, result⟩
      · rw [result]
        exact .stay _
      · rw [result]
        exact .start command leads
  | snapshot index bytes =>
      rcases snapshot_cases handled with rfl | ⟨committed, newer, log, written, rfl⟩
      · exact .stay _
      · exact .compact index bytes log committed newer written
  | collect =>
      obtain ⟨_, ⟨_, rfl⟩ | ⟨_, entries, _, rfl⟩⟩ := collect_cases handled
      · exact .awaitSnapshot
      · exact .collect entries
  | send =>
      obtain ⟨⟨_, msg⟩, sent, rfl⟩ := Option.map_eq_some_iff.mp handled
      rcases send_cases sent with ⟨entries, count, _, _, _, _, rfl⟩ | ⟨_, _, rfl⟩
      · exact .sendEntry entries count msg
      · exact .sendSnapshot msg
  | finish =>
      rcases finish_cases handled with ⟨entries, _, rfl⟩ | ⟨_, rfl⟩
      · exact .bookEntries entries
      · exact .bookSnapshot

end MultiRaft.Raft
