import MultiRaft.Node.Election

/-!
# What a `Node` has acknowledged when a save fails

`persistLocked` drops the errors of both its saves, so a handler answers whether or
not its answer was stored.  The saves of a node alternate: every `SaveRaftState` is
followed by a `SaveSnapshot`.  While the former succeed, what was acknowledged is
stored and a restart cannot change a vote, whatever becomes of the latter.
-/

namespace MultiRaft

variable {n : Nat} {Command : Type}

/-- No `SaveRaftState` call will fail; `SaveSnapshot` calls may. -/
def RaftStorage.KeepsState (storage : RaftStorage n Command) : Prop :=
  ∀ i : Nat, storage.failures[2 * i]? ≠ some true

namespace Node

variable {node next : Node n Command} {call : NodeCall n Command}

theorem persistLocked_of_keepsState (keeps : node.storage.KeepsState) :
    node.persistLocked.storage.raftState = some node.stateRecord ∧
      node.persistLocked.storage.KeepsState := by
  rw [persistLocked_storage_eq]
  constructor
  · exact if_neg (keeps 0)
  · intro i
    rw [List.getElem?_drop, show 2 + 2 * i = 2 * (i + 1) by omega]
    exact keeps (i + 1)

/-- The stored term and vote are the present ones, or nothing was ever written. -/
structure Remembers (node : Node n Command) : Prop where
  keeps : node.storage.KeepsState
  record : (∃ log, node.storage.raftState =
      some { currentTerm := node.currentTerm, votedFor := node.votedFor, log }) ∨
    (node.storage.raftState = none ∧ node.currentTerm = 1 ∧ node.votedFor = none)

theorem remembers_persistLocked (keeps : node.storage.KeepsState) :
    node.persistLocked.Remembers := by
  obtain ⟨written, still⟩ := persistLocked_of_keepsState keeps
  exact ⟨still, .inl ⟨node.serializeLog, written⟩⟩

theorem Remembers.of_agrees (remembers : node.Remembers) (same : node.Agrees next) :
    next.Remembers where
  keeps := same.storage ▸ remembers.keeps
  record := by
    rw [same.storage, same.term, same.vote]
    exact remembers.record

theorem Remembers.update (remembers : node.Remembers) (update : node.Update next) :
    next.Remembers := by
  cases update with
  | kept same => exact remembers.of_agrees same
  | saved draft unsaved headed result =>
      exact (remembers_persistLocked (unsaved ▸ remembers.keeps)).of_agrees result

/-- Term and vote come from the state record, whatever the snapshot record says. -/
theorem newNode_term_vote (me : Fin n) (storage : RaftStorage n Command) (capacity : Nat) :
    (newNode me storage capacity).currentTerm =
        (storage.raftState.map (·.currentTerm)).getD 1 ∧
      (newNode me storage capacity).votedFor = storage.raftState.bind (·.votedFor) := by
  unfold newNode loadFromStorage
  grind

theorem Remembers.recovers (remembers : node.Remembers) : node.Recovers := by
  intro capacity
  obtain ⟨term, vote⟩ := newNode_term_vote node.me node.storage capacity
  rw [term, vote]
  rcases remembers.record with ⟨log, written⟩ | ⟨none, first, unvoted⟩
  · rw [written]
    exact ⟨rfl, rfl⟩
  · rw [none, first, unvoted]
    exact ⟨rfl, rfl⟩

theorem Remembers.newNode (remembers : node.Remembers) (capacity : Nat) :
    (newNode node.me node.storage capacity).Remembers := by
  obtain ⟨term, vote⟩ := remembers.recovers capacity
  constructor
  · rw [newNode_storage]
    exact remembers.keeps
  · rw [newNode_storage, term, vote]
    exact remembers.record

theorem Remembers.handle (remembers : node.Remembers) (handled : node.handle call = some next) :
    next.Remembers := by
  by_cases restarts : ∃ capacity, call = .restart capacity
  · obtain ⟨capacity, rfl⟩ := restarts
    cases handled
    exact remembers.newNode capacity
  · apply (handle_updates handled (not_exists.mp restarts)).preserves Remembers ?_ remembers
    exact fun first last before update => before.update update

/-- The vote that a call casts, with its term. -/
def castVote (node : Node n Command) : NodeCall n Command → Option (Nat × Fin n)
  | .requestVote req =>
      if (node.handleRequestVote req).2.voteGranted then some (req.term, req.candidateId) else none
  | .electionTimeout =>
      if node.role = .leader then none else some (node.currentTerm + 1, node.me)
  | _ => none

/-- The node has voted for the candidate, or has left the term. -/
def VotedOrLeft (node : Node n Command) (term : Nat) (candidate : Fin n) : Prop :=
  term < node.currentTerm ∨ (node.currentTerm = term ∧ node.votedFor = some candidate)

variable {term : Nat} {candidate : Fin n}

theorem granted_eq {req : RequestVoteArgs n}
    (granted : (node.handleRequestVote req).2.voteGranted = true) :
    node.currentTerm ≤ req.term ∧
      ((node.aligned req.term).votedFor = none ∨
        (node.aligned req.term).votedFor = some req.candidateId) ∧
      (node.handleRequestVote req).1 =
        persistLocked { node.aligned req.term with votedFor := some req.candidateId } := by
  rcases node.handleRequestVote_cases req with
    ⟨-, -, refused⟩ | ⟨-, -, refused⟩ | ⟨current, free, -, result, -⟩
  · rw [refused] at granted
    cases granted
  · rw [refused] at granted
    cases granted
  · exact ⟨current, free, result⟩

theorem votedOrLeft_of_castVote (casts : node.castVote call = some (term, candidate))
    (handled : node.handle call = some next) : next.VotedOrLeft term candidate := by
  cases call with
  | requestVote req =>
      simp only [castVote, Option.ite_none_right_eq_some, Option.some.injEq, Prod.mk.injEq] at casts
      obtain ⟨granted, rfl, rfl⟩ := casts
      obtain ⟨current, -, result⟩ := granted_eq granted
      cases handled
      rw [result]
      exact .inr ⟨aligned_currentTerm node current, rfl⟩
  | electionTimeout =>
      simp only [castVote, Option.ite_none_left_eq_some, Option.some.injEq, Prod.mk.injEq] at casts
      obtain ⟨notLeader, rfl, rfl⟩ := casts
      simp only [Node.handle, if_neg notLeader, Option.some.injEq] at handled
      subst handled
      rw [node.becomeCandidateLocked_eq notLeader]
      exact .inr ⟨rfl, rfl⟩
  | _ => cases casts

theorem ElectionStep.votedOrLeft (step : ElectionStep node next call)
    (voted : node.VotedOrLeft term candidate) : next.VotedOrLeft term candidate := by
  rcases voted with left | ⟨here, vote⟩
  · exact .inl (Nat.lt_of_lt_of_le left step.evolves.term_le)
  · rcases step.evolves with later | ⟨same, unvoted | kept⟩
    · exact .inl (here ▸ later)
    · rw [view, vote] at unvoted
      cases unvoted
    · exact .inr ⟨same.symm.trans here, kept.trans vote⟩

/-- A node that has voted for a candidate casts no vote for another one in the term. -/
theorem VotedOrLeft.castVote_eq {other : Fin n} (voted : node.VotedOrLeft term candidate)
    (casts : node.castVote call = some (term, other)) : other = candidate := by
  cases call with
  | requestVote req =>
      simp only [castVote, Option.ite_none_right_eq_some, Option.some.injEq, Prod.mk.injEq] at casts
      obtain ⟨granted, rfl, rfl⟩ := casts
      obtain ⟨current, free, -⟩ := granted_eq granted
      rcases voted with left | ⟨here, vote⟩
      · omega
      · rcases node.aligned_cases current with ⟨-, same⟩ | ⟨later, -⟩
        · rw [same, vote] at free
          simpa [eq_comm] using free
        · omega
  | electionTimeout =>
      simp only [castVote, Option.ite_none_left_eq_some, Option.some.injEq, Prod.mk.injEq] at casts
      obtain ⟨-, rfl, rfl⟩ := casts
      rcases voted with left | ⟨here, -⟩ <;> omega
  | _ => cases casts

theorem remembers_run {first last : Node n Command} (remembers : first.Remembers)
    (selfVoted : first.SelfVoted) (run : (nodeSystem n Command).Run System.anyStep first last) :
    last.Remembers ∧ last.SelfVoted ∧
      ∀ term candidate, first.VotedOrLeft term candidate → last.VotedOrLeft term candidate := by
  induction run with
  | refl => exact ⟨remembers, selfVoted, fun _ _ voted => voted⟩
  | tail _ _ handled inductionHypothesis =>
      obtain ⟨before, self, voted⟩ := inductionHypothesis
      have step := electionStep_handle before.recovers self handled
      exact ⟨before.handle handled, step.selfVoted,
        fun term candidate start => step.votedOrLeft (voted term candidate start)⟩

/-- What `HandleRequestVote` has granted is stored. -/
theorem Remembers.stored_vote (remembers : node.Remembers) {req : RequestVoteArgs n}
    (granted : (node.handleRequestVote req).2.voteGranted = true) :
    ∃ log, (node.handleRequestVote req).1.storage.raftState =
      some { currentTerm := req.term, votedFor := some req.candidateId, log } := by
  obtain ⟨current, -, result⟩ := granted_eq granted
  have before := remembers.update (node.update_aligned current).1
  refine ⟨(node.aligned req.term).serializeLog, ?_⟩
  rw [result]
  have written := (persistLocked_of_keepsState (show RaftStorage.KeepsState
    { node.aligned req.term with votedFor := some req.candidateId }.storage from before.keeps)).1
  refine written.trans ?_
  simp only [stateRecord, aligned_currentTerm node current]
  rfl

/-- What `HandleAppendEntries` has accepted is stored. -/
theorem Remembers.stored_entries (remembers : node.Remembers) {req : AppendEntriesArgs n Command}
    {resp : AppendEntriesReply} (handled : node.handleAppendEntries req = some (next, resp))
    (success : resp.success = true) :
    ∃ state, next.storage.raftState = some state ∧
      ∀ (k : Nat) entry, req.entries[k]? = some entry →
        (deserializeLog state.log).entryAt (req.prevLogIndex + 1 + k) = some entry := by
  rcases handleAppendEntries_cases handled with
    ⟨-, -, refused⟩ | ⟨-, -, refused⟩ | ⟨current, prev, log, -, -, appended, rfl, -⟩
  · rw [refused] at success
    cases success
  · rw [refused] at success
    cases success
  · have before := remembers.update (node.update_becomeFollowerLocked current).1
    have written := (persistLocked_of_keepsState (show RaftStorage.KeepsState
      { node.becomeFollowerLocked req.term with log }.storage from before.keeps)).1
    refine ⟨_, written, ?_⟩
    intro k entry here
    rw [← here]
    exact RaftLog.entryAt_appendFrom appended k

end Node

/-- If no `SaveRaftState` call of a node fails, then every granted vote and every accepted
entry is in the stored state record, and the node never votes for two candidates in one
term, over any restarts. -/
theorem acknowledged_is_stored {me : Fin n} {capacity : Nat} {failures : List Bool}
    (keeps : ∀ i : Nat, failures[2 * i]? ≠ some true) {node : Node n Command}
    (run : (nodeSystem n Command).Run System.anyStep
      (Node.newNode me { RaftStorage.empty n Command with failures } capacity) node) :
    (∀ req, (node.handleRequestVote req).2.voteGranted = true →
      ∃ log, (node.handleRequestVote req).1.storage.raftState =
        some { currentTerm := req.term, votedFor := some req.candidateId, log }) ∧
    (∀ req next resp, node.handleAppendEntries req = some (next, resp) → resp.success = true →
      ∃ state, next.storage.raftState = some state ∧
        ∀ (k : Nat) entry, req.entries[k]? = some entry →
          (Node.deserializeLog state.log).entryAt (req.prevLogIndex + 1 + k) = some entry) ∧
    ∀ call next last call' term candidate other,
      node.castVote call = some (term, candidate) → node.handle call = some next →
      (nodeSystem n Command).Run System.anyStep next last →
      last.castVote call' = some (term, other) → other = candidate := by
  have start : (Node.newNode me { RaftStorage.empty n Command with failures } capacity).Remembers :=
    ⟨keeps, .inr ⟨rfl, rfl, rfl⟩⟩
  obtain ⟨remembers, selfVoted, -⟩ := Node.remembers_run start
    (fun active => absurd (Node.newNode_role _ _ _) active) run
  refine ⟨fun req granted => remembers.stored_vote granted,
    fun req next resp handled success => remembers.stored_entries handled success, ?_⟩
  intro call next last call' term candidate other casts handled further again
  have step := Node.electionStep_handle remembers.recovers selfVoted handled
  obtain ⟨-, -, voted⟩ := Node.remembers_run (remembers.handle handled) step.selfVoted further
  exact (voted term candidate (Node.votedOrLeft_of_castVote casts handled)).castVote_eq again

/-- A vote asked for by a server in term 2. -/
def askVote (candidate : Fin 3) : NodeCall 3 Nat :=
  .requestVote { term := 2, candidateId := candidate, lastLogIndex := 0, lastLogTerm := 0 }

/-- A node whose next saves go as the pattern says. -/
def failingNode (failures : List Bool) : Node 3 Nat :=
  Node.newNode 0 { RaftStorage.empty 3 Nat with failures } 4

/-- The node votes for server 1. -/
def votedNode (failures : List Bool) : Node 3 Nat :=
  (nodeSystem 3 Nat).after (fun _ _ => true) (failingNode failures) [askVote 1]

/-- It restarts after that. -/
def revivedNode (failures : List Bool) : Node 3 Nat :=
  (nodeSystem 3 Nat).after (fun _ _ => true) (votedNode failures) [.restart 4]

theorem acknowledged_is_stored_voted :
    (revivedNode [false, true, false, true]).castVote (askVote 1) = some (2, 1) ∧
      ∀ call other, (revivedNode [false, true, false, true]).castVote call = some (2, other) →
        other = 1 := by
  refine ⟨by decide, ?_⟩
  have keeps : ∀ i : Nat, [false, true, false, true][2 * i]? ≠ some true := by
    intro i
    match i with
    | 0 | 1 => decide
    | i + 2 =>
        rw [List.getElem?_eq_none (by simp only [List.length_cons, List.length_nil]; omega)]
        simp
  obtain ⟨-, -, once⟩ := acknowledged_is_stored keeps
    (.refl (Node.newNode (0 : Fin 3) { RaftStorage.empty 3 Nat with
      failures := [false, true, false, true] } 4))
  intro call other casts
  refine once (askVote 1) (votedNode [false, true, false, true]) _ call 2 1 other (by decide)
    rfl ?_ casts
  exact (System.run_after (fun _ _ => true) _ _).mono fun _ _ _ => trivial

/-- The save of the vote fails and the node has granted it all the same; after a restart
it votes for another server in the same term. -/
theorem failed_save_is_acknowledged :
    (failingNode [false, false, true]).castVote (askVote 1) = some (2, 1) ∧
    (votedNode [false, false, true]).storage.raftState.map (·.votedFor) = some none ∧
    (revivedNode [false, false, true]).castVote (askVote 2) = some (2, 2) := by
  decide

end MultiRaft
