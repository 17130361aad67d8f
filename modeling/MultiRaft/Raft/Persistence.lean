import MultiRaft.Raft.Step
import MultiRaft.Lib.Ballots

/-!
# What survives a restart, and what a server shows of the election

Every critical section that changes the term, the vote or the log calls
`persistLocked` before it ends, so a restart finds them as they were.
-/

namespace MultiRaft

variable {n : Nat} {Command : Type}

namespace Raft

/-- The `Persister` holds the current term, vote, log and snapshot, or nothing
and they still have their first values. -/
def Durable (rf : Raft n Command) : Prop :=
  (rf.persister.raftstate = some rf.persisted ∧ rf.persister.snapshot = rf.log.snapshot) ∨
  (rf.persister.raftstate = none ∧ rf.currentTerm = 1 ∧ rf.votedFor = none ∧
    rf.log = newLog invalidIndex invalidTerm [] [])

@[simp]
theorem durable_persistLocked (rf : Raft n Command) : rf.persistLocked.Durable :=
  .inl ⟨rfl, rfl⟩

variable {rf next : Raft n Command}

/-- A section that touches none of the four keeps durability. -/
theorem Durable.of_same (durable : rf.Durable) (persister : next.persister = rf.persister)
    (term : next.currentTerm = rf.currentTerm) (vote : next.votedFor = rf.votedFor)
    (log : next.log = rf.log) : next.Durable := by
  unfold Durable persisted
  rw [persister, term, vote, log]
  exact durable

theorem durable_becomeFollowerLocked (durable : rf.Durable) {term : Nat}
    (current : rf.currentTerm ≤ term) : (rf.becomeFollowerLocked term).Durable := by
  rcases rf.becomeFollowerLocked_cases current with ⟨_, result⟩ | ⟨_, result⟩
  · rw [result]
    exact durable.of_same rfl rfl rfl rfl
  · rw [result]
    exact durable_persistLocked _

variable {call : Call n Command}

theorem Durable.handle (durable : rf.Durable) (handled : rf.handle call = some next) :
    next.Durable := by
  cases handle_outcome handled with
  | stay => exact durable
  | follow _ term current => exact durable_becomeFollowerLocked durable current
  | stand | vote | start | compact => exact durable_persistLocked _
  | adopt args prev log =>
      exact (durable_persistLocked { rf.becomeFollowerLocked args.term with log }).of_same
        rfl rfl rfl rfl
  | install args log =>
      exact (durable_persistLocked { rf.becomeFollowerLocked args.term with log }).of_same
        rfl rfl rfl rfl
  | win | replicate | probe | count | commit | ship | awaitSnapshot | collect | sendEntry
  | sendSnapshot | bookEntries | bookSnapshot => exact durable.of_same rfl rfl rfl rfl

/-- `Make` on the `Persister` of a durable server. -/
theorem make_eq_of_durable (durable : rf.Durable) (me : Fin n) :
    make me rf.persister =
      { me, persister := rf.persister, role := .follower,
        currentTerm := rf.currentTerm, votedFor := rf.votedFor, log := rf.log,
        nextIndex := fun _ => 0, matchIndex := fun _ => 0,
        commitIndex := rf.log.snapLastIdx, lastApplied := rf.log.snapLastIdx,
        snapPending := false, ticker := .waiting, applyCh := [] } := by
  rcases durable with ⟨stored, bytes⟩ | ⟨empty, term, vote, log⟩
  · simp only [make, readPersist, stored, bytes, persisted]
    split
    · rfl
    · rename_i nothing
      have zero : rf.log.snapLastIdx = 0 := Nat.le_zero.mp (not_lt.mp nothing)
      simp only [zero]
      congr 1
      rw [← zero]
  · simp only [make, readPersist, empty, term, vote, log]
    rfl

theorem make_role (me : Fin n) (persister : Persister n Command) :
    (make me persister).role = .follower := by
  unfold make readPersist
  split
  · rfl
  · dsimp only
    split <;> rfl

theorem durable_make (durable : rf.Durable) (me : Fin n) :
    (make me rf.persister).Durable := by
  rw [make_eq_of_durable durable]
  exact durable.of_same rfl rfl rfl rfl

def view (rf : Raft n Command) : ElectionView (Fin n) where
  currentTerm := rf.currentTerm
  votedFor := rf.votedFor
  leading := rf.role = .leader

/-- A candidate or leader has voted for itself. -/
def SelfVoted (rf : Raft n Command) : Prop :=
  rf.role ≠ .follower → rf.votedFor = some rf.me

theorem evolves_becomeFollowerLocked (rf : Raft n Command) {term : Nat}
    (current : rf.currentTerm ≤ term) :
    rf.view.Evolves (rf.becomeFollowerLocked term).view := by
  rcases rf.becomeFollowerLocked_cases current with ⟨_, result⟩ | ⟨later, result⟩
  · rw [result]
    exact .inr ⟨rfl, .inr rfl⟩
  · rw [result]
    exact .inl later

theorem SelfVoted.aligned (selfVoted : rf.SelfVoted) {term : Nat}
    (current : rf.currentTerm ≤ term) :
    (rf.aligned term).SelfVoted := by
  rcases rf.aligned_cases current with ⟨_, result⟩ | ⟨_, result⟩
  · rw [result]
    exact selfVoted
  · rw [result]
    exact fun active => absurd rfl active

/-- What any section does to the election: the view evolves, the identity stays,
candidates and leaders keep their own vote, a vote goes to the server itself or
to a candidate whose log is at least as up to date, and only a counted vote makes
a leader. -/
structure ElectionStep (rf next : Raft n Command) (call : Call n Command) : Prop where
  evolves : rf.view.Evolves next.view
  me : next.me = rf.me
  selfVoted : next.SelfVoted
  casts : ∀ candidate, next.votedFor = some candidate →
    (rf.votedFor = some candidate ∧ next.currentTerm = rf.currentTerm) ∨ candidate = rf.me ∨
    ∃ args, call = .requestVote args ∧ candidate = args.candidateId ∧
      next.currentTerm = args.term ∧
      rf.isMoreUpToDateLocked args.lastLogIndex args.lastLogTerm = false
  leads : next.role = .leader →
    (rf.role = .leader ∧ next.currentTerm = rf.currentTerm) ∨
    ∃ term votes reply, call = .voteReply term votes reply ∧
      rf.role = .candidate ∧ rf.currentTerm = term ∧ next.currentTerm = term ∧
      reply.voteGranted = true ∧ n / 2 < votes + 1

theorem ElectionStep.of_same (selfVoted : rf.SelfVoted) (term : next.currentTerm = rf.currentTerm)
    (vote : next.votedFor = rf.votedFor) (me : next.me = rf.me) (role : next.role = rf.role) :
    ElectionStep rf next call where
  evolves := .inr ⟨term.symm, .inr vote⟩
  me := me
  selfVoted active := by
    rw [vote, me]
    exact selfVoted (role ▸ active)
  casts candidate voted := .inl ⟨vote ▸ voted, term⟩
  leads leads := .inl ⟨role ▸ leads, term⟩

theorem ElectionStep.of_follower (evolves : rf.view.Evolves next.view) (me : next.me = rf.me)
    (role : next.role = .follower)
    (casts : ∀ candidate, next.votedFor = some candidate →
      (rf.votedFor = some candidate ∧ next.currentTerm = rf.currentTerm) ∨ candidate = rf.me ∨
      ∃ args, call = .requestVote args ∧ candidate = args.candidateId ∧
        next.currentTerm = args.term ∧
        rf.isMoreUpToDateLocked args.lastLogIndex args.lastLogTerm = false) :
    ElectionStep rf next call where
  evolves := evolves
  me := me
  selfVoted active := absurd role active
  casts := casts
  leads leads := by
    rw [role] at leads
    cases leads

theorem electionStep_becomeFollowerLocked (rf : Raft n Command) {term : Nat}
    (current : rf.currentTerm ≤ term) (call : Call n Command) :
    ElectionStep rf (rf.becomeFollowerLocked term) call := by
  refine .of_follower (rf.evolves_becomeFollowerLocked current) (rf.becomeFollowerLocked_me term)
    (rf.becomeFollowerLocked_role current) ?_
  intro candidate voted
  rcases rf.becomeFollowerLocked_cases current with ⟨_, result⟩ | ⟨_, result⟩
  · rw [result] at voted ⊢
    exact .inl ⟨voted, rfl⟩
  · rw [result] at voted
    cases voted

/-- A server that has not voted is a follower, so its vote makes no candidate. -/
theorem electionStep_vote (selfVoted : rf.SelfVoted) {args : RequestVoteArgs n}
    (current : rf.currentTerm ≤ args.term) (free : (rf.aligned args.term).votedFor = none)
    (upToDate : rf.isMoreUpToDateLocked args.lastLogIndex args.lastLogTerm = false) :
    ElectionStep rf
      (persistLocked { rf.aligned args.term with votedFor := some args.candidateId })
      (.requestVote args) := by
  have passive : (rf.aligned args.term).role = .follower := by
    by_contra active
    have voted := (selfVoted.aligned current) active
    rw [free] at voted
    cases voted
  refine .of_follower ?_ (rf.aligned_me args.term) passive ?_
  · rcases rf.aligned_cases current with ⟨same, aligns⟩ | ⟨later, aligns⟩
    · rw [aligns] at free ⊢
      exact .inr ⟨rfl, .inl free⟩
    · rw [aligns]
      exact .inl later
  · intro candidate voted
    exact .inr (.inr ⟨args, rfl, (Option.some.inj voted).symm, rf.aligned_currentTerm current,
      upToDate⟩)

theorem electionStep_handle (selfVoted : rf.SelfVoted) (handled : rf.handle call = some next) :
    ElectionStep rf next call := by
  cases handle_outcome handled with
  | follow _ term current => exact electionStep_becomeFollowerLocked rf current _
  | stand notLeader =>
      refine ⟨.inl (Nat.lt_succ_self _), rfl, fun _ => rfl, ?_, ?_⟩
      · intro candidate voted
        exact .inr (.inl (Option.some.inj voted).symm)
      · intro leads
        cases leads
  | vote args current free upToDate => exact electionStep_vote selfVoted current free upToDate
  | win term votes reply sameTerm candidate granted enough =>
      refine ⟨.inr ⟨rfl, .inr rfl⟩, rfl, fun _ => selfVoted (by rw [candidate]; decide),
        fun _ voted => .inl ⟨voted, rfl⟩, ?_⟩
      intro _
      exact .inr ⟨term, votes, reply, rfl, candidate, sameTerm, sameTerm, granted, enough⟩
  | adopt args prev log current =>
      have step := electionStep_becomeFollowerLocked rf current (.appendEntries args)
      exact ⟨step.evolves, step.me, step.selfVoted, step.casts, step.leads⟩
  | install args log current =>
      have step := electionStep_becomeFollowerLocked rf current (.installSnapshot args)
      exact ⟨step.evolves, step.me, step.selfVoted, step.casts, step.leads⟩
  | stay | replicate | probe | count | commit | ship | start | compact | awaitSnapshot | collect
  | sendEntry | sendSnapshot | bookEntries | bookSnapshot =>
      exact .of_same selfVoted rfl rfl rfl rfl

end Raft

theorem Cluster.durable_of_reachable {allowed : Cluster n Command → Event n Command → Prop}
    {cluster : Cluster n Command} (reached : (raftSystem n Command).Reachable allowed cluster)
    (server : Fin n) : (cluster.servers server).Durable := by
  have start : ∀ state, (raftSystem n Command).init state → (state.servers server).Durable := by
    rintro _ rfl
    exact .inr ⟨rfl, rfl, rfl, rfl⟩
  apply reached.preserves start
  intro state event next durable _ stepped
  rcases (step_cases stepped).servers server with same | ⟨call, handled, -⟩ | ⟨-, restarted⟩
  · rw [same]
    exact durable
  · exact durable.handle handled
  · rw [restarted]
    exact Raft.durable_make durable server

/-- Between any two critical sections, `Make` on what the `Persister` holds brings back the
term, the vote and the log with its snapshot, and starts with all of the snapshot applied. -/
theorem make_reproduces {cluster : Cluster n Command}
    (reached : (raftSystem n Command).Reachable System.anyStep cluster) (server : Fin n) :
    (Raft.make server (cluster.servers server).persister).currentTerm =
        (cluster.servers server).currentTerm ∧
      (Raft.make server (cluster.servers server).persister).votedFor =
        (cluster.servers server).votedFor ∧
      (Raft.make server (cluster.servers server).persister).log = (cluster.servers server).log ∧
      (Raft.make server (cluster.servers server).persister).commitIndex =
        (cluster.servers server).log.snapLastIdx ∧
      (Raft.make server (cluster.servers server).persister).lastApplied =
        (cluster.servers server).log.snapLastIdx := by
  rw [Raft.make_eq_of_durable (Cluster.durable_of_reachable reached server)]
  exact ⟨rfl, rfl, rfl, rfl, rfl⟩

/-- A leader with a command in its log. -/
def commandedCluster : Cluster 3 Nat :=
  (raftSystem 3 Nat).after (fun _ _ => true) (Cluster.initial 3 Nat)
    [.electionTimeout 0, .startElection 0, .deliver 0, .deliver 0, .start 0 (some 10)]

theorem make_reproduces_commanded :
    (commandedCluster.servers 0).log.size = 2 ∧
      (Raft.make 0 (commandedCluster.servers 0).persister).log =
        (commandedCluster.servers 0).log := by
  have reached : (raftSystem 3 Nat).Reachable System.anyStep commandedCluster :=
    ⟨_, rfl, (System.run_after (fun _ _ => true) _ _).mono fun _ _ _ => trivial⟩
  exact ⟨rfl, (make_reproduces reached 0).2.2.1⟩

end MultiRaft
