import MultiRaft.Raft.Election
import MultiRaft.Raft.LogStep

/-!
# The election restriction

A candidate reads the end of its log when `startElection` takes the lock, later
than it became one, and the voters compare with what it read at yet other times.
The end of its log is the same throughout: whatever would change it also ends the
candidacy, and compaction leaves it alone.
-/

namespace MultiRaft

variable {n : Nat} {Command : Type}

namespace Raft

/-- A candidate that stays one keeps the end of its log. -/
theorem LogStep.last {rf next : Raft n Command} {call : Call n Command}
    (step : LogStep rf next call) (isCandidate : next.role = .candidate) :
    next.log.last = rf.log.last := by
  cases step with
  | kept log => rw [log]
  | append _ role => exact nomatch isCandidate.symm.trans role
  | adopt _ role => exact nomatch isCandidate.symm.trans role
  | install _ role => exact nomatch isCandidate.symm.trans role
  | compact _ _ _ _ log => exact RaftLog.last_doSnapshot log

/-- Whoever starts to lead was a candidate and has the log it had. -/
theorem log_of_elected {rf next : Raft n Command} {call : Call n Command}
    (selfVoted : rf.SelfVoted) (handled : rf.handle call = some next)
    (before : rf.role ≠ .leader) (after : next.role = .leader) :
    rf.role = .candidate ∧ next.currentTerm = rf.currentTerm ∧ next.log = rf.log := by
  rcases (electionStep_handle selfVoted handled).leads after with
    ⟨led, _⟩ | ⟨_, _, _, rfl, isCandidate, sameTerm, nowTerm, _⟩
  · exact absurd led before
  · cases (proceeds_handle handled).log with
    | kept log => exact ⟨isCandidate, nowTerm.trans sameTerm.symm, log⟩

/-- The vote a server shows after `RequestVote` was there before or is granted now. -/
theorem requestVote_grants {rf : Raft n Command} {args : RequestVoteArgs n} {candidate : Fin n}
    (voted : (rf.requestVote args).1.votedFor = some candidate) :
    (rf.votedFor = some candidate ∧ (rf.requestVote args).1.currentTerm = rf.currentTerm) ∨
    (args.candidateId = candidate ∧ (rf.requestVote args).1.currentTerm = args.term ∧
      (rf.requestVote args).2.voteGranted = true) := by
  rcases rf.requestVote_cases args with
    ⟨_, result, _⟩ | ⟨current, result, _⟩ | ⟨current, _, _, result, granted⟩
  · rw [result] at voted ⊢
    exact .inl ⟨voted, rfl⟩
  · rw [result] at voted ⊢
    rcases rf.aligned_cases current with ⟨_, aligns⟩ | ⟨_, aligns⟩
    · rw [aligns] at voted ⊢
      exact .inl ⟨voted, rfl⟩
    · rw [aligns] at voted
      cases voted
  · rw [result] at voted ⊢
    exact .inr ⟨Option.some.inj voted, rf.aligned_currentTerm current, granted⟩

/-- A vote is granted to a log that does not end before the voter's. -/
theorem last_of_granted {rf : Raft n Command} {args : RequestVoteArgs n}
    (granted : (rf.requestVote args).2.voteGranted = true) :
    rf.log.last.2 < args.lastLogTerm ∨
      rf.log.last.2 = args.lastLogTerm ∧ rf.log.last.1 ≤ args.lastLogIndex := by
  rcases rf.requestVote_cases args with
    ⟨_, _, refused⟩ | ⟨_, _, refused⟩ | ⟨current, _, upToDate, _, _⟩
  · rw [refused] at granted
    cases granted
  · rw [refused] at granted
    cases granted
  · simp only [isMoreUpToDateLocked, rf.aligned_log current] at upToDate
    split at upToDate
    · have notLater := of_decide_eq_false upToDate
      omega
    · have notLonger := of_decide_eq_false upToDate
      omega

end Raft

/-- The request for a vote that a packet carries or answers. -/
def Packet.asked (packet : Packet n Command) : Option (RequestVoteArgs n) :=
  match packet.body with
  | .voteRequest args => some args
  | .voteReply args _ => some args
  | _ => none

namespace Cluster

/-- The server has reached the term of the request, and as long as it is a candidate
of that term its log ends as the request says. -/
def Asks (cluster : Cluster n Command) (candidate : Fin n) (args : RequestVoteArgs n) : Prop :=
  args.term ≤ (cluster.servers candidate).currentTerm ∧
  ((cluster.servers candidate).role = .candidate →
    (cluster.servers candidate).currentTerm = args.term →
    (cluster.servers candidate).log.last = (args.lastLogIndex, args.lastLogTerm))

/-- The event delivers a request of the candidate, and the voter grants it. -/
def Grants (cluster : Cluster n Command) (event : Event n Command) (voter candidate : Fin n)
    (args : RequestVoteArgs n) : Prop :=
  ∃ index packet, event = .deliver index ∧ cluster.net[index]? = some packet ∧
    packet.body = .voteRequest args ∧ packet.peer = voter ∧ packet.caller = candidate ∧
    args.candidateId = candidate ∧
    ((cluster.servers voter).requestVote args).2.voteGranted = true

/-- Every vote for another server was granted in a step of the run, and every request
under way or granted is one that its candidate asks. -/
structure Recorded (past : List (Cluster n Command × Event n Command))
    (cluster : Cluster n Command) (ballots : Ballots (Fin n)) : Prop where
  packets : ∀ packet ∈ cluster.net, ∀ args, packet.asked = some args →
    cluster.Asks packet.caller args
  votes : ∀ voter term candidate, ballots.vote voter term = some candidate → voter ≠ candidate →
    ∃ state event args, (state, event) ∈ past ∧ args.term = term ∧
      state.Grants event voter candidate args ∧ cluster.Asks candidate args

variable {past : List (Cluster n Command × Event n Command)} {cluster next : Cluster n Command}
  {ballots : Ballots (Fin n)} {counted : Fin n → Nat → Finset (Fin n)} {event : Event n Command}

theorem Asks.step {candidate : Fin n} {args : RequestVoteArgs n}
    (asks : cluster.Asks candidate args) (voting : cluster.Voting ballots)
    (stepped : cluster.Step event next) : next.Asks candidate args := by
  obtain ⟨reached, shows⟩ := asks
  refine ⟨reached.trans (voting.evolves stepped candidate).term_le, ?_⟩
  intro isCandidate sameTerm
  rcases stepped.servers candidate with same | ⟨call, handled, _⟩ | ⟨_, restarted⟩
  · rw [same] at isCandidate sameTerm ⊢
    exact shows isCandidate sameTerm
  · have proceeds := Raft.proceeds_handle handled
    rcases proceeds.candidate isCandidate with ⟨before, term⟩ | later
    · rw [proceeds.log.last isCandidate]
      exact shows before (term.symm.trans sameTerm)
    · -- a new candidacy is of a term nobody was asked for
      omega
  · rw [restarted, Raft.make_role] at isCandidate
    cases isCandidate

/-- The packets of the next state are requests that their candidates ask now. -/
theorem Recorded.asks_of_arises (recorded : cluster.Recorded past ballots)
    {packet : Packet n Command} (arises : cluster.Arises packet) {args : RequestVoteArgs n}
    (asked : packet.asked = some args) : cluster.Asks packet.caller args := by
  cases arises with
  | kept member => exact recorded.packets packet member args asked
  | voted reply member body =>
      cases asked
      exact recorded.packets _ member args (by simp [Packet.asked, body])
  | asked incarnation isCandidate request =>
      cases asked
      rw [Raft.eq_of_mem_voteRequests request]
      exact ⟨le_rfl, fun _ _ => rfl⟩
  | appended | installed | replicated | shipped => cases asked

/-- A vote shown after the step was granted in it or before. -/
theorem Recorded.granted (recorded : cluster.Recorded past ballots)
    (inv : cluster.ElectionInv ballots counted) (stepped : cluster.Step event next)
    {voter candidate : Fin n} {term : Nat}
    (voted : (ballots.observe next.view).vote voter term = some candidate)
    (other : voter ≠ candidate) :
    ∃ state taken args, (state, taken) ∈ (cluster, event) :: past ∧ args.term = term ∧
      state.Grants taken voter candidate args ∧ cluster.Asks candidate args := by
  have old : ballots.vote voter term = some candidate →
      ∃ state taken args, (state, taken) ∈ (cluster, event) :: past ∧ args.term = term ∧
        state.Grants taken voter candidate args ∧ cluster.Asks candidate args := by
    intro cast
    obtain ⟨state, taken, args, member, rest⟩ := recorded.votes voter term candidate cast other
    exact ⟨state, taken, args, List.mem_cons_of_mem _ member, rest⟩
  simp only [Ballots.observe] at voted
  split at voted
  · rename_i current
    have kept : (cluster.servers voter).votedFor = some candidate →
        (next.servers voter).currentTerm = (cluster.servers voter).currentTerm →
        ballots.vote voter term = some candidate := by
      intro before sameTerm
      rw [current, ← before, show (next.view voter).currentTerm =
        (cluster.view voter).currentTerm from sameTerm]
      exact inv.voting.tracks.vote_eq voter
    rcases stepped.servers voter with same | ⟨call, handled, runs⟩ | ⟨_, restarted⟩
    · rw [view, same] at voted
      exact old (kept voted (by rw [same]))
    · rcases (Raft.electionStep_handle (inv.voting.selfVoted voter) handled).casts candidate
          voted with ⟨before, sameTerm⟩ | self | ⟨args, rfl, _⟩
      · exact old (kept before sameTerm)
      · rw [inv.voting.me voter] at self
        exact absurd self.symm other
      · obtain ⟨index, packet, isDeliver, found, body, peer⟩ := runs
        have result : next.servers voter = ((cluster.servers voter).requestVote args).1 :=
          (Option.some.inj handled).symm
        rw [view, result] at voted
        rcases Raft.requestVote_grants voted with ⟨before, sameTerm⟩ | ⟨named, nowTerm, granted⟩
        · exact old (kept before (by rw [result, sameTerm]))
        · rw [← result] at nowTerm
          have member := List.mem_of_getElem? found
          have honest := inv.honest.packets packet member
          simp only [Packet.Honest, body] at honest
          have caller : packet.caller = candidate := honest.symm.trans named
          refine ⟨cluster, event, args, List.mem_cons_self, nowTerm.symm.trans current.symm,
            ⟨index, packet, isDeliver, found, body, peer, caller, named, granted⟩, ?_⟩
          rw [← caller]
          exact recorded.packets packet member args (by simp [Packet.asked, body])
    · rw [view, restarted, Raft.make_eq_of_durable (inv.voting.durable voter)] at voted
      exact old (kept voted
        (by rw [restarted, Raft.make_eq_of_durable (inv.voting.durable voter)]))
  · exact old voted

theorem Recorded.step (recorded : cluster.Recorded past ballots)
    (inv : cluster.ElectionInv ballots counted) (stepped : cluster.Step event next) :
    next.Recorded ((cluster, event) :: past) (ballots.observe next.view) where
  packets packet member args asked :=
    (recorded.asks_of_arises (stepped.arises packet member) asked).step inv.voting stepped
  votes voter term candidate voted other := by
    obtain ⟨state, taken, args, member, sameTerm, grants, asks⟩ :=
      recorded.granted inv stepped voted other
    exact ⟨state, taken, args, member, sameTerm, grants, asks.step inv.voting stepped⟩

/-- A history of votes tracks the cluster and is recorded in the run. -/
def Accounted (past : List (Cluster n Command × Event n Command)) (cluster : Cluster n Command) :
    Prop :=
  ∃ ballots counted, cluster.ElectionInv ballots counted ∧ cluster.Recorded past ballots

theorem accounted_of_trace
    (trace : (raftSystem n Command).Trace System.anyStep past cluster) :
    cluster.Accounted past := by
  have start : ∀ state, (raftSystem n Command).init state → state.Accounted [] := by
    rintro _ rfl
    exact ⟨_, _, electionInv_initial, nofun, nofun⟩
  refine trace.preserves start ?_
  rintro past state event next ⟨ballots, counted, inv, recorded⟩ _ stepped
  obtain ⟨counted', inv'⟩ := inv.step (step_cases stepped)
  exact ⟨_, counted', inv', recorded.step inv (step_cases stepped)⟩

end Cluster

/-- Whoever becomes leader has the votes of a majority, each granted in some step of
the run by a server whose log did not end after the leader's. -/
theorem election_restriction {past : List (Cluster n Command × Event n Command)}
    {cluster next : Cluster n Command} {event : Event n Command}
    (trace : (raftSystem n Command).Trace System.anyStep past cluster)
    (stepped : (raftSystem n Command).step cluster event = some next) {leader : Fin n}
    (before : (cluster.servers leader).role ≠ .leader)
    (after : (next.servers leader).role = .leader) :
    ∃ voters : Finset (Fin n), Majority voters ∧ leader ∈ voters ∧
      ∀ voter ∈ voters, voter ≠ leader →
        ∃ state taken args, (state, taken) ∈ (cluster, event) :: past ∧
          args.term = (next.servers leader).currentTerm ∧
          state.Grants taken voter leader args ∧
          ((state.servers voter).log.last.2 < (next.servers leader).log.last.2 ∨
            (state.servers voter).log.last.2 = (next.servers leader).log.last.2 ∧
              (state.servers voter).log.last.1 ≤ (next.servers leader).log.last.1) := by
  obtain ⟨ballots, counted, inv, recorded⟩ := Cluster.accounted_of_trace trace
  have step := Cluster.step_cases stepped
  obtain ⟨counted', inv'⟩ := inv.step step
  have tracks := inv'.voting.tracks
  refine ⟨_, tracks.elected _ leader (tracks.leading leader after), ?_, ?_⟩
  · rw [Ballots.mem_voters]
    refine (tracks.vote_eq leader).trans ?_
    have voted := inv'.voting.selfVoted leader (by rw [after]; decide)
    rwa [inv'.voting.me leader] at voted
  · intro voter member other
    rw [Ballots.mem_voters] at member
    obtain ⟨state, taken, args, passed, sameTerm, grants, _, shows⟩ :=
      recorded.granted inv step member other
    refine ⟨state, taken, args, passed, sameTerm, grants, ?_⟩
    have elected : (cluster.servers leader).role = .candidate ∧
        (next.servers leader).currentTerm = (cluster.servers leader).currentTerm ∧
        (next.servers leader).log = (cluster.servers leader).log := by
      rcases step.servers leader with same | ⟨call, handled, _⟩ | ⟨_, restarted⟩
      · exact absurd (same ▸ after) before
      · exact Raft.log_of_elected (inv.voting.selfVoted leader) handled before after
      · rw [restarted, Raft.make_role] at after
        cases after
    obtain ⟨isCandidate, term, log⟩ := elected
    have last := shows isCandidate (term.symm.trans sameTerm.symm)
    obtain ⟨index, packet, _, _, _, _, _, _, granted⟩ := grants
    rw [log, last]
    exact Raft.last_of_granted granted

/-- Server 1 of three has a granted vote under way. -/
def grantedCluster : Cluster 3 Nat :=
  (raftSystem 3 Nat).after (fun _ _ => true) (Cluster.initial 3 Nat)
    [.electionTimeout 1, .startElection 0, .deliver 0]

theorem election_restriction_granted :
    ∃ next, ∃ past : List (Cluster 3 Nat × Event 3 Nat),
      grantedCluster.step (.deliver 0) = some next ∧ (next.servers 1).role = .leader ∧
      ∃ voters : Finset (Fin 3), Majority voters ∧ 1 ∈ voters ∧
        ∀ voter ∈ voters, voter ≠ 1 →
          ∃ state taken args, (state, taken) ∈ (grantedCluster, .deliver 0) :: past ∧
            args.term = 2 ∧ state.Grants taken voter 1 args ∧
            ((state.servers voter).log.last.2 < (next.servers 1).log.last.2 ∨
              (state.servers voter).log.last.2 = (next.servers 1).log.last.2 ∧
                (state.servers voter).log.last.1 ≤ (next.servers 1).log.last.1) := by
  have reached : (raftSystem 3 Nat).Reachable System.anyStep grantedCluster :=
    ⟨_, rfl, (System.run_after (fun _ _ => true) _ _).mono fun _ _ _ => trivial⟩
  obtain ⟨past, trace⟩ := reached.trace
  have stepped : (raftSystem 3 Nat).step grantedCluster (.deliver 0) = some _ := rfl
  exact ⟨_, past, stepped, rfl, election_restriction trace stepped (by decide) rfl⟩

end MultiRaft
