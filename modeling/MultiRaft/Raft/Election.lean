import MultiRaft.Raft.Persistence
import MultiRaft.Lib.Tally

/-!
# Election safety of the labrpc Raft

The cluster simulates the abstract election of `Lib.Ballots`: the history of
votes is what the servers have shown so far.  The counter of a `startElection`
closure is sound by `Lib.Tally`: each candidate asks each peer once in a term,
by a packet that is in flight at most once, and a peer is counted when its
packet leaves the network.
-/

namespace MultiRaft

variable {n : Nat} {Command : Type}

/-- Candidate, voter and term of a vote asked for. -/
def Packet.voteKey (packet : Packet n Command) : Option (Fin n × Fin n × Nat) :=
  match packet.body with
  | .voteRequest args => some (packet.caller, packet.peer, args.term)
  | .voteReply args _ => some (packet.caller, packet.peer, args.term)
  | _ => none

/-- A vote request names its sender, and a granted reply a vote that was cast. -/
def Packet.Honest (packet : Packet n Command) (ballots : Ballots (Fin n)) : Prop :=
  match packet.body with
  | .voteRequest args => args.candidateId = packet.caller
  | .voteReply args reply =>
      reply.voteGranted = true → ballots.vote packet.peer args.term = some packet.caller
  | _ => True

theorem Packet.Honest.grows {packet : Packet n Command} {old new : Ballots (Fin n)}
    (honest : packet.Honest old) (grows : old.Grows new) : packet.Honest new := by
  unfold Packet.Honest at honest ⊢
  split at honest
  · exact honest
  · exact fun granted => grows.vote_kept _ _ _ (honest granted)
  · trivial

namespace Cluster

def view (cluster : Cluster n Command) (server : Fin n) : ElectionView (Fin n) :=
  (cluster.servers server).view

def voteKeys (cluster : Cluster n Command) : List (Fin n × Fin n × Nat) :=
  cluster.net.filterMap Packet.voteKey

/-- What holds of each server by itself, and the history that tracks them. -/
structure Voting (cluster : Cluster n Command) (ballots : Ballots (Fin n)) : Prop where
  me : ∀ server, (cluster.servers server).me = server
  durable : ∀ server, (cluster.servers server).Durable
  selfVoted : ∀ server, (cluster.servers server).SelfVoted
  tracks : ballots.Tracks cluster.view

/-- The elections opened by `electionTicker` that have not taken the lock yet. -/
def opened (cluster : Cluster n Command) : List (Fin n × Nat) :=
  cluster.elections.map fun pending => (pending.candidate, pending.term)

/-- Every vote asked for is in flight or counted, never twice. -/
def Tallied (cluster : Cluster n Command) (counted : Fin n → Nat → Finset (Fin n)) : Prop :=
  Tally (fun server => (cluster.servers server).currentTerm) cluster.opened cluster.voteKeys
    cluster.votes counted

/-- Counted voters and the packets in flight stand for votes that were cast. -/
structure Honest (cluster : Cluster n Command) (ballots : Ballots (Fin n))
    (counted : Fin n → Nat → Finset (Fin n)) : Prop where
  packets : ∀ packet ∈ cluster.net, packet.Honest ballots
  counted : ∀ candidate voter term, voter ∈ counted candidate term →
    ballots.vote voter term = some candidate

structure ElectionInv (cluster : Cluster n Command) (ballots : Ballots (Fin n))
    (counted : Fin n → Nat → Finset (Fin n)) : Prop where
  voting : cluster.Voting ballots
  tally : cluster.Tallied counted
  honest : cluster.Honest ballots counted

variable {ballots : Ballots (Fin n)} {cluster next : Cluster n Command} {event : Event n Command}

theorem Voting.evolves (voting : cluster.Voting ballots) (stepped : cluster.Step event next)
    (server : Fin n) :
    (cluster.view server).Evolves (next.view server) := by
  rcases stepped.servers server with same | ⟨call, handled, _⟩ | ⟨_, restarted⟩
  · rw [view, view, same]
    exact .refl _
  · exact (Raft.electionStep_handle (voting.selfVoted server) handled).evolves
  · rw [view, view, restarted, Raft.make_eq_of_durable (voting.durable server)]
    exact .inr ⟨rfl, .inr rfl⟩

/-- The history after a step, provided whoever starts to lead has the votes. -/
theorem Voting.observe (voting : cluster.Voting ballots) (stepped : cluster.Step event next)
    (wins : ∀ server, (next.servers server).role = .leader →
      ballots.led (next.servers server).currentTerm server ∨
        Majority ((ballots.observe next.view).voters
          (next.servers server).currentTerm server)) :
    next.Voting (ballots.observe next.view) where
  me server := by
    rcases stepped.servers server with same | ⟨call, handled, _⟩ | ⟨_, restarted⟩
    · rw [same]
      exact voting.me server
    · rw [(Raft.electionStep_handle (voting.selfVoted server) handled).me]
      exact voting.me server
    · rw [restarted, Raft.make_eq_of_durable (voting.durable server)]
  durable server := by
    rcases stepped.servers server with same | ⟨call, handled, _⟩ | ⟨_, restarted⟩
    · rw [same]
      exact voting.durable server
    · exact (voting.durable server).handle handled
    · rw [restarted]
      exact Raft.durable_make (voting.durable server) server
  selfVoted server := by
    rcases stepped.servers server with same | ⟨call, handled, _⟩ | ⟨_, restarted⟩
    · rw [same]
      exact voting.selfVoted server
    · exact (Raft.electionStep_handle (voting.selfVoted server) handled).selfVoted
    · rw [restarted, Raft.make_eq_of_durable (voting.durable server)]
      exact fun active => absurd rfl active
  tracks := voting.tracks.observe (voting.evolves stepped) wins

/-- Whoever leads after a step led before, or just counted the vote that won. -/
theorem Voting.leads (voting : cluster.Voting ballots) (stepped : cluster.Step event next)
    (server : Fin n) (leads : (next.servers server).role = .leader) :
    ballots.led (next.servers server).currentTerm server ∨
    ∃ index packet args reply, event = .deliver index ∧
      cluster.net[index]? = some packet ∧ packet.body = .voteReply args reply ∧
      packet.caller = server ∧ (next.servers server).currentTerm = args.term ∧
      reply.voteGranted = true ∧ n / 2 < cluster.votes server args.term + 1 := by
  have before : (cluster.servers server).role = .leader →
      (next.servers server).currentTerm = (cluster.servers server).currentTerm →
      ballots.led (next.servers server).currentTerm server := by
    intro led sameTerm
    rw [sameTerm]
    exact voting.tracks.leading server led
  rcases stepped.servers server with same | ⟨call, handled, runs⟩ | ⟨_, restarted⟩
  · exact .inl (before (same ▸ leads) (by rw [same]))
  · rcases (Raft.electionStep_handle (voting.selfVoted server) handled).leads leads with
      ⟨led, sameTerm⟩ | ⟨term, votes, reply, rfl, _, _, nowTerm, granted, enough⟩
    · exact .inl (before led sameTerm)
    · rcases runs with ⟨index, packet, args, event, found, body, caller, rfl, rfl⟩
      exact .inr ⟨index, packet, args, reply, event, found, body, caller, nowTerm, granted,
        enough⟩
  · rw [restarted, Raft.make_eq_of_durable (voting.durable server)] at leads
    cases leads

@[simp]
theorem voteKeys_append (cluster : Cluster n Command) (packets : List (Packet n Command)) :
    (cluster.net ++ packets).filterMap Packet.voteKey =
      cluster.voteKeys ++ packets.filterMap Packet.voteKey :=
  List.filterMap_append

theorem voteKeys_replicationPackets (cluster : Cluster n Command) (server : Fin n)
    (requests : List (Fin n × Replicate n Command)) :
    (cluster.replicationPackets server requests).filterMap Packet.voteKey = [] := by
  rw [List.filterMap_eq_nil_iff]
  intro packet member
  rcases List.mem_map.mp member with ⟨⟨peer, request⟩, _, rfl⟩
  cases request <;> rfl

theorem voteKeys_electionPackets (rf : Raft n Command) (pending : PendingElection n) :
    (electionPackets rf pending).filterMap Packet.voteKey =
      ((List.finRange n).filter (· ≠ rf.me)).map fun peer =>
        (pending.candidate, peer, rf.currentTerm) := by
  simp only [electionPackets, Raft.voteRequests, List.map_map, List.filterMap_map]
  rw [← List.filterMap_eq_map]
  rfl

variable {counted : Fin n → Nat → Finset (Fin n)}

/-- The closure of `startElection` starts with the candidate's own vote. -/
theorem ElectionInv.tally_election (inv : cluster.ElectionInv ballots counted) {index : Nat}
    {pending : PendingElection n} (found : cluster.elections[index]? = some pending)
    (sameTerm : (cluster.servers pending.candidate).currentTerm = pending.term) :
    Tallied { cluster with
      elections := cluster.elections.eraseIdx index
      votes := Function.update cluster.votes pending.candidate
        (Function.update (cluster.votes pending.candidate) pending.term 1)
      net := cluster.net ++ electionPackets (cluster.servers pending.candidate) pending }
      (Function.update counted pending.candidate
        (Function.update (counted pending.candidate) pending.term {pending.candidate})) := by
  have open? : cluster.opened[index]? = some (pending.candidate, pending.term) := by
    simp [opened, found]
  have distinct : ((List.finRange n).filter (· ≠ pending.candidate)).Nodup :=
    (List.nodup_finRange n).filter _
  have asked := inv.tally.ask open? distinct (by simp)
  rw [Tallied, opened, voteKeys, voteKeys_append, voteKeys_electionPackets, inv.voting.me,
    sameTerm, ← List.eraseIdx_map]
  exact asked

/-- A granted reply in flight stands for a vote. -/
theorem Honest.voted_voteReply (honest : cluster.Honest ballots counted) {index : Nat}
    {packet : Packet n Command} {args : RequestVoteArgs n} {reply : RequestVoteReply}
    (found : cluster.net[index]? = some packet) (body : packet.body = .voteReply args reply)
    (granted : reply.voteGranted = true) :
    ballots.vote packet.peer args.term = some packet.caller := by
  have holds := honest.packets packet (List.mem_of_getElem? found)
  simp only [Packet.Honest, body] at holds
  exact holds granted

/-- A counted vote leaves the network. -/
theorem ElectionInv.tally_voteReply (inv : cluster.ElectionInv ballots counted) {index : Nat}
    {packet : Packet n Command} {args : RequestVoteArgs n} {reply : RequestVoteReply}
    (found : cluster.net[index]? = some packet) (body : packet.body = .voteReply args reply)
    (terms : ∀ server,
      (cluster.servers server).currentTerm ≤ (next.servers server).currentTerm)
    (elections : next.elections = cluster.elections) (net : next.net = cluster.net.eraseIdx index)
    (votes : next.votes = Function.update cluster.votes packet.caller (Function.update
      (cluster.votes packet.caller) args.term (cluster.votes packet.caller args.term + 1))) :
    next.Tallied (Function.update counted packet.caller (Function.update
      (counted packet.caller) args.term
      (insert packet.peer (counted packet.caller args.term)))) := by
  have key : packet.voteKey = some (packet.caller, packet.peer, args.term) := by
    simp [Packet.voteKey, body]
  have tally := inv.tally.count
    (List.mem_filterMap.mpr ⟨packet, List.mem_of_getElem? found, key⟩)
    (filterMap_eraseIdx_sublist Packet.voteKey cluster.net index)
    (notMem_filterMap_eraseIdx inv.tally.keys_nodup found key)
  rw [Tallied, opened, voteKeys, elections, net, votes]
  exact tally.shrink terms (.refl _) (.refl _)

/-- Whatever a step counts, it counts votes that were cast before it. -/
theorem ElectionInv.tally_step (inv : cluster.ElectionInv ballots counted)
    (stepped : cluster.Step event next) :
    ∃ counted', next.Tallied counted' ∧ ∀ candidate voter term,
      voter ∈ counted' candidate term → ballots.vote voter term = some candidate := by
  have terms : ∀ server,
      (cluster.servers server).currentTerm ≤ (next.servers server).currentTerm :=
    fun server => (inv.voting.evolves stepped server).term_le
  have shrink : next.elections.Sublist cluster.elections →
      next.voteKeys.Sublist cluster.voteKeys → next.votes = cluster.votes →
      ∃ counted', next.Tallied counted' ∧ ∀ candidate voter term,
        voter ∈ counted' candidate term → ballots.vote voter term = some candidate := by
    intro elections keys votes
    refine ⟨counted, ?_, inv.honest.counted⟩
    rw [Tallied, votes]
    exact inv.tally.shrink terms (elections.map _) keys
  cases stepped with
  | timeout server notLeader =>
      refine ⟨counted, ?_, inv.honest.counted⟩
      have fresh : (cluster.servers server).currentTerm <
          (cluster.servers server).becomeCandidateLocked.currentTerm := by
        rw [Raft.becomeCandidateLocked_eq _ notLeader]
        exact Nat.lt_succ_self _
      have tally := inv.tally.openElection server terms (by simpa using fresh)
      simp only [setServer_servers_self] at tally
      rw [Tallied, opened, List.map_append]
      exact tally
  | electionLost index => exact shrink (List.eraseIdx_sublist _ _) (.refl _) rfl
  | election index pending found sameTerm isCandidate =>
      refine ⟨_, inv.tally_election found sameTerm, Tally.cast_update inv.honest.counted ?_⟩
      intro voter self
      have voted := inv.voting.selfVoted pending.candidate (by rw [isCandidate]; decide)
      rw [inv.voting.me] at voted
      rw [Finset.mem_singleton.mp self, ← sameTerm]
      exact (inv.voting.tracks.vote_eq pending.candidate).trans voted
  | voteRequest index packet args found body =>
      refine shrink (.refl _) (filterMap_set_sublist found (.inl ?_)) rfl
      simp [Packet.voteKey, body]
  | appendRequest index packet args rf reply found body handled =>
      refine shrink (.refl _) (filterMap_set_sublist found (.inl ?_)) rfl
      simp [Packet.voteKey, body]
  | snapshotRequest index packet args rf reply found body handled =>
      refine shrink (.refl _) (filterMap_set_sublist found (.inl ?_)) rfl
      simp [Packet.voteKey, body]
  | lateReply index => exact shrink (.refl _) (filterMap_eraseIdx_sublist _ _ _) rfl
  | voteReply index packet args reply found body =>
      rcases (cluster.servers packet.caller).voteReply_cases args.term
          (cluster.votes packet.caller args.term) reply with
        ⟨_, result⟩ | result | ⟨_, _, granted, ⟨_, result⟩ | ⟨_, result⟩⟩
      · refine shrink (.refl _) (filterMap_eraseIdx_sublist _ _ _) ?_
        simp [result]
      · refine shrink (.refl _) (filterMap_eraseIdx_sublist _ _ _) ?_
        simp [result]
      all_goals
        refine ⟨_, inv.tally_voteReply found body terms rfl rfl (by simp [result]),
          Tally.cast_update inv.honest.counted ?_⟩
        intro voter member
        rcases Finset.mem_insert.mp member with rfl | old
        · exact inv.honest.voted_voteReply found body granted
        · exact inv.honest.counted _ _ _ old
  | appendReply | snapshotReply =>
      exact shrink (.refl _) (filterMap_eraseIdx_sublist _ _ _) rfl
  | replicate server term rf requests started =>
      refine shrink (.refl _) ?_ rfl
      rw [voteKeys, voteKeys_append, voteKeys_replicationPackets, List.append_nil]
  | start | snapshot | collect | send | finish | restart => exact shrink (.refl _) (.refl _) rfl

/-- A granted reply is sent by a server that has just voted. -/
theorem honest_voteReply {packet : Packet n Command} {args : RequestVoteArgs n} {index : Nat}
    (candidate : args.candidateId = packet.caller) :
    ({ packet with
        body := .voteReply args ((cluster.servers packet.peer).requestVote args).2 } :
      Packet n Command).Honest (ballots.observe (view { cluster.setServer packet.peer
        ((cluster.servers packet.peer).requestVote args).1 with
          net := cluster.net.set index { packet with
            body := .voteReply args ((cluster.servers packet.peer).requestVote args).2 } })) := by
  intro granted
  rcases (cluster.servers packet.peer).requestVote_cases args with
    ⟨_, _, refused⟩ | ⟨_, _, refused⟩ | ⟨current, _, _, result, _⟩
  · rw [refused] at granted
    cases granted
  · rw [refused] at granted
    cases granted
  · have term := (cluster.servers packet.peer).aligned_currentTerm current
    simp [Ballots.observe, view, Raft.view, result, term, candidate]

theorem ElectionInv.packets_step (inv : cluster.ElectionInv ballots counted)
    (stepped : cluster.Step event next) :
    ∀ packet ∈ next.net, packet.Honest (ballots.observe next.view) := by
  have old : ∀ packet ∈ cluster.net, packet.Honest (ballots.observe next.view) :=
    fun packet member => (inv.honest.packets packet member).grows
      (inv.voting.tracks.grows_observe (inv.voting.evolves stepped))
  intro packet member
  cases stepped with
  | timeout | electionLost | start | snapshot | collect | send | finish | restart =>
      exact old packet member
  | election index pending found sameTerm isCandidate =>
      rcases List.mem_append.mp member with before | new
      · exact old packet before
      · rcases List.mem_map.mp new with ⟨⟨peer, args⟩, asked, rfl⟩
        rcases List.mem_map.mp asked with ⟨_, _, same⟩
        cases same
        exact inv.voting.me pending.candidate
  | voteRequest index asked args found body =>
      rcases List.mem_or_eq_of_mem_set member with before | rfl
      · exact old packet before
      · have honest := inv.honest.packets asked (List.mem_of_getElem? found)
        simp only [Packet.Honest, body] at honest
        exact honest_voteReply honest
  | appendRequest | snapshotRequest =>
      rcases List.mem_or_eq_of_mem_set member with before | rfl
      · exact old packet before
      · trivial
  | lateReply | voteReply | appendReply | snapshotReply =>
      exact old packet (List.mem_of_mem_eraseIdx member)
  | replicate server term rf requests started =>
      rcases List.mem_append.mp member with before | new
      · exact old packet before
      · rcases List.mem_map.mp new with ⟨⟨peer, request⟩, _, rfl⟩
        cases request <;> trivial

/-- Whoever starts to lead was voted for by a majority. -/
theorem ElectionInv.wins (inv : cluster.ElectionInv ballots counted)
    (stepped : cluster.Step event next) (server : Fin n)
    (leads : (next.servers server).role = .leader) :
    ballots.led (next.servers server).currentTerm server ∨
      Majority ((ballots.observe next.view).voters
        (next.servers server).currentTerm server) := by
  rcases inv.voting.leads stepped server leads with
    led | ⟨index, packet, args, reply, _, found, body, rfl, term, granted, enough⟩
  · exact .inl led
  · have grows := inv.voting.tracks.grows_observe (inv.voting.evolves stepped)
    have member := List.mem_of_getElem? found
    have asked : (packet.caller, packet.peer, args.term) ∈ cluster.voteKeys :=
      List.mem_filterMap.mpr ⟨packet, member, by simp [Packet.voteKey, body]⟩
    have voted := inv.honest.voted_voteReply found body granted
    rw [term]
    refine .inr (inv.tally.majority asked (grows.vote_kept _ _ _ voted) ?_ ?_)
    · intro voter counts
      exact grows.vote_kept _ _ _ (inv.honest.counted _ _ _ counts)
    · rw [Fintype.card_fin]
      exact enough

theorem ElectionInv.step (inv : cluster.ElectionInv ballots counted)
    (stepped : cluster.Step event next) :
    ∃ counted', next.ElectionInv (ballots.observe next.view) counted' := by
  rcases inv.tally_step stepped with ⟨counted', tally, cast⟩
  have grows := inv.voting.tracks.grows_observe (inv.voting.evolves stepped)
  refine ⟨counted', inv.voting.observe stepped (inv.wins stepped), tally,
    inv.packets_step stepped, ?_⟩
  intro candidate voter term member
  exact grows.vote_kept _ _ _ (cast candidate voter term member)

theorem electionInv_initial :
    (initial n Command).ElectionInv (Ballots.start (initial n Command).view) (fun _ _ => ∅) where
  voting := by
    refine ⟨fun _ => rfl, fun _ => .inr ⟨rfl, rfl, rfl, rfl⟩, fun _ active => absurd rfl active,
      Ballots.start_tracks _ (fun _ => rfl) ?_⟩
    intro server leads
    cases leads
  tally := Tally.start _
  honest := by
    refine ⟨?_, ?_⟩
    · intro _ member
      cases member
    · intro _ _ _ member
      cases member

/-- The cluster keeps a history of votes that tracks it, and never loses a part
of it. -/
theorem electionInv_run {first last : Cluster n Command}
    {allowed : Cluster n Command → Event n Command → Prop} (inv : first.ElectionInv ballots counted)
    (run : (raftSystem n Command).Run allowed first last) :
    ∃ ballots' counted', last.ElectionInv ballots' counted' ∧ ballots.Grows ballots' := by
  have step : ∀ (cluster : Cluster n Command) (ballots : Ballots (Fin n)) event next,
      (∃ counted, cluster.ElectionInv ballots counted) → allowed cluster event →
      (raftSystem n Command).step cluster event = some next →
      ∃ ballots', (∃ counted, next.ElectionInv ballots' counted) ∧ ballots.Grows ballots' := by
    rintro cluster ballots event next ⟨counted, inv⟩ _ stepped
    exact ⟨_, inv.step (step_cases stepped),
      inv.voting.tracks.grows_observe (inv.voting.evolves (step_cases stepped))⟩
  rcases run.simulates _ Ballots.Grows.refl (fun _ _ _ => Ballots.Grows.trans) step
    ⟨counted, inv⟩ with ⟨ballots', ⟨counted', related⟩, grows⟩
  exact ⟨ballots', counted', related, grows⟩

theorem voting_of_reachable {allowed : Cluster n Command → Event n Command → Prop}
    (reached : (raftSystem n Command).Reachable allowed cluster) :
    ∃ ballots, cluster.Voting ballots := by
  obtain ⟨_, rfl, run⟩ := reached
  obtain ⟨ballots, counted, inv, _⟩ := electionInv_run electionInv_initial run
  exact ⟨ballots, inv.voting⟩

end Cluster

/-- Two leaders of one term, at any two times of a run, are the same server. -/
theorem election_safety {n : Nat} {Command : Type} {earlier later : Cluster n Command}
    (reached : (raftSystem n Command).Reachable System.anyStep earlier)
    (run : (raftSystem n Command).Run System.anyStep earlier later)
    (first second : Fin n)
    (firstLeads : (earlier.servers first).role = .leader)
    (secondLeads : (later.servers second).role = .leader)
    (sameTerm : (earlier.servers first).currentTerm = (later.servers second).currentTerm) :
    first = second := by
  rcases reached with ⟨_, rfl, front⟩
  rcases Cluster.electionInv_run Cluster.electionInv_initial front with
    ⟨ballots, counted, inv, _⟩
  rcases Cluster.electionInv_run inv run with ⟨ballots', counted', inv', grows⟩
  exact inv.voting.tracks.leader_unique inv'.voting.tracks grows firstLeads secondLeads sameTerm

/-- Server 1 of three, right after it was elected and after it took a command. -/
def electedCluster : Cluster 3 Nat :=
  (raftSystem 3 Nat).after (fun _ _ => true) (Cluster.initial 3 Nat)
    [.electionTimeout 1, .startElection 0, .deliver 0, .deliver 0]

def startedCluster : Cluster 3 Nat :=
  (raftSystem 3 Nat).after (fun _ _ => true) electedCluster [.start 1 (some 7)]

theorem election_safety_started :
    (electedCluster.servers 1).role = .leader ∧ (electedCluster.servers 1).currentTerm = 2 ∧
      (startedCluster.servers 1).log.size = 2 ∧ (1 : Fin 3) = 1 :=
  ⟨rfl, rfl, rfl, election_safety
    ⟨_, rfl, (System.run_after (fun _ _ => true) _ _).mono fun _ _ _ => trivial⟩
    ((System.run_after (fun _ _ => true) electedCluster _).mono fun _ _ _ => trivial)
    1 1 rfl (show (startedCluster.servers 1).role = .leader from rfl) rfl⟩

end MultiRaft
