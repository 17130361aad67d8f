import MultiRaft.Raft.Cluster
import MultiRaft.Raft.Sections

/-!
# What one step of the cluster can do

The cases of `Cluster.step`, one for each critical section and one for each
way a goroutine can find itself out of date.
-/

namespace MultiRaft.Cluster

variable {n : Nat} {Command : Type}

/-- The packets of one round of `startReplication`. -/
def replicationPackets (cluster : Cluster n Command) (server : Fin n)
    (requests : List (Fin n × Replicate n Command)) : List (Packet n Command) :=
  requests.map fun request =>
    { caller := server, incarnation := cluster.incarnation server, peer := request.1,
      body := match request.2 with
        | .append args => .appendRequest args
        | .snapshot args => .snapshotRequest args }

/-- The packets of one `startElection`. -/
def electionPackets (rf : Raft n Command) (pending : PendingElection n) :
    List (Packet n Command) :=
  rf.voteRequests.map fun request =>
    { caller := pending.candidate, incarnation := pending.incarnation,
      peer := request.1, body := .voteRequest request.2 }

inductive Step (cluster : Cluster n Command) :
    Event n Command → Cluster n Command → Prop
  | timeout (server : Fin n) (notLeader : (cluster.servers server).role ≠ .leader) :
      Step cluster (.electionTimeout server)
        { cluster.setServer server (cluster.servers server).becomeCandidateLocked with
          elections := cluster.elections ++
            [{ candidate := server, incarnation := cluster.incarnation server,
               term := (cluster.servers server).becomeCandidateLocked.currentTerm }] }
  | electionLost (index : Nat) :
      Step cluster (.startElection index)
        { cluster with elections := cluster.elections.eraseIdx index }
  | election (index : Nat) (pending : PendingElection n)
      (found : cluster.elections[index]? = some pending)
      (sameTerm : (cluster.servers pending.candidate).currentTerm = pending.term)
      (isCandidate : (cluster.servers pending.candidate).role = .candidate) :
      Step cluster (.startElection index)
        { cluster with
          elections := cluster.elections.eraseIdx index
          votes := Function.update cluster.votes pending.candidate
            (Function.update (cluster.votes pending.candidate) pending.term 1)
          net := cluster.net ++
            electionPackets (cluster.servers pending.candidate) pending }
  | voteRequest (index : Nat) (packet : Packet n Command) (args : RequestVoteArgs n)
      (found : cluster.net[index]? = some packet) (body : packet.body = .voteRequest args) :
      Step cluster (.deliver index)
        { cluster.setServer packet.peer ((cluster.servers packet.peer).requestVote args).1 with
          net := cluster.net.set index { packet with
            body := .voteReply args ((cluster.servers packet.peer).requestVote args).2 } }
  | appendRequest (index : Nat) (packet : Packet n Command)
      (args : AppendEntriesArgs n Command) (rf : Raft n Command) (reply : AppendEntriesReply)
      (found : cluster.net[index]? = some packet) (body : packet.body = .appendRequest args)
      (handled : (cluster.servers packet.peer).appendEntries args = some (rf, reply)) :
      Step cluster (.deliver index)
        { cluster.setServer packet.peer rf with
          net := cluster.net.set index { packet with body := .appendReply args reply } }
  | snapshotRequest (index : Nat) (packet : Packet n Command) (args : InstallSnapshotArgs n)
      (rf : Raft n Command) (reply : InstallSnapshotReply)
      (found : cluster.net[index]? = some packet) (body : packet.body = .snapshotRequest args)
      (handled : (cluster.servers packet.peer).installSnapshot args = some (rf, reply)) :
      Step cluster (.deliver index)
        { cluster.setServer packet.peer rf with
          net := cluster.net.set index { packet with body := .snapshotReply args reply } }
  | lateReply (index : Nat) :
      Step cluster (.deliver index) { cluster with net := cluster.net.eraseIdx index }
  | voteReply (index : Nat) (packet : Packet n Command) (args : RequestVoteArgs n)
      (reply : RequestVoteReply)
      (found : cluster.net[index]? = some packet) (body : packet.body = .voteReply args reply) :
      Step cluster (.deliver index)
        { cluster.setServer packet.caller
            ((cluster.servers packet.caller).voteReply args.term
              (cluster.votes packet.caller args.term) reply).1 with
          net := cluster.net.eraseIdx index
          votes := Function.update cluster.votes packet.caller
            (Function.update (cluster.votes packet.caller) args.term
              ((cluster.servers packet.caller).voteReply args.term
                (cluster.votes packet.caller args.term) reply).2) }
  | appendReply (index : Nat) (packet : Packet n Command)
      (args : AppendEntriesArgs n Command) (reply : AppendEntriesReply) (rf : Raft n Command)
      (found : cluster.net[index]? = some packet) (body : packet.body = .appendReply args reply)
      (handled : (cluster.servers packet.caller).appendReply packet.peer args reply = some rf) :
      Step cluster (.deliver index)
        { cluster.setServer packet.caller rf with net := cluster.net.eraseIdx index }
  | snapshotReply (index : Nat) (packet : Packet n Command) (args : InstallSnapshotArgs n)
      (reply : InstallSnapshotReply)
      (found : cluster.net[index]? = some packet)
      (body : packet.body = .snapshotReply args reply) :
      Step cluster (.deliver index)
        { cluster.setServer packet.caller
            ((cluster.servers packet.caller).installReply packet.peer args reply) with
          net := cluster.net.eraseIdx index }
  | replicate (server : Fin n) (term : Nat) (rf : Raft n Command)
      (requests : List (Fin n × Replicate n Command))
      (started : (cluster.servers server).startReplication term = some (rf, requests)) :
      Step cluster (.startReplication server term)
        { cluster.setServer server rf with
          net := cluster.net ++ cluster.replicationPackets server requests }
  | start (server : Fin n) (command : Option Command) :
      Step cluster (.start server command)
        (cluster.setServer server ((cluster.servers server).start command).1)
  | snapshot (server : Fin n) (index : Nat) (bytes : Bytes) (rf : Raft n Command)
      (taken : (cluster.servers server).snapshot index bytes = some rf) :
      Step cluster (.snapshot server index bytes) (cluster.setServer server rf)
  | collect (server : Fin n) (rf : Raft n Command)
      (collected : (cluster.servers server).collect = some rf) :
      Step cluster (.collect server) (cluster.setServer server rf)
  | send (server : Fin n) (rf : Raft n Command) (msg : ApplyMsg Command)
      (sent : (cluster.servers server).send = some (rf, msg)) :
      Step cluster (.send server)
        { cluster.setServer server rf with
          delivered := cluster.delivered ++ [(server, msg)] }
  | finish (server : Fin n) (rf : Raft n Command)
      (finished : (cluster.servers server).finish = some rf) :
      Step cluster (.finish server) (cluster.setServer server rf)
  | restart (server : Fin n) : Step cluster (.restart server) (cluster.restart server)

variable {cluster next : Cluster n Command}

theorem onReply_cases {index : Nat} {packet : Packet n Command}
    {run : Cluster n Command → Option (Cluster n Command)}
    (replied : cluster.onReply index packet run = some next) :
    next = { cluster with net := cluster.net.eraseIdx index } ∨
      run { cluster with net := cluster.net.eraseIdx index } = some next := by
  simp only [onReply] at replied
  split at replied
  · cases replied
    exact .inl rfl
  · exact .inr replied

theorem deliver_step {index : Nat} (delivered : cluster.deliver index = some next) :
    cluster.Step (.deliver index) next := by
  rcases Option.bind_eq_some_iff.mp delivered with ⟨packet, found, rest⟩
  dsimp only at rest
  split at rest
  · rename_i args body
    cases rest
    exact .voteRequest index packet args found body
  · rename_i args body
    rcases Option.bind_eq_some_iff.mp rest with ⟨⟨rf, reply⟩, handled, result⟩
    cases result
    exact .appendRequest index packet args rf reply found body handled
  · rename_i args body
    rcases Option.bind_eq_some_iff.mp rest with ⟨⟨rf, reply⟩, handled, result⟩
    cases result
    exact .snapshotRequest index packet args rf reply found body handled
  · rename_i args reply body
    rcases onReply_cases rest with rfl | ran
    · exact .lateReply index
    · cases ran
      exact .voteReply index packet args reply found body
  · rename_i args reply body
    rcases onReply_cases rest with rfl | ran
    · exact .lateReply index
    · rcases Option.bind_eq_some_iff.mp ran with ⟨rf, handled, result⟩
      cases result
      exact .appendReply index packet args reply rf found body handled
  · rename_i args reply body
    rcases onReply_cases rest with rfl | ran
    · exact .lateReply index
    · cases ran
      exact .snapshotReply index packet args reply found body

theorem startElection_step {index : Nat} (started : cluster.startElection index = some next) :
    cluster.Step (.startElection index) next := by
  rcases Option.bind_eq_some_iff.mp started with ⟨pending, found, rest⟩
  dsimp only at rest
  split at rest
  · cases rest
    exact .electionLost index
  split at rest
  · cases rest
    exact .electionLost index
  · rename_i kept
    rw [Bool.not_eq_true] at kept
    rcases Raft.contextLostLocked_eq_false.mp kept with ⟨sameTerm, isCandidate⟩
    cases rest
    exact .election index pending found sameTerm isCandidate

variable {event : Event n Command}

theorem step_cases (stepped : cluster.step event = some next) : cluster.Step event next := by
  cases event with
  | electionTimeout server =>
      simp only [step, electionTimeout] at stepped
      split at stepped
      · cases stepped
      · rename_i notLeader
        cases stepped
        exact .timeout server notLeader
  | startElection index => exact startElection_step stepped
  | deliver index => exact deliver_step stepped
  | startReplication server term =>
      rcases Option.bind_eq_some_iff.mp stepped with ⟨⟨rf, requests⟩, started, result⟩
      cases result
      exact .replicate server term rf requests started
  | start server command =>
      cases stepped
      exact .start server command
  | snapshot server index bytes =>
      rcases Option.map_eq_some_iff.mp stepped with ⟨rf, taken, rfl⟩
      exact .snapshot server index bytes rf taken
  | collect server =>
      rcases Option.map_eq_some_iff.mp stepped with ⟨rf, collected, rfl⟩
      exact .collect server rf collected
  | send server =>
      rcases Option.bind_eq_some_iff.mp stepped with ⟨⟨rf, msg⟩, sent, result⟩
      cases result
      exact .send server rf msg sent
  | finish server =>
      rcases Option.map_eq_some_iff.mp stepped with ⟨rf, finished, rfl⟩
      exact .finish server rf finished
  | restart server =>
      cases stepped
      exact .restart server

/-- How a server comes to run a section: it is asked for a vote by a packet, and
counts a vote only when its reply is delivered, with the counter of that
election. -/
def Runs (cluster : Cluster n Command) (event : Event n Command) (server : Fin n) :
    Call n Command → Prop
  | .requestVote args => ∃ index packet, event = .deliver index ∧
      cluster.net[index]? = some packet ∧ packet.body = .voteRequest args ∧
      packet.peer = server
  | .voteReply term votes reply => ∃ index packet args, event = .deliver index ∧
      cluster.net[index]? = some packet ∧ packet.body = .voteReply args reply ∧
      packet.caller = server ∧ args.term = term ∧ votes = cluster.votes server term
  | _ => True

/-- A section that handles a request or the reply to one got it from the network. -/
def Receives (cluster : Cluster n Command) (event : Event n Command) (server : Fin n) :
    Call n Command → Prop
  | .appendEntries args => ∃ index packet, event = .deliver index ∧
      cluster.net[index]? = some packet ∧ packet.body = .appendRequest args ∧
      packet.peer = server
  | .installSnapshot args => ∃ index packet, event = .deliver index ∧
      cluster.net[index]? = some packet ∧ packet.body = .snapshotRequest args ∧
      packet.peer = server
  | .appendReply peer args reply => ∃ packet ∈ cluster.net,
      packet.body = .appendReply args reply ∧ packet.caller = server ∧ packet.peer = peer
  | .installReply peer args reply => ∃ packet ∈ cluster.net,
      packet.body = .snapshotReply args reply ∧ packet.caller = server ∧ packet.peer = peer
  | _ => True

/-- Only one server moves, and it moves by one of its critical sections. -/
theorem setServer_moves {server : Fin n} {rf : Raft n Command} (call : Call n Command)
    (moved : next.servers = (cluster.setServer server rf).servers)
    (handled : (cluster.servers server).handle call = some rf)
    (runs : cluster.Runs event server call) (receives : cluster.Receives event server call)
    (other : Fin n) :
    next.servers other = cluster.servers other ∨
      ∃ call, (cluster.servers other).handle call = some (next.servers other) ∧
        cluster.Runs event other call ∧ cluster.Receives event other call := by
  rw [moved]
  by_cases same : other = server
  · subst same
    exact .inr ⟨call, by rw [setServer_servers_self, handled], runs, receives⟩
  · exact .inl (setServer_servers_of_ne cluster rf same)

/-- Every server stays as it is, runs one critical section, or restarts. -/
theorem Step.moves (stepped : cluster.Step event next) (server : Fin n) :
    next.servers server = cluster.servers server ∨
    (∃ call, (cluster.servers server).handle call = some (next.servers server) ∧
      cluster.Runs event server call ∧ cluster.Receives event server call) ∨
    (event = .restart server ∧
      next.servers server = Raft.make server (cluster.servers server).persister) := by
  rw [← or_assoc]
  cases stepped with
  | timeout mover notLeader =>
      exact .inl (setServer_moves .electionTimeout rfl
        (by simp [Raft.handle, notLeader]) trivial trivial server)
  | electionLost | election | lateReply => exact .inl (.inl rfl)
  | voteRequest index packet args found body =>
      exact .inl (setServer_moves (.requestVote args) rfl rfl
        ⟨index, packet, rfl, found, body, rfl⟩ trivial server)
  | appendRequest index packet args rf reply found body handled =>
      exact .inl (setServer_moves (.appendEntries args) rfl
        (by simp [Raft.handle, handled]) trivial ⟨index, packet, rfl, found, body, rfl⟩ server)
  | snapshotRequest index packet args rf reply found body handled =>
      exact .inl (setServer_moves (.installSnapshot args) rfl
        (by simp [Raft.handle, handled]) trivial ⟨index, packet, rfl, found, body, rfl⟩ server)
  | voteReply index packet args reply found body =>
      exact .inl (setServer_moves (.voteReply args.term
        (cluster.votes packet.caller args.term) reply) rfl rfl
        ⟨index, packet, args, rfl, found, body, rfl, rfl, rfl⟩ trivial server)
  | appendReply _ packet args reply rf found body handled =>
      exact .inl (setServer_moves (.appendReply packet.peer args reply) rfl handled trivial
        ⟨packet, List.mem_of_getElem? found, body, rfl, rfl⟩ server)
  | snapshotReply _ packet args reply found body =>
      exact .inl (setServer_moves (.installReply packet.peer args reply) rfl rfl trivial
        ⟨packet, List.mem_of_getElem? found, body, rfl, rfl⟩ server)
  | replicate mover term rf requests started =>
      exact .inl (setServer_moves (.startReplication term) rfl
        (by simp [Raft.handle, started]) trivial trivial server)
  | start mover command =>
      exact .inl (setServer_moves (.start command) rfl rfl trivial trivial server)
  | snapshot mover index bytes rf taken =>
      exact .inl (setServer_moves (.snapshot index bytes) rfl taken trivial trivial server)
  | collect mover rf collected =>
      exact .inl (setServer_moves .collect rfl collected trivial trivial server)
  | send mover rf msg sent =>
      exact .inl (setServer_moves .send rfl (by simp [Raft.handle, sent])
        trivial trivial server)
  | finish mover rf finished =>
      exact .inl (setServer_moves .finish rfl finished trivial trivial server)
  | restart mover =>
      by_cases same : server = mover
      · subst same
        exact .inr ⟨rfl, by simp [Cluster.restart]⟩
      · exact .inl (.inl (setServer_servers_of_ne cluster _ same))

theorem Step.servers (stepped : cluster.Step event next) (server : Fin n) :
    next.servers server = cluster.servers server ∨
    (∃ call, (cluster.servers server).handle call = some (next.servers server) ∧
      cluster.Runs event server call) ∨
    (event = .restart server ∧
      next.servers server = Raft.make server (cluster.servers server).persister) := by
  rcases stepped.moves server with same | ⟨call, handled, runs, _⟩ | restarted
  · exact .inl same
  · exact .inr (.inl ⟨call, handled, runs⟩)
  · exact .inr (.inr restarted)

/-- Where a packet of the next state comes from: it was there, it answers one that
was there, or a candidate or leader sends it. -/
inductive Arises (cluster : Cluster n Command) : Packet n Command → Prop
  | kept {packet : Packet n Command} (member : packet ∈ cluster.net) : Arises cluster packet
  | voted {packet : Packet n Command} {args : RequestVoteArgs n} (reply : RequestVoteReply)
      (member : packet ∈ cluster.net) (body : packet.body = .voteRequest args) :
      Arises cluster { packet with body := .voteReply args reply }
  | appended {packet : Packet n Command} {args : AppendEntriesArgs n Command}
      (reply : AppendEntriesReply) (member : packet ∈ cluster.net)
      (body : packet.body = .appendRequest args) :
      Arises cluster { packet with body := .appendReply args reply }
  | installed {packet : Packet n Command} {args : InstallSnapshotArgs n}
      (reply : InstallSnapshotReply) (member : packet ∈ cluster.net)
      (body : packet.body = .snapshotRequest args) :
      Arises cluster { packet with body := .snapshotReply args reply }
  | asked {candidate peer : Fin n} (incarnation : Nat) {args : RequestVoteArgs n}
      (isCandidate : (cluster.servers candidate).role = .candidate)
      (request : (peer, args) ∈ (cluster.servers candidate).voteRequests) :
      Arises cluster { caller := candidate, incarnation, peer, body := .voteRequest args }
  | replicated {leader peer : Fin n} (incarnation : Nat) {args : AppendEntriesArgs n Command}
      (leads : (cluster.servers leader).role = .leader)
      (request : (cluster.servers leader).replicate peer = some (.append args)) :
      Arises cluster { caller := leader, incarnation, peer, body := .appendRequest args }
  | shipped {leader peer : Fin n} (incarnation : Nat) {args : InstallSnapshotArgs n}
      (leads : (cluster.servers leader).role = .leader)
      (request : (cluster.servers leader).replicate peer = some (.snapshot args)) :
      Arises cluster { caller := leader, incarnation, peer, body := .snapshotRequest args }

theorem Step.arises (stepped : cluster.Step event next) :
    ∀ packet ∈ next.net, cluster.Arises packet := by
  intro packet member
  cases stepped with
  | timeout | electionLost | start | snapshot | collect | send | finish | restart =>
      exact .kept member
  | lateReply | voteReply | appendReply | snapshotReply =>
      exact .kept (List.mem_of_mem_eraseIdx member)
  | election _ pending _ _ isCandidate =>
      rcases List.mem_append.mp member with old | new
      · exact .kept old
      · obtain ⟨⟨peer, args⟩, request, rfl⟩ := List.mem_map.mp new
        exact .asked _ isCandidate request
  | voteRequest _ _ _ found body =>
      rcases List.mem_or_eq_of_mem_set member with old | rfl
      · exact .kept old
      · exact .voted _ (List.mem_of_getElem? found) body
  | appendRequest _ _ _ _ _ found body =>
      rcases List.mem_or_eq_of_mem_set member with old | rfl
      · exact .kept old
      · exact .appended _ (List.mem_of_getElem? found) body
  | snapshotRequest _ _ _ _ _ found body =>
      rcases List.mem_or_eq_of_mem_set member with old | rfl
      · exact .kept old
      · exact .installed _ (List.mem_of_getElem? found) body
  | replicate server term rf requests started =>
      rcases List.mem_append.mp member with old | new
      · exact .kept old
      · obtain ⟨⟨peer, request⟩, asked, rfl⟩ := List.mem_map.mp new
        rcases Raft.startReplication_cases started with ⟨_, rfl⟩ | ⟨_, leads, _, made⟩
        · cases asked
        · have replicated := (made peer request asked).2
          cases request with
          | append args => exact .replicated _ leads replicated
          | snapshot args => exact .shipped _ leads replicated

end MultiRaft.Cluster
