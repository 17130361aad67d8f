import MultiRaft.Raft.LogAccess

/-!
# The order in which a leader handles its replies

Requests to one peer overtake each other, and so do their replies.  A server is
followed here with every request it has sent, so that a reply can be told from that
to a later request.  `AppendEntries` replies move the tables of a leader forth and
back; they only move them forth if none comes after the reply to a later request.
-/

namespace MultiRaft

variable {n : Nat} {Command : Type}

/-- The term that a request is sent in. -/
def Replicate.term : Replicate n Command → Nat
  | .append args => args.term
  | .snapshot args => args.term

/-- The index that the request lets its sender count if it succeeds. -/
def Replicate.reach : Replicate n Command → Nat
  | .append args => args.prevLogIndex + args.entries.length
  | .snapshot args => args.lastIncludedIndex

namespace Raft

/-- What a section that leaves a leader does to the two indices it keeps of a peer. -/
inductive TableStep (rf next : Raft n Command) (peer : Fin n) : Call n Command → Prop
  | kept {call : Call n Command} (leads : rf.role = .leader)
      (matchIndex : next.matchIndex peer = rf.matchIndex peer)
      (nextIndex : next.nextIndex peer = rf.nextIndex peer) : TableStep rf next peer call
  | reset {call : Call n Command} (candidate : rf.role = .candidate)
      (matchIndex : next.matchIndex peer = 0) (nextIndex : next.nextIndex peer = rf.log.size) :
      TableStep rf next peer call
  | probed {args : AppendEntriesArgs n Command} {reply : AppendEntriesReply}
      (leads : rf.role = .leader) (sameTerm : rf.currentTerm = args.term)
      (current : reply.term ≤ rf.currentTerm) (failed : reply.success = false)
      (matchIndex : next.matchIndex peer = rf.matchIndex peer)
      (nextIndex : next.nextIndex peer = rf.nextProbe peer reply) :
      TableStep rf next peer (.appendReply peer args reply)
  | counted {args : AppendEntriesArgs n Command} {reply : AppendEntriesReply}
      (leads : rf.role = .leader) (sameTerm : rf.currentTerm = args.term)
      (matchIndex : next.matchIndex peer = args.prevLogIndex + args.entries.length)
      (nextIndex : next.nextIndex peer = args.prevLogIndex + args.entries.length + 1) :
      TableStep rf next peer (.appendReply peer args reply)
  | shipped {args : InstallSnapshotArgs n} {reply : InstallSnapshotReply}
      (leads : rf.role = .leader) (sameTerm : rf.currentTerm = args.term)
      (newer : rf.matchIndex peer < args.lastIncludedIndex)
      (matchIndex : next.matchIndex peer = args.lastIncludedIndex)
      (nextIndex : next.nextIndex peer = args.lastIncludedIndex + 1) :
      TableStep rf next peer (.installReply peer args reply)

theorem tableStep_appendReply {rf next : Raft n Command} {peer target : Fin n}
    {args : AppendEntriesArgs n Command} {reply : AppendEntriesReply}
    (handled : rf.appendReply target args reply = some next) (leads : next.role = .leader) :
    TableStep rf next peer (.appendReply target args reply) := by
  have current : reply.term ≤ rf.currentTerm := by
    by_contra later
    rw [appendReply, if_pos (not_le.mp later)] at handled
    cases handled
    rw [rf.becomeFollowerLocked_role (not_le.mp later).le] at leads
    cases leads
  by_cases same : peer = target
  · subst same
    rcases appendReply_cases handled with
      ⟨later, _⟩ | rfl | ⟨sameTerm, led, failed, rfl⟩ |
        ⟨sameTerm, led, _, majority, _, rfl | ⟨_, _, _, _, rfl⟩⟩
    · exact absurd later (not_lt.mpr current)
    · exact .kept leads rfl rfl
    · exact .probed led sameTerm current failed rfl (Function.update_self ..)
    · exact .counted led sameTerm (Function.update_self ..) (Function.update_self ..)
    · exact .counted led sameTerm (Function.update_self ..) (Function.update_self ..)
  · rcases appendReply_cases handled with
      ⟨later, _⟩ | rfl | ⟨_, led, _, rfl⟩ | ⟨_, led, _, majority, _, rfl | ⟨_, _, _, _, rfl⟩⟩
    · exact absurd later (not_lt.mpr current)
    · exact .kept leads rfl rfl
    · exact .kept led rfl (Function.update_of_ne same ..)
    · exact .kept led (Function.update_of_ne same ..) (Function.update_of_ne same ..)
    · exact .kept led (Function.update_of_ne same ..) (Function.update_of_ne same ..)

/-- A snapshot that the peer is known to have changes nothing. -/
theorem tableStep_installReply {rf next : Raft n Command} {peer target : Fin n}
    {args : InstallSnapshotArgs n} {reply : InstallSnapshotReply}
    (handled : rf.installReply target args reply = next) (leads : next.role = .leader) :
    TableStep rf next peer (.installReply target args reply) := by
  unfold installReply at handled
  split at handled
  · rename_i later
    rw [← handled, rf.becomeFollowerLocked_role later.le] at leads
    cases leads
  split at handled
  · subst handled
    exact .kept leads rfl rfl
  rename_i context
  obtain ⟨sameTerm, led⟩ := contextLostLocked_eq_false.mp (Bool.not_eq_true _ ▸ context)
  split at handled
  · rename_i newer
    subst handled
    by_cases same : peer = target
    · subst same
      exact .shipped led sameTerm newer (Function.update_self ..) (Function.update_self ..)
    · exact .kept led (Function.update_of_ne same ..) (Function.update_of_ne same ..)
  · subst handled
    exact .kept leads rfl rfl

/-- The own entry of the tables is left out: `startReplication` keeps it. -/
theorem tableStep_handle {rf next : Raft n Command} {call : Call n Command} {peer : Fin n}
    (handled : rf.handle call = some next) (leads : next.role = .leader) (other : peer ≠ rf.me) :
    TableStep rf next peer call := by
  cases handle_outcome handled with
  | stay => exact .kept leads rfl rfl
  | follow _ term current => exact nomatch leads.symm.trans (rf.becomeFollowerLocked_role current)
  | adopt args prev log current =>
      exact nomatch leads.symm.trans (rf.becomeFollowerLocked_role current)
  | install args log current =>
      exact nomatch leads.symm.trans (rf.becomeFollowerLocked_role current)
  | stand => cases leads
  | vote args current =>
      rcases rf.aligned_cases current with ⟨_, result⟩ | ⟨_, result⟩
      · rw [result] at leads ⊢
        exact .kept leads rfl rfl
      · rw [result] at leads
        cases leads
  | win term votes reply sameTerm candidate => exact .reset candidate rfl rfl
  | replicate term sameTerm led =>
      exact .kept led (Function.update_of_ne other ..) (Function.update_of_ne other ..)
  | probe | count | commit => exact tableStep_appendReply handled leads
  | ship => exact tableStep_installReply (Option.some.inj handled) leads
  | start | compact | awaitSnapshot | collect | sendEntry | sendSnapshot | bookEntries
  | bookSnapshot => exact .kept leads rfl rfl

/-- What a round of replication sends: requests of the current term that reach no
further than the log, and up to its end if they carry entries. -/
theorem reach_of_replicate {rf : Raft n Command} {peer : Fin n} {request : Replicate n Command}
    (headed : rf.log.Headed) (made : rf.replicate peer = some request) :
    request.term = rf.currentTerm ∧ request.reach < rf.log.size ∧
      ∀ args, request = .append args → request.reach + 1 = rf.log.size := by
  rcases replicate_cases made with rfl | ⟨prevIdx, prev, entries, found, read, rfl⟩
  · exact ⟨rfl, headed.snapLastIdx_lt, nofun⟩
  · have full := RaftLog.length_of_tail found read
    exact ⟨rfl, Nat.lt_of_succ_le full.le, fun _ _ => full⟩

end Raft

/-- `sent` lists every request, the oldest first, and `answered` tells for a peer how
many of them are not later than the latest one whose reply was handled. -/
structure Sender (n : Nat) (Command : Type) where
  server : Raft n Command
  sent : List (Fin n × Replicate n Command)
  answered : Fin n → Nat

/-- What a peer may send back. -/
inductive Answer where
  | append (reply : AppendEntriesReply)
  | snapshot (reply : InstallSnapshotReply)

/-- A section that neither sends nor handles replies, a round of `startReplication`, the
reply to the request with a number, or a restart. -/
inductive Act (n : Nat) (Command : Type) where
  | call (call : Call n Command)
  | replicate (term : Nat)
  | answer (number : Nat) (answer : Answer)
  | restart

/-- The section that handles a reply to the request. -/
def Replicate.replyCall (peer : Fin n) : Replicate n Command → Answer → Option (Call n Command)
  | .append args, .append reply => some (.appendReply peer args reply)
  | .snapshot args, .snapshot reply => some (.installReply peer args reply)
  | _, _ => none

def Call.replicates : Call n Command → Bool
  | .startReplication _ => true
  | .appendReply _ _ _ => true
  | .installReply _ _ _ => true
  | _ => false

namespace Sender

def step (sender : Sender n Command) : Act n Command → Option (Sender n Command)
  | .call call =>
      if call.replicates then none
      else (sender.server.handle call).map fun server => { sender with server }
  | .replicate term => do
      let (server, requests) ← sender.server.startReplication term
      return { sender with server, sent := sender.sent ++ requests }
  | .answer number answer => do
      let (peer, request) ← sender.sent[number]?
      let call ← request.replyCall peer answer
      let server ← sender.server.handle call
      return { sender with
        server
        answered := Function.update sender.answered peer
          (max (sender.answered peer) (number + 1)) }
  | .restart =>
      some { sender with
        server := Raft.make sender.server.me sender.server.persister }

/-- A rejection that a leader handles: it names an index, and nothing is known yet of
what the peer has. -/
def probesOnly (sender : Sender n Command) (peer : Fin n) : Answer → Bool
  | .append reply =>
      reply.success || decide (sender.server.currentTerm < reply.term) ||
        (decide (sender.server.matchIndex peer = 0) && decide (0 < reply.conflictIndex))
  | .snapshot _ => true

/-- No reply to a request of the current leadership is handled after the reply to a
later request to the same peer, and rejections come before the first success. -/
def inOrder (sender : Sender n Command) : Act n Command → Bool
  | .answer number answer =>
      match sender.sent[number]? with
      | none => true
      | some (peer, request) =>
          sender.server.contextLostLocked .leader request.term ||
            (decide (sender.answered peer ≤ number) && sender.probesOnly peer answer)
  | _ => true

end Sender

/-- One server of a cluster, from its first start on, in any environment. -/
def senderSystem (n : Nat) (Command : Type) : System (Sender n Command) (Act n Command) where
  init sender := ∃ me, sender =
    { server := Raft.make me (makePersister n Command), sent := [], answered := fun _ => 0 }
  step := Sender.step

namespace Sender

variable {sender next : Sender n Command} {act : Act n Command}

/-- The cases of `step`. -/
inductive Move (sender : Sender n Command) : Act n Command → Sender n Command → Prop
  | call (call : Call n Command) (server : Raft n Command) (internal : call.replicates = false)
      (handled : sender.server.handle call = some server) :
      Move sender (.call call) { sender with server }
  | replicate (term : Nat) (server : Raft n Command)
      (requests : List (Fin n × Replicate n Command))
      (started : sender.server.startReplication term = some (server, requests)) :
      Move sender (.replicate term) { sender with server, sent := sender.sent ++ requests }
  | answer (number : Nat) (answer : Answer) (peer : Fin n) (request : Replicate n Command)
      (call : Call n Command) (server : Raft n Command)
      (found : sender.sent[number]? = some (peer, request))
      (replies : request.replyCall peer answer = some call)
      (handled : sender.server.handle call = some server) :
      Move sender (.answer number answer)
        { sender with
          server
          answered := Function.update sender.answered peer
            (max (sender.answered peer) (number + 1)) }
  | restart : Move sender .restart
      { sender with server := Raft.make sender.server.me sender.server.persister }

theorem step_moves (stepped : sender.step act = some next) : sender.Move act next := by
  cases act with
  | call call =>
      simp only [step] at stepped
      split at stepped
      · cases stepped
      · rename_i internal
        obtain ⟨server, handled, rfl⟩ := Option.map_eq_some_iff.mp stepped
        exact .call call server (Bool.not_eq_true _ ▸ internal) handled
  | replicate term =>
      obtain ⟨⟨server, requests⟩, started, result⟩ := Option.bind_eq_some_iff.mp stepped
      cases result
      exact .replicate term server requests started
  | answer number answer =>
      obtain ⟨⟨peer, request⟩, found, rest⟩ := Option.bind_eq_some_iff.mp stepped
      obtain ⟨call, replies, rest⟩ := Option.bind_eq_some_iff.mp rest
      obtain ⟨server, handled, result⟩ := Option.bind_eq_some_iff.mp rest
      cases result
      exact .answer number answer peer request call server found replies handled
  | restart =>
      cases stepped
      exact .restart

/-- Every act but a restart is a section of the server. -/
theorem Move.server (move : sender.Move act next) :
    (∃ call, sender.server.handle call = some next.server) ∨
      (act = .restart ∧ next.sent = sender.sent ∧
        next.server = Raft.make sender.server.me sender.server.persister) := by
  cases move with
  | call call _ _ handled => exact .inl ⟨call, handled⟩
  | replicate term server requests started =>
      exact .inl ⟨.startReplication term, by simp [Raft.handle, started]⟩
  | answer _ _ _ _ call _ _ _ handled => exact .inl ⟨call, handled⟩
  | restart => exact .inr ⟨rfl, rfl, rfl⟩

end Sender

/-- The request that a packet carries or answers. -/
def Packet.request (packet : Packet n Command) : Option (Replicate n Command) :=
  match packet.body with
  | .appendRequest args => some (.append args)
  | .appendReply args _ => some (.append args)
  | .snapshotRequest args => some (.snapshot args)
  | .snapshotReply args _ => some (.snapshot args)
  | _ => none

namespace Cluster

variable {cluster next : Cluster n Command} {event : Event n Command}

/-- Requests are new in a round of replication only. -/
theorem Step.requests (stepped : cluster.Step event next) :
    (∃ server term rf requests,
      (cluster.servers server).startReplication term = some (rf, requests) ∧
      next = { cluster.setServer server rf with
        net := cluster.net ++ cluster.replicationPackets server requests }) ∨
    ∀ packet ∈ next.net, ∀ request, packet.request = some request →
      ∃ old ∈ cluster.net, old.caller = packet.caller ∧ old.peer = packet.peer ∧
        old.request = some request := by
  cases stepped with
  | replicate server term rf requests started =>
      exact .inl ⟨server, term, rf, requests, started, rfl⟩
  | timeout | electionLost | start | snapshot | collect | send | finish | restart =>
      exact .inr fun packet member request carried => ⟨packet, member, rfl, rfl, carried⟩
  | lateReply | voteReply | appendReply | snapshotReply =>
      exact .inr fun packet member request carried =>
        ⟨packet, List.mem_of_mem_eraseIdx member, rfl, rfl, carried⟩
  | election _ pending =>
      refine .inr fun packet member request carried => ?_
      rcases List.mem_append.mp member with old | new
      · exact ⟨packet, old, rfl, rfl, carried⟩
      · obtain ⟨_, _, rfl⟩ := List.mem_map.mp new
        cases carried
  | voteRequest index packet args found body =>
      refine .inr fun packet member request carried => ?_
      rcases List.mem_or_eq_of_mem_set member with old | rfl
      · exact ⟨packet, old, rfl, rfl, carried⟩
      · cases carried
  | appendRequest index packet args rf reply found body
  | snapshotRequest index packet args rf reply found body =>
      refine .inr fun changed member request carried => ?_
      rcases List.mem_or_eq_of_mem_set member with old | rfl
      · exact ⟨changed, old, rfl, rfl, carried⟩
      · refine ⟨packet, List.mem_of_getElem? found, rfl, rfl, ?_⟩
        rw [← carried, Packet.request, body]
        rfl

/-- The server of the cluster, with its requests that are under way. -/
structure Shows (cluster : Cluster n Command) (server : Fin n) (sender : Sender n Command) :
    Prop where
  reached : (senderSystem n Command).Reachable System.anyStep sender
  same : sender.server = cluster.servers server
  requests : ∀ packet ∈ cluster.net, packet.caller = server → ∀ request,
    packet.request = some request → (packet.peer, request) ∈ sender.sent

variable {server : Fin n} {sender : Sender n Command}

/-- A section of the server is an act of its own. -/
theorem Shows.act (shown : cluster.Shows server sender) {call : Call n Command}
    {rf : Raft n Command} (handled : (cluster.servers server).handle call = some rf)
    (receives : cluster.Receives event server call) :
    ∃ act moved, sender.step act = some moved ∧ moved.server = rf ∧
      ∀ request ∈ sender.sent, request ∈ moved.sent := by
  rw [← shown.same] at handled
  have plain : call.replicates = false → ∃ act moved, sender.step act = some moved ∧
      moved.server = rf ∧ ∀ request ∈ sender.sent, request ∈ moved.sent := by
    intro internal
    refine ⟨.call call, { sender with server := rf }, ?_, rfl, fun _ => id⟩
    simp only [Sender.step, internal, Bool.false_eq_true, if_false, handled, Option.map_some]
  have reply : ∀ peer request answer, (peer, request) ∈ sender.sent →
      request.replyCall peer answer = some call → ∃ act moved, sender.step act = some moved ∧
      moved.server = rf ∧ ∀ request ∈ sender.sent, request ∈ moved.sent := by
    intro peer request answer member replies
    obtain ⟨number, found⟩ := List.getElem?_of_mem member
    refine ⟨.answer number answer,
      { sender with
        server := rf
        answered := Function.update sender.answered peer
          (max (sender.answered peer) (number + 1)) }, ?_, rfl, fun _ => id⟩
    simp only [Sender.step, found, replies, handled, Option.bind_eq_bind, Option.bind_some,
      Option.pure_def]
  cases call with
  | startReplication term =>
      obtain ⟨⟨_, requests⟩, started, rfl⟩ := Option.map_eq_some_iff.mp handled
      refine ⟨.replicate term, { sender with server := _, sent := sender.sent ++ requests }, ?_, rfl,
        fun _ => List.mem_append_left requests⟩
      simp only [Sender.step, started, Option.bind_eq_bind, Option.bind_some, Option.pure_def]
  | appendReply peer args answer =>
      obtain ⟨packet, member, body, rfl, rfl⟩ := receives
      exact reply packet.peer (.append args) (.append answer)
        (shown.requests packet member rfl _ (by simp [Packet.request, body])) rfl
  | installReply peer args answer =>
      obtain ⟨packet, member, body, rfl, rfl⟩ := receives
      exact reply packet.peer (.snapshot args) (.snapshot answer)
        (shown.requests packet member rfl _ (by simp [Packet.request, body])) rfl
  | _ => exact plain rfl

theorem Shows.step (shown : cluster.Shows server sender)
    (me : (cluster.servers server).me = server) (stepped : cluster.Step event next) :
    ∃ moved, next.Shows server moved := by
  rcases stepped.requests with ⟨mover, term, rf, requests, started, rfl⟩ | kept
  · by_cases own : server = mover
    · subst own
      rw [← shown.same] at started
      have taken : (senderSystem n Command).step sender (.replicate term) =
          some { sender with server := rf, sent := sender.sent ++ requests } := by
        simp only [senderSystem, Sender.step, started, Option.bind_eq_bind, Option.bind_some,
          Option.pure_def]
      refine ⟨{ sender with server := rf, sent := sender.sent ++ requests },
        shown.reached.run (.tail (.refl _) trivial taken),
        (cluster.setServer_servers_self server rf).symm, ?_⟩
      intro packet member caller request carried
      rcases List.mem_append.mp member with old | new
      · exact List.mem_append_left _ (shown.requests packet old caller request carried)
      · obtain ⟨⟨peer, asked⟩, listed, rfl⟩ := List.mem_map.mp new
        cases asked <;> cases carried <;> exact List.mem_append_right _ listed
    · refine ⟨sender, shown.reached, ?_, ?_⟩
      · exact shown.same.trans (setServer_servers_of_ne cluster rf own).symm
      · intro packet member caller request carried
        rcases List.mem_append.mp member with old | new
        · exact shown.requests packet old caller request carried
        · obtain ⟨_, _, rfl⟩ := List.mem_map.mp new
          exact absurd caller.symm own
  · have requests : ∀ moved : Sender n Command,
        (∀ request ∈ sender.sent, request ∈ moved.sent) →
        ∀ packet ∈ next.net, packet.caller = server → ∀ request,
          packet.request = some request → (packet.peer, request) ∈ moved.sent := by
      intro moved grown packet member caller request carried
      obtain ⟨old, before, sameCaller, samePeer, sameRequest⟩ := kept packet member request carried
      rw [← samePeer]
      exact grown _ (shown.requests old before (sameCaller.trans caller) request sameRequest)
    rcases stepped.moves server with same | ⟨call, handled, _, receives⟩ | ⟨_, restarted⟩
    · exact ⟨sender, shown.reached, shown.same.trans same.symm, requests sender fun _ => id⟩
    · obtain ⟨act, moved, taken, result, grown⟩ := shown.act handled receives
      exact ⟨moved, shown.reached.run (.tail (.refl _) trivial taken), result,
        requests moved grown⟩
    · have taken : (senderSystem n Command).step sender .restart =
          some { sender with server := Raft.make sender.server.me sender.server.persister } := rfl
      refine ⟨{ sender with server := Raft.make sender.server.me sender.server.persister },
        shown.reached.run (.tail (.refl _) trivial taken), ?_, requests _ fun _ => id⟩
      rw [restarted, shown.same, me]

/-- Every server of a cluster is a sender, with all the requests it waits for. -/
theorem exists_shows {allowed : Cluster n Command → Event n Command → Prop}
    (reached : (raftSystem n Command).Reachable allowed cluster) (server : Fin n) :
    ∃ sender, cluster.Shows server sender := by
  have start : ∀ state, (raftSystem n Command).init state →
      ∃ sender, Cluster.Shows state server sender := by
    rintro _ rfl
    exact ⟨_, ⟨_, ⟨server, rfl⟩, .refl _⟩, rfl, nofun⟩
  refine reached.invariant start ?_
  rintro state event next before ⟨sender, shown⟩ _ stepped
  obtain ⟨ballots, voting⟩ := voting_of_reachable before
  exact shown.step (voting.me server) (step_cases stepped)

end Cluster

namespace Sender

variable {sender next : Sender n Command} {act : Act n Command}

structure Sound (sender : Sender n Command) : Prop where
  headed : sender.server.log.Headed
  durable : sender.server.Durable
  selfVoted : sender.server.SelfVoted
  past : ∀ request ∈ sender.sent, request.2.term ≤ sender.server.currentTerm ∧
    (sender.server.role = .candidate → request.2.term < sender.server.currentTerm)
  fits : sender.server.role = .leader → ∀ request ∈ sender.sent,
    request.2.term = sender.server.currentTerm → request.2.reach < sender.server.log.size
  sorted : sender.sent.Pairwise fun earlier later => earlier.2.term = later.2.term →
    ∀ args, later.2 = .append args → earlier.2.reach ≤ later.2.reach

/-- The requests that were there before a section. -/
theorem Sound.kept (sound : sender.Sound) {call : Call n Command} {server : Raft n Command}
    (handled : sender.server.handle call = some server) :
    { sender with server }.Sound := by
  have proceeds := Raft.proceeds_handle handled
  have election := Raft.electionStep_handle sound.selfVoted handled
  refine
    { headed := proceeds.log.headed sound.headed
      durable := sound.durable.handle handled
      selfVoted := election.selfVoted
      past := ?_
      fits := ?_
      sorted := sound.sorted }
  · intro request member
    obtain ⟨reached, before⟩ := sound.past request member
    refine ⟨reached.trans election.evolves.term_le, ?_⟩
    intro isCandidate
    rcases proceeds.candidate isCandidate with ⟨was, sameTerm⟩ | later
    · exact (before was).trans_eq sameTerm.symm
    · exact reached.trans_lt later
  · intro leads request member current
    rcases election.leads leads with ⟨led, sameTerm⟩ | ⟨_, _, _, _, was, before, now, _⟩
    · exact (sound.fits led request member (current.trans sameTerm)).trans_le
        (proceeds.log.continues leads).size
    · -- nothing was sent in a term that is only won now
      have earlier := (sound.past request member).2 was
      dsimp only at current
      omega

/-- New requests, of a leader. -/
theorem Sound.send (sound : sender.Sound) {requests : List (Fin n × Replicate n Command)}
    (leads : sender.server.role = .leader)
    (made : ∀ peer request, (peer, request) ∈ requests →
      sender.server.replicate peer = some request) :
    { sender with sent := sender.sent ++ requests }.Sound := by
  have reach : ∀ request ∈ requests, request.2.term = sender.server.currentTerm ∧
      request.2.reach < sender.server.log.size ∧
      ∀ args, request.2 = .append args → request.2.reach + 1 = sender.server.log.size :=
    fun request member => Raft.reach_of_replicate sound.headed (made _ _ member)
  refine { sound with past := ?_, fits := ?_, sorted := ?_ }
  · intro request member
    rcases List.mem_append.mp member with old | new
    · exact sound.past request old
    · exact ⟨(reach request new).1.le, fun isCandidate => nomatch isCandidate.symm.trans leads⟩
  · intro _ request member current
    rcases List.mem_append.mp member with old | new
    · exact sound.fits leads request old current
    · exact (reach request new).2.1
  · refine List.pairwise_append.mpr ⟨sound.sorted, ?_, ?_⟩
    · rw [List.pairwise_iff_getElem]
      intro earlier later inFront behind _ _ args isAppend
      have full := (reach _ (List.getElem_mem behind)).2.2 args isAppend
      have below := (reach _ (List.getElem_mem inFront)).2.1
      omega
    · intro earlier old later new sameTerm args isAppend
      obtain ⟨term, _, full⟩ := reach later new
      have below := sound.fits leads earlier old (sameTerm.trans term)
      have whole := full args isAppend
      omega

theorem Sound.step (sound : sender.Sound) (move : sender.Move act next) : next.Sound := by
  cases move with
  | call call server _ handled => exact sound.kept handled
  | replicate term server requests started =>
      have handled : sender.server.handle (.startReplication term) = some server := by
        simp [Raft.handle, started]
      rcases Raft.startReplication_cases started with ⟨_, rfl⟩ | ⟨_, leads, _, made⟩
      · rw [List.append_nil]
        exact sound.kept handled
      · exact (sound.send leads fun peer request member => (made peer request member).2).kept
          handled
  | answer number answer peer request call server _ _ handled =>
      obtain ⟨headed, durable, selfVoted, past, fits, sorted⟩ := sound.kept handled
      exact ⟨headed, durable, selfVoted, past, fits, sorted⟩
  | restart =>
      rw [Raft.make_eq_of_durable sound.durable]
      refine ⟨sound.headed, sound.durable.of_same rfl rfl rfl rfl, fun active => absurd rfl active,
        fun request member => ⟨(sound.past request member).1, ?_⟩, ?_, sound.sorted⟩
      · intro candidate
        cases candidate
      · intro leads
        cases leads

theorem sound_of_reachable {allowed : Sender n Command → Act n Command → Prop}
    (reached : (senderSystem n Command).Reachable allowed sender) : sender.Sound := by
  have start : ∀ state, (senderSystem n Command).init state → state.Sound := by
    rintro _ ⟨me, rfl⟩
    exact ⟨RaftLog.headed_newLog _ _ _ _, .inr ⟨rfl, rfl, rfl, rfl⟩,
      fun active => absurd rfl active, nofun, nofun, .nil⟩
  refine reached.preserves start ?_
  intro state act next sound _ stepped
  exact sound.step (step_moves stepped)

/-- What a leader knows of a peer, and of its requests there that are later than the
latest one answered. -/
structure Knows (sender : Sender n Command) (peer : Fin n) : Prop where
  within : sender.server.matchIndex peer < sender.server.log.size
  ahead : sender.server.matchIndex peer < sender.server.nextIndex peer
  pending : ∀ (number : Nat) (args : AppendEntriesArgs n Command), sender.answered peer ≤ number →
    sender.sent[number]? = some (peer, .append args) →
    args.term = sender.server.currentTerm →
      sender.server.matchIndex peer ≤ args.prevLogIndex + args.entries.length

variable {peer : Fin n}

/-- An act that leaves the tables alone: new requests reach the end of the log. -/
theorem Knows.kept (knows : sender.Knows peer)
    (matchIndex : next.server.matchIndex peer = sender.server.matchIndex peer)
    (nextIndex : next.server.nextIndex peer = sender.server.nextIndex peer)
    (term : next.server.currentTerm = sender.server.currentTerm)
    (size : sender.server.log.size ≤ next.server.log.size)
    (answered : sender.answered peer ≤ next.answered peer)
    (requests : ∀ (number : Nat) (args : AppendEntriesArgs n Command),
      next.sent[number]? = some (peer, .append args) →
      sender.sent[number]? = some (peer, .append args) ∨
        sender.server.log.size ≤ args.prevLogIndex + args.entries.length + 1) :
    next.Knows peer where
  within := by
    rw [matchIndex]
    exact knows.within.trans_le size
  ahead := by
    rw [matchIndex, nextIndex]
    exact knows.ahead
  pending number args later found sameTerm := by
    rw [matchIndex]
    rcases requests number args found with old | full
    · exact knows.pending number args (answered.trans later) old (sameTerm.trans term)
    · exact Nat.le_of_lt_succ (knows.within.trans_le full)

theorem knows_of_reset (matchIndex : sender.server.matchIndex peer = 0)
    (nonempty : 0 < sender.server.log.size) (positive : 0 < sender.server.nextIndex peer) :
    sender.Knows peer where
  within := matchIndex.trans_lt nonempty
  ahead := matchIndex.trans_lt positive
  pending _ _ _ _ _ := matchIndex.trans_le (Nat.zero_le _)

variable {request : Replicate n Command}

/-- What counts for a peer is a request that reaches less far than every later one. -/
theorem Sound.knows_counted (sound : sender.Sound) (leads : sender.server.role = .leader)
    {number : Nat} (found : sender.sent[number]? = some (peer, request))
    (sameTerm : sender.server.currentTerm = request.term)
    (term : next.server.currentTerm = sender.server.currentTerm)
    (size : sender.server.log.size ≤ next.server.log.size) (sent : next.sent = sender.sent)
    (answered : number < next.answered peer)
    (matchIndex : next.server.matchIndex peer = request.reach)
    (nextIndex : next.server.nextIndex peer = request.reach + 1) : next.Knows peer where
  within := by
    rw [matchIndex]
    exact (sound.fits leads _ (List.mem_of_getElem? found) sameTerm.symm).trans_le size
  ahead := by
    rw [matchIndex, nextIndex]
    exact Nat.lt_succ_self _
  pending later args unanswered there current := by
    rw [sent] at there
    obtain ⟨inside, isRequest⟩ := List.getElem?_eq_some_iff.mp found
    obtain ⟨inside', isLater⟩ := List.getElem?_eq_some_iff.mp there
    have inOrder := List.pairwise_iff_getElem.mp sound.sorted number later inside inside'
      (answered.trans_le unanswered)
    rw [isRequest, isLater] at inOrder
    rw [matchIndex]
    exact inOrder (sameTerm.symm.trans (term.symm.trans current.symm)) args rfl

/-- What the condition says of a reply in the current leadership. -/
theorem ordered_of_inOrder {number : Nat} {answer : Answer}
    (permitted : sender.inOrder (.answer number answer) = true)
    (found : sender.sent[number]? = some (peer, request)) (leads : sender.server.role = .leader)
    (sameTerm : sender.server.currentTerm = request.term) :
    sender.answered peer ≤ number ∧ sender.probesOnly peer answer = true := by
  have context : sender.server.contextLostLocked .leader request.term = false :=
    Raft.contextLostLocked_eq_false.mpr ⟨sameTerm, leads⟩
  simpa only [inOrder, found, context, Bool.false_or, Bool.and_eq_true, decide_eq_true_iff]
    using permitted

theorem replyCall_append {answer : Answer} {target : Fin n} {args : AppendEntriesArgs n Command}
    {reply : AppendEntriesReply}
    (replies : request.replyCall target answer = some (.appendReply peer args reply)) :
    target = peer ∧ request = .append args ∧ answer = .append reply := by
  cases request <;> cases answer <;> cases replies
  exact ⟨rfl, rfl, rfl⟩

theorem replyCall_snapshot {answer : Answer} {target : Fin n} {args : InstallSnapshotArgs n}
    {reply : InstallSnapshotReply}
    (replies : request.replyCall target answer = some (.installReply peer args reply)) :
    target = peer ∧ request = .snapshot args ∧ answer = .snapshot reply := by
  cases request <;> cases answer <;> cases replies
  exact ⟨rfl, rfl, rfl⟩

/-- A leadership keeps its term. -/
theorem Sound.term_eq (sound : sender.Sound) {call : Call n Command} {server : Raft n Command}
    (handled : sender.server.handle call = some server) (led : sender.server.role = .leader)
    (leads : server.role = .leader) : server.currentTerm = sender.server.currentTerm := by
  rcases (Raft.electionStep_handle sound.selfVoted handled).leads leads with
    ⟨_, sameTerm⟩ | ⟨_, _, _, _, candidate, _⟩
  · exact sameTerm
  · exact nomatch led.symm.trans candidate

theorem le_answered (sender : Sender n Command) (peer target : Fin n) (number : Nat) :
    sender.answered peer ≤ Function.update sender.answered target
      (max (sender.answered target) (number + 1)) peer := by
  by_cases same : peer = target
  · subst same
    rw [Function.update_self]
    exact le_max_left _ _
  · rw [Function.update_of_ne same]

theorem lt_answered (sender : Sender n Command) (peer : Fin n) (number : Nat) :
    number <
      Function.update sender.answered peer (max (sender.answered peer) (number + 1)) peer := by
  rw [Function.update_self]
  exact Nat.lt_of_succ_le (le_max_right _ _)

/-- One act, for a server that leads after it. -/
theorem knows_step (sound : sender.Sound) (knows : sender.server.role = .leader → sender.Knows peer)
    (permitted : sender.inOrder act = true) (move : sender.Move act next)
    (leads : next.server.role = .leader) (other : peer ≠ sender.server.me) :
    next.Knows peer := by
  have nonempty := (Nat.zero_le _).trans_lt sound.headed.snapLastIdx_lt
  cases move with
  | call call server internal handled =>
      have size := ((Raft.proceeds_handle handled).log.continues leads).size
      cases Raft.tableStep_handle handled leads other with
      | kept led matchIndex nextIndex =>
          exact (knows led).kept matchIndex nextIndex (sound.term_eq handled led leads) size le_rfl
            fun _ _ => .inl
      | reset candidate matchIndex nextIndex =>
          exact knows_of_reset matchIndex (nonempty.trans_le size)
            (nonempty.trans_eq nextIndex.symm)
      | probed | counted | shipped => cases internal
  | replicate term server requests started =>
      have handled : sender.server.handle (.startReplication term) = some server := by
        simp [Raft.handle, started]
      have size := ((Raft.proceeds_handle handled).log.continues leads).size
      rcases Raft.startReplication_cases started with ⟨rfl, rfl⟩ | ⟨_, led, _, made⟩
      · rw [List.append_nil]
        exact knows leads
      cases Raft.tableStep_handle handled leads other with
      | kept _ matchIndex nextIndex =>
          refine (knows led).kept matchIndex nextIndex (sound.term_eq handled led leads) size
            le_rfl ?_
          intro number args found
          rcases Nat.lt_or_ge number sender.sent.length with inside | outside
          · rw [List.getElem?_append_left inside] at found
            exact .inl found
          · rw [List.getElem?_append_right outside] at found
            obtain ⟨_, _, full⟩ := Raft.reach_of_replicate sound.headed
              (made _ _ (List.mem_of_getElem? found)).2
            exact .inr (full args rfl).ge
      | reset candidate => cases led.symm.trans candidate
  | answer number answer target request call server found replies handled =>
      have size := ((Raft.proceeds_handle handled).log.continues leads).size
      have answered := sender.le_answered peer target number
      cases Raft.tableStep_handle handled leads other with
      | kept led matchIndex nextIndex =>
          exact (knows led).kept matchIndex nextIndex (sound.term_eq handled led leads) size
            answered fun _ _ => .inl
      | reset candidate matchIndex nextIndex =>
          exact knows_of_reset matchIndex (nonempty.trans_le size)
            (nonempty.trans_eq nextIndex.symm)
      | probed led sameTerm current failed matchIndex nextIndex =>
          obtain ⟨rfl, rfl, rfl⟩ := replyCall_append replies
          obtain ⟨_, probes⟩ := ordered_of_inOrder permitted found led sameTerm
          obtain ⟨unknown, named⟩ : sender.server.matchIndex target = 0 ∧ _ := by
            simpa [probesOnly, failed, not_lt.mpr current] using probes
          exact knows_of_reset (matchIndex.trans unknown) (nonempty.trans_le size)
            ((Raft.nextProbe_pos ((Nat.zero_le _).trans_lt (knows led).ahead) named).trans_eq
              nextIndex.symm)
      | counted led sameTerm matchIndex nextIndex =>
          obtain ⟨rfl, rfl, rfl⟩ := replyCall_append replies
          exact sound.knows_counted led found sameTerm (sound.term_eq handled led leads) size rfl
            (sender.lt_answered target number) matchIndex nextIndex
      | shipped led sameTerm newer matchIndex nextIndex =>
          obtain ⟨rfl, rfl, rfl⟩ := replyCall_snapshot replies
          exact sound.knows_counted led found sameTerm (sound.term_eq handled led leads) size rfl
            (sender.lt_answered target number) matchIndex nextIndex
  | restart =>
      rw [Raft.make_role] at leads
      cases leads

theorem matchIndex_le_step (knows : sender.Knows peer) (permitted : sender.inOrder act = true)
    (move : sender.Move act next) (led : sender.server.role = .leader)
    (leads : next.server.role = .leader) (other : peer ≠ sender.server.me) :
    sender.server.matchIndex peer ≤ next.server.matchIndex peer := by
  cases move with
  | call call server internal handled =>
      cases Raft.tableStep_handle handled leads other with
      | kept _ matchIndex => exact matchIndex.ge
      | reset candidate => exact nomatch led.symm.trans candidate
      | probed | counted | shipped => cases internal
  | replicate term server requests started =>
      have handled : sender.server.handle (.startReplication term) = some server := by
        simp [Raft.handle, started]
      cases Raft.tableStep_handle handled leads other with
      | kept _ matchIndex => exact matchIndex.ge
      | reset candidate => exact nomatch led.symm.trans candidate
  | answer number answer target request call server found replies handled =>
      cases Raft.tableStep_handle handled leads other with
      | kept _ matchIndex => exact matchIndex.ge
      | reset candidate => exact nomatch led.symm.trans candidate
      | probed _ _ _ _ matchIndex => exact matchIndex.ge
      | counted _ sameTerm matchIndex =>
          obtain ⟨rfl, rfl, rfl⟩ := replyCall_append replies
          obtain ⟨unanswered, _⟩ := ordered_of_inOrder permitted found led sameTerm
          exact (knows.pending number _ unanswered found sameTerm.symm).trans matchIndex.ge
      | shipped _ _ newer matchIndex => exact newer.le.trans matchIndex.ge
  | restart =>
      rw [Raft.make_role] at leads
      cases leads

/-- What every act leaves of a server: who it is, and its term at least. -/
theorem Sound.persists (sound : sender.Sound) (move : sender.Move act next) :
    next.server.me = sender.server.me ∧
      sender.server.currentTerm ≤ next.server.currentTerm := by
  rcases move.server with ⟨call, handled⟩ | ⟨_, _, restarted⟩
  · have election := Raft.electionStep_handle sound.selfVoted handled
    exact ⟨election.me, election.evolves.term_le⟩
  · rw [restarted, Raft.make_eq_of_durable sound.durable]
    exact ⟨rfl, le_rfl⟩

theorem knows_of_reachable
    (reached : (senderSystem n Command).Reachable
      (fun sender act => sender.inOrder act = true) sender) (leads : sender.server.role = .leader)
    (other : peer ≠ sender.server.me) :
    sender.Knows peer := by
  have start : ∀ state, (senderSystem n Command).init state →
      state.server.role = .leader → ∀ peer, peer ≠ state.server.me → state.Knows peer := by
    rintro _ ⟨me, rfl⟩ leads
    rw [Raft.make_role] at leads
    cases leads
  refine reached.invariant start ?_ leads peer other
  intro state act next before knows permitted stepped leads peer other
  have sound := sound_of_reachable before
  have move := step_moves stepped
  rw [(sound.persists move).1] at other
  exact knows_step sound (fun led => knows led peer other) permitted move leads other

/-- The state belongs to the leadership that it is compared with or comes after it, and
in that leadership no match point is behind. -/
structure Since (first sender : Sender n Command) : Prop where
  me : sender.server.me = first.server.me
  term : first.server.currentTerm ≤ sender.server.currentTerm
  active : sender.server.currentTerm = first.server.currentTerm → sender.server.role ≠ .candidate
  matched : sender.server.currentTerm = first.server.currentTerm →
    sender.server.role = .leader → ∀ peer, peer ≠ first.server.me →
      first.server.matchIndex peer ≤ sender.server.matchIndex peer

theorem Since.step {first : Sender n Command} (since : first.Since sender)
    (reached : (senderSystem n Command).Reachable
      (fun sender act => sender.inOrder act = true) sender)
    (permitted : sender.inOrder act = true) (move : sender.Move act next) :
    first.Since next := by
  have sound := sound_of_reachable reached
  obtain ⟨me, term⟩ := sound.persists move
  rcases move.server with ⟨call, handled⟩ | ⟨_, _, restarted⟩
  · have election := Raft.electionStep_handle sound.selfVoted handled
    refine ⟨me.trans since.me, since.term.trans term, ?_, ?_⟩
    · intro sameTerm isCandidate
      have before := since.active (le_antisymm (term.trans_eq sameTerm) since.term)
      rcases (Raft.proceeds_handle handled).candidate isCandidate with ⟨was, _⟩ | later
      · exact before was
      · have reached := since.term
        omega
    · intro sameTerm leads peer other
      have unchanged := le_antisymm (term.trans_eq sameTerm) since.term
      rcases election.leads leads with ⟨led, _⟩ | ⟨_, _, _, _, candidate, _⟩
      · rw [← since.me] at other
        have front := since.matched unchanged led peer (since.me ▸ other)
        exact front.trans
          (matchIndex_le_step (knows_of_reachable reached led other) permitted move led leads other)
      · exact absurd candidate (since.active unchanged)
  · have role : next.server.role = .follower := by
      rw [restarted, Raft.make_role]
    refine ⟨me.trans since.me, since.term.trans term, ?_, ?_⟩
    · exact fun _ isCandidate => nomatch isCandidate.symm.trans role
    · exact fun _ leads => nomatch leads.symm.trans role

end Sender

/-- In one leadership no match point moves back and every `nextIndex` is beyond it, if
replies to one peer are handled in the order of their requests and rejections only
before the first success. -/
theorem match_point_never_back {first last : Sender n Command}
    (reached : (senderSystem n Command).Reachable
      (fun sender act => sender.inOrder act = true) first)
    (run : (senderSystem n Command).Run (fun sender act => sender.inOrder act = true) first last)
    (led : first.server.role = .leader) (leads : last.server.role = .leader)
    (sameTerm : last.server.currentTerm = first.server.currentTerm) {peer : Fin n}
    (other : peer ≠ first.server.me) :
    first.server.matchIndex peer ≤ last.server.matchIndex peer ∧
      last.server.matchIndex peer < last.server.nextIndex peer := by
  have start : first.Since first := by
    refine ⟨rfl, le_rfl, ?_, fun _ _ _ _ => le_rfl⟩
    exact fun _ isCandidate => nomatch led.symm.trans isCandidate
  have step : ∀ state act next, (senderSystem n Command).Reachable
        (fun sender act => sender.inOrder act = true) state ∧ first.Since state →
      state.inOrder act = true → state.step act = some next →
      (senderSystem n Command).Reachable
        (fun sender act => sender.inOrder act = true) next ∧ first.Since next := by
    rintro state act next ⟨before, since⟩ permitted stepped
    exact ⟨before.run (.tail (.refl _) permitted stepped),
      since.step before permitted (Sender.step_moves stepped)⟩
  obtain ⟨reachedLast, since⟩ := run.preserves step ⟨reached, start⟩
  refine ⟨since.matched sameTerm leads peer other, ?_⟩
  exact (Sender.knows_of_reachable reachedLast leads (since.me ▸ other)).ahead

/-- Server 0 of three, before it does anything. -/
def quietSender : Sender 3 Nat :=
  { server := Raft.make 0 (makePersister 3 Nat), sent := [], answered := fun _ => 0 }

theorem reachable_quietSender {allowed : Sender 3 Nat → Act 3 Nat → Prop}
    (permits : ∀ sender act, sender.inOrder act = true → allowed sender act)
    (acts : List (Act 3 Nat)) :
    (senderSystem 3 Nat).Reachable allowed
      ((senderSystem 3 Nat).after Sender.inOrder quietSender acts) :=
  ⟨_, ⟨0, rfl⟩, (System.run_after ..).mono permits⟩

/-- A leader of term 2 that has sent its first entry to both peers, and then both of its
entries. -/
def twoRounds : Sender 3 Nat :=
  (senderSystem 3 Nat).after Sender.inOrder quietSender
    [.call .electionTimeout, .call (.voteReply 2 1 { term := 1, voteGranted := true }),
     .call (.start (some 7)), .replicate 2, .call (.start (some 8)), .replicate 2]

def accepted (term : Nat) : Answer := .append { term, success := true }

theorem match_point_never_back_twoRounds :
    let last := (senderSystem 3 Nat).after Sender.inOrder twoRounds
      [.answer 0 (accepted 2), .answer 2 (accepted 2)]
    last.server.matchIndex 1 = 2 ∧ twoRounds.server.matchIndex 1 ≤ last.server.matchIndex 1 :=
  ⟨rfl, (match_point_never_back (reachable_quietSender (fun _ _ => id) _) (System.run_after ..)
    rfl rfl rfl (by decide)).1⟩

/-- A leader of term 4 with an entry of term 2 that its peers lack.  It has sent two probes
for it, handled the rejection of the first one, and then had the entry accepted. -/
def probedTwice : Sender 3 Nat :=
  (senderSystem 3 Nat).after Sender.inOrder quietSender
    [.call .electionTimeout, .call (.voteReply 2 1 { term := 1, voteGranted := true }),
     .call (.start (some 7)),
     .call (.requestVote { term := 3, candidateId := 1, lastLogIndex := 0, lastLogTerm := 0 }),
     .call .electionTimeout, .call (.voteReply 4 1 { term := 3, voteGranted := true }),
     .replicate 4, .replicate 4, .answer 0 (.append { term := 4, conflictIndex := 1 }),
     .replicate 4, .answer 4 (accepted 4)]

/-- The peer has both entries, and the reply to the earlier request comes last; and the
rejection of the second probe comes after the success. -/
theorem match_point_moves_back :
    ((senderSystem 3 Nat).Reachable System.anyStep twoRounds ∧
      ∃ matched late, twoRounds.step (.answer 2 (accepted 2)) = some matched ∧
        matched.step (.answer 0 (accepted 2)) = some late ∧
        late.server.role = .leader ∧ late.server.currentTerm = matched.server.currentTerm ∧
        late.server.matchIndex 1 < matched.server.matchIndex 1) ∧
    (senderSystem 3 Nat).Reachable System.anyStep probedTwice ∧
      ∃ late, probedTwice.step (.answer 2 (.append { term := 4, conflictIndex := 1 })) = some late ∧
        late.server.role = .leader ∧
        late.server.nextIndex 1 ≤ late.server.matchIndex 1 := by
  refine ⟨⟨reachable_quietSender (fun _ _ _ => trivial) _, _, _, rfl, rfl, rfl, rfl, ?_⟩,
    reachable_quietSender (fun _ _ _ => trivial) _, _, rfl, rfl, ?_⟩
  · decide
  · decide

end MultiRaft
