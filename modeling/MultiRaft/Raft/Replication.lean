import MultiRaft.Raft.Refinement

/-!
# Every step of the cluster is a move of the protocol

Each step first casts the votes it shows.  Five sections then change a log or a
leader: the counted vote that wins, `Start`, an accepted `AppendEntries` or
`InstallSnapshot`, and `Snapshot`; all others leave the logs alone.
-/

namespace MultiRaft

variable {n : Nat} {Command : Type}

/-- The request is accepted and cuts off entries of its own term that the server
has beyond those it brings. -/
def Raft.losesEntries (rf : Raft n Command) (args : AppendEntriesArgs n Command) : Bool :=
  match rf.appendEntries args with
  | none => false
  | some (_, reply) => reply.success &&
      ((rf.log.tail (args.prevLogIndex + args.entries.length + 1)).getD []).any
        fun entry => entry.term == args.term

namespace Cluster

/-- The event delivers no such request. -/
def keepsEntries (cluster : Cluster n Command) : Event n Command → Bool
  | .deliver index =>
      match cluster.net[index]? with
      | none => true
      | some packet =>
          match packet.body with
          | .appendRequest args => !(cluster.servers packet.peer).losesEntries args
          | _ => true
  | _ => true

/-- The steps of the two kinds of runs. -/
structure Permitted (cluster : Cluster n Command) (guarded : Prop) (event : Event n Command) :
    Prop where
  keeps : guarded → cluster.keepsEntries event = true
  uncompacted : ¬ guarded → ∀ server index bytes, event ≠ .snapshot server index bytes

variable {cluster next : Cluster n Command} {guarded : Prop} {history : History n Command}
  {event : Event n Command}

/-- Nobody starts to lead unless the reply to a vote request is delivered. -/
theorem Refines.still_led (refines : cluster.Refines guarded history)
    (stepped : cluster.Step event next)
    (quiet : ∀ index packet args reply, event = .deliver index →
      cluster.net[index]? = some packet → packet.body ≠ .voteReply args reply)
    (server : Fin n) (leads : (next.servers server).role = .leader) :
    history.led (next.servers server).currentTerm server := by
  rcases refines.voting.leads stepped server leads with
    led | ⟨index, packet, args, reply, isDeliver, found, body, _⟩
  · exact led
  · exact absurd body (quiet index packet args reply isDeliver found)

variable {packet : Packet n Command}

/-- A delivered packet that is no reply to a vote request elects nobody. -/
theorem not_voteReply {index : Nat} (found : cluster.net[index]? = some packet)
    (other : ∀ args reply, packet.body ≠ .voteReply args reply) :
    ∀ index' packet' args reply, (.deliver index : Event n Command) = .deliver index' →
      cluster.net[index']? = some packet' → packet'.body ≠ .voteReply args reply := by
  rintro _ packet' args reply ⟨⟩ found'
  rw [found] at found'
  cases found'
  exact other args reply

theorem Refines.quiet (refines : cluster.Refines guarded history)
    (stepped : cluster.Step event next)
    (led : ∀ server, (next.servers server).role = .leader →
      history.led (next.servers server).currentTerm server)
    (servers : ∀ server, (next.servers server).Refines guarded (next.castVotes history) server ∨
      next.servers server = cluster.servers server)
    (packets : ∀ packet ∈ next.net,
      packet.Carries guarded (next.castVotes history) ∨ packet ∈ cluster.net)
    (delivered : guarded → ∀ sent ∈ next.delivered,
      sent.2.Settles (next.castVotes history) ∨ sent ∈ cluster.delivered) :
    next.Advances guarded history := by
  have extended := refines.castVotes_extends stepped
  refine ⟨_, ?_, extended, fun _ _ => .inl le_rfl⟩
  apply refines.advance stepped extended (refines.castVotes_sound stepped)
    (castVotes_ballots led) ?_ packets delivered
  intro server
  rcases servers server with done | same
  · exact .inl done
  · exact .inr ⟨same, rfl, rfl⟩

variable {rf : Raft n Command}

/-- Only the server that moved has to be looked at. -/
theorem refines_setServer {new : History n Command} {mover : Fin n}
    (moved : next.servers = (cluster.setServer mover rf).servers)
    (refined : rf.Refines guarded new mover) (server : Fin n) :
    (next.servers server).Refines guarded new server ∨
      next.servers server = cluster.servers server := by
  rw [moved]
  by_cases same : server = mover
  · subst same
    rw [setServer_servers_self]
    exact .inl refined
  · exact .inr (setServer_servers_of_ne cluster rf same)

/-- The quiet rule for a critical section that sends and delivers nothing. -/
theorem Refines.quiet_section (refines : cluster.Refines guarded history)
    (stepped : cluster.Step event next)
    (led : ∀ server, (next.servers server).role = .leader →
      history.led (next.servers server).currentTerm server) {mover : Fin n}
    (refined : rf.Refines guarded (next.castVotes history) mover)
    (servers : next.servers = (cluster.setServer mover rf).servers)
    (net : ∀ packet ∈ next.net, packet ∈ cluster.net)
    (delivered : next.delivered = cluster.delivered) :
    next.Advances guarded history := by
  refine refines.quiet stepped led (refines_setServer servers refined)
    (fun packet member => .inr (net packet member)) ?_
  intro _ sent member
  rw [delivered] at member
  exact .inr member

/-- The quiet rule for a handler that puts its reply in place of the request. -/
theorem Refines.quiet_answer (refines : cluster.Refines guarded history)
    (stepped : cluster.Step event next)
    (led : ∀ server, (next.servers server).role = .leader →
      history.led (next.servers server).currentTerm server) {mover : Fin n} {index : Nat}
    {answer : Packet n Command} (refined : rf.Refines guarded (next.castVotes history) mover)
    (shape : next = { cluster.setServer mover rf with net := cluster.net.set index answer })
    (carries : answer.Carries guarded (next.castVotes history)) :
    next.Advances guarded history := by
  refine refines.quiet stepped led (refines_setServer (by rw [shape]) refined) ?_ ?_
  · intro packet member
    rw [shape] at member
    rcases List.mem_or_eq_of_mem_set member with old | rfl
    · exact .inr old
    · exact .inl carries
  · intro _ sent member
    rw [shape] at member
    exact .inr member

variable {server : Fin n}

/-- A new candidate votes with the log it has. -/
theorem Refines.timeout (refines : cluster.Refines guarded history)
    (stepped : cluster.Step event next) (notLeader : (cluster.servers server).role ≠ .leader) :
    (cluster.servers server).becomeCandidateLocked.Refines guarded
      (next.castVotes history) server := by
  have before := refines.castVotes_server stepped server
  have voting := refines.voting
  rw [Raft.becomeCandidateLocked_eq _ notLeader]
  refine ⟨before.log, ?_, ?_, fun guard => (before.commit guard).mono (Nat.le_succ _),
    before.ticker⟩
  · intro _
    constructor
    · have unvoted : history.vote server ((cluster.servers server).currentTerm + 1) = none := by
        rw [Option.eq_none_iff_forall_ne_some]
        intro candidate voted
        have bound : (cluster.servers server).currentTerm + 1 ≤
            (cluster.servers server).currentTerm :=
          voting.tracks.vote_bound server _ candidate voted
        omega
      exact (Replication.cast_ballotLog_of_none unvoted).symm
    · intro led
      have bound : (cluster.servers server).currentTerm + 1 ≤ (cluster.servers server).currentTerm :=
        voting.tracks.led_bound _ server led
      omega
  · intro leads
    cases leads

/-- A vote request carries the log the candidate voted with. -/
theorem Refines.electionPackets_carry (refines : cluster.Refines guarded history)
    (stepped : cluster.Step event next) {pending : PendingElection n}
    (isCandidate : (cluster.servers pending.candidate).role = .candidate)
    (member : packet ∈ electionPackets (cluster.servers pending.candidate) pending) :
    packet.Carries guarded (next.castVotes history) := by
  have before := refines.castVotes_server stepped pending.candidate
  have voting := refines.voting
  obtain ⟨⟨peer, args⟩, asked, rfl⟩ := List.mem_map.mp member
  have same := Raft.eq_of_mem_voteRequests asked
  have last := before.log.last ((refines.castVotes_sound stepped).snap_short pending.candidate)
  have voted := voting.selfVoted pending.candidate (by rw [isCandidate]; decide)
  rw [voting.me] at voted
  rw [last] at same
  subst same
  refine ⟨?_, ?_, ?_⟩
  · exact (refines.castVotes_extends stepped).ballots.vote_kept _ _ _
      ((voting.tracks.vote_eq pending.candidate).trans voted)
  · exact congrArg List.length (before.candidate isCandidate).1
  · exact congrArg lastTerm (before.candidate isCandidate).1

theorem Refines.requestVote (refines : cluster.Refines guarded history)
    (stepped : cluster.Step event next) (server : Fin n) (args : RequestVoteArgs n) :
    ((cluster.servers server).requestVote args).1.Refines guarded
      (next.castVotes history) server := by
  have before := refines.castVotes_server stepped server
  rcases (cluster.servers server).requestVote_cases args with
    ⟨_, result, _⟩ | ⟨current, result, _⟩ | ⟨current, _, _, result, _⟩
  · rw [result]
    exact before
  · rw [result]
    exact before.aligned current
  · rw [result]
    have aligned := before.aligned current
    exact ⟨aligned.log, aligned.candidate, aligned.matched, aligned.commit, aligned.ticker⟩

/-- A leader's log is the log of its term. -/
theorem Refines.leader_log (refines : cluster.Refines guarded history)
    (stepped : cluster.Step event next) (leads : (cluster.servers server).role = .leader)
    (term : (next.servers server).currentTerm = (cluster.servers server).currentTerm) :
    (next.castVotes history).led (cluster.servers server).currentTerm server ∧
      (next.castVotes history).log server =
        (next.castVotes history).leaderLog (cluster.servers server).currentTerm := by
  have led : history.led (cluster.servers server).currentTerm server :=
    refines.voting.tracks.leading server leads
  exact ⟨led, (refines.castVotes_sound stepped).matching.leading _ server led term⟩

/-- The majority index of a leader is settled if its entry is of the current
term, or it is compacted. -/
theorem Refines.majority_secured (refines : cluster.Refines guarded history)
    (stepped : cluster.Step event next) (leads : (cluster.servers server).role = .leader)
    (term : (next.servers server).currentTerm = (cluster.servers server).currentTerm)
    {matchIndex : Fin n → Nat} {majority : Nat} {entry : LogEntry Command}
    (matched : ∀ peer,
      matchIndex peer ≤ (next.castVotes history).ack peer (cluster.servers server).currentTerm ∨
        matchIndex peer ≤ ((next.castVotes history).snap server).length)
    (picked : ((List.ofFn matchIndex).insertionSort (· ≤ ·))[(n - 1) / 2]? = some majority)
    (found : (cluster.servers server).log.entryAt majority = some entry)
    (own : entry.term = (cluster.servers server).currentTerm) :
    (next.castVotes history).Secured server (cluster.servers server).currentTerm majority := by
  have sound := refines.castVotes_sound stepped
  obtain ⟨led, log⟩ := refines.leader_log stepped leads term
  rcases (refines.castVotes_server stepped server).log.entryAt found with
    ⟨atSnap, _⟩ | ⟨beyond, inLog⟩
  · exact .inl atSnap.le
  · have within := (List.getElem?_eq_some_iff.mp inLog).1
    have inLeader := inLog
    rw [log] at inLeader
    have committed : (next.castVotes history).Committed
        (cluster.servers server).currentTerm majority := by
      refine ⟨⟨server, led⟩, ?_, ?_, _, majority_of_median picked, ?_⟩
      · rcases sound.matching.leader_entry ⟨server, led⟩ inLeader with ⟨_, older⟩ | ⟨late, _⟩
        · exact absurd own older.ne
        · omega
      · rw [← log]
        omega
      · intro peer member
        have reached := (Finset.mem_filter.mp member).2
        rcases matched peer with taken | compacted
        · exact reached.trans taken
        · omega
    refine .inr ⟨by omega, .inr ⟨_, le_rfl, majority, committed, ?_⟩⟩
    rw [log]

theorem Refines.appendReply (refines : cluster.Refines guarded history)
    (stepped : cluster.Step event next) {args : AppendEntriesArgs n Command}
    {reply : AppendEntriesReply} (member : packet ∈ cluster.net)
    (body : packet.body = .appendReply args reply)
    (handled : (cluster.servers packet.caller).appendReply packet.peer args reply = some rf)
    (moved : next.servers packet.caller = rf) :
    rf.Refines guarded (next.castVotes history) packet.caller := by
  have before := refines.castVotes_server stepped packet.caller
  rcases Raft.appendReply_cases handled with
    ⟨later, rfl⟩ | rfl | ⟨_, _, _, rfl⟩ | ⟨sameTerm, leads, success, majority, picked, result⟩
  · exact before.becomeFollowerLocked later.le
  · exact before
  · exact ⟨before.log, before.candidate, before.matched, before.commit, before.ticker⟩
  · have carries := refines.packets packet member
    simp only [Packet.Carries, body] at carries
    have matched : ∀ peer, Function.update (cluster.servers packet.caller).matchIndex packet.peer
          (args.prevLogIndex + args.entries.length) peer ≤
          (next.castVotes history).ack peer (cluster.servers packet.caller).currentTerm ∨
        Function.update (cluster.servers packet.caller).matchIndex packet.peer
          (args.prevLogIndex + args.entries.length) peer ≤
          ((next.castVotes history).snap packet.caller).length := by
      intro peer
      by_cases same : peer = packet.peer
      · subst same
        rw [Function.update_self, sameTerm]
        exact .inl (carries success).2
      · rw [Function.update_of_ne same]
        exact before.matched leads peer
    rcases result with rfl | ⟨_, entry, found, own, rfl⟩
    · exact ⟨before.log, before.candidate, fun _ => matched, before.commit, before.ticker⟩
    · refine ⟨before.log, before.candidate, fun _ => matched, fun _ => ?_, before.ticker⟩
      exact refines.majority_secured stepped leads (by rw [moved]) matched picked found own

theorem Refines.installReply (refines : cluster.Refines guarded history)
    (stepped : cluster.Step event next) {args : InstallSnapshotArgs n}
    {reply : InstallSnapshotReply} (member : packet ∈ cluster.net)
    (body : packet.body = .snapshotReply args reply) :
    ((cluster.servers packet.caller).installReply packet.peer args reply).Refines guarded
      (next.castVotes history) packet.caller := by
  have before := refines.castVotes_server stepped packet.caller
  rcases (cluster.servers packet.caller).installReply_cases packet.peer args reply with
    ⟨later, result⟩ | result | ⟨_, leads, result⟩
  · rw [result]
    exact before.becomeFollowerLocked later.le
  · rw [result]
    exact before
  · rw [result]
    refine ⟨before.log, before.candidate, fun _ peer => ?_, before.commit, before.ticker⟩
    have carries := refines.packets packet member
    simp only [Packet.Carries, body] at carries
    by_cases same : peer = packet.peer
    · subst same
      simp only [Function.update_self]
      exact .inr carries
    · simp only [Function.update_of_ne same]
      exact before.matched leads peer

/-- A leader counts itself, as far as its log reaches. -/
theorem Refines.startReplication (refines : cluster.Refines guarded history)
    (stepped : cluster.Step event next) {term : Nat} {requests : List (Fin n × Replicate n Command)}
    (started : (cluster.servers server).startReplication term = some (rf, requests))
    (moved : next.servers server = rf) :
    rf.Refines guarded (next.castVotes history) server := by
  have before := refines.castVotes_server stepped server
  rcases Raft.startReplication_cases started with ⟨rfl, _⟩ | ⟨_, leads, rfl, _⟩
  · exact before
  · refine ⟨before.log, before.candidate, fun _ peer => ?_, before.commit, before.ticker⟩
    rw [refines.voting.me server]
    by_cases same : peer = server
    · subst same
      obtain ⟨led, log⟩ := refines.leader_log stepped leads (by rw [moved])
      have all := (refines.castVotes_sound stepped).matching.leader_ack _ _ led
      have size := before.log.size
      simp only [Function.update_self]
      rw [all, ← log, size]
      exact .inl le_rfl
    · simp only [Function.update_of_ne same]
      exact before.matched leads peer

/-- The requests of a leader carry parts of its log. -/
theorem Refines.replicate_carries (refines : cluster.Refines guarded history)
    (stepped : cluster.Step event next) {peer : Fin n} {request : Replicate n Command}
    (leads : (cluster.servers server).role = .leader)
    (term : (next.servers server).currentTerm = (cluster.servers server).currentTerm)
    (made : (cluster.servers server).replicate peer = some request) :
    match request with
    | .append args => args.Carries guarded (next.castVotes history) server
    | .snapshot args => args.Carries guarded (next.castVotes history) server := by
  have before := refines.castVotes_server stepped server
  have sound := refines.castVotes_sound stepped
  obtain ⟨led, log⟩ := refines.leader_log stepped leads term
  have within : (next.castVotes history).snap server <+: (next.castVotes history).log server := by
    rw [log, ← term]
    apply sound.snap_within
    change (next.castVotes history).Elected (next.servers server).currentTerm
    rw [term]
    exact ⟨server, led⟩
  have image := List.prefix_iff_eq_take.mp within
  have settledSnap : guarded → (next.castVotes history).Settled
      (cluster.servers server).currentTerm ((next.castVotes history).snap server) := by
    intro guard
    rw [← term]
    exact (sound.complete guard).snap_settled server
  rcases Raft.replicate_cases made with rfl | ⟨prevIdx, prev, entries, found, read, rfl⟩
  · have sameIdx := before.log.snapLastIdx
    refine ⟨led, sameIdx.le, ?_, ?_, ?_⟩
    · rw [sameIdx, ← log]
      exact before.log.covered
    · rw [sameIdx, ← log, ← image]
      exact before.log.snapLastTerm
    · intro guard
      rw [sameIdx, ← log, ← image]
      exact settledSnap guard
  · obtain ⟨prevTerm, covered, bound⟩ :=
      before.log.entryAt_term (congrArg lastTerm image) found
    rw [before.log.tail covered] at read
    cases read
    have all : prevIdx + ((next.castVotes history).log server |>.drop prevIdx).length =
        ((next.castVotes history).log server).length := by
      rw [List.length_drop]
      omega
    refine ⟨led, ?_, ?_, ?_, ?_, ?_⟩
    · rw [all, log]
    · rw [all, log]
      exact (sound.matching.start_within _ ⟨server, led⟩).length_le
    · rw [all, ← log, List.take_length]
    · rw [← log]
      exact prevTerm
    · intro guard
      rw [all, ← log]
      rcases before.commit guard with compacted | ⟨reached, settled⟩
      · refine ⟨compacted.trans before.log.covered, (settledSnap guard).initial ?_⟩
        exact List.prefix_of_prefix_length_le (List.take_prefix _ _) within
          ((List.length_take_le _ _).trans compacted)
      · exact ⟨reached, settled⟩

/-- What `applicationTicker` collects is settled. -/
theorem Refines.collect (refines : cluster.Refines guarded history)
    (stepped : cluster.Step event next) (collected : (cluster.servers server).collect = some rf) :
    rf.Refines guarded (next.castVotes history) server := by
  have before := refines.castVotes_server stepped server
  obtain ⟨_, ⟨_, rfl⟩ | ⟨_, entries, read, rfl⟩⟩ := Raft.collect_cases collected
  · exact ⟨before.log, before.candidate, before.matched, before.commit,
      fun _ _ _ ticking => nomatch ticking⟩
  · refine ⟨before.log, before.candidate, before.matched, before.commit, ?_⟩
    rintro guard _ _ ⟨⟩ position entry found
    dsimp only
    obtain ⟨key, selected, entryFound⟩ := getElem?_of_mapM_eq_some read found
    obtain ⟨within, rfl⟩ := List.getElem?_eq_some_iff.mp selected
    rw [List.length_range'] at within
    rw [List.getElem_range', one_mul] at entryFound
    have sameIdx := before.log.snapLastIdx
    rcases before.log.entryAt entryFound with ⟨atSnap, _⟩ | ⟨_, inLog⟩
    · omega
    · rw [show max (cluster.servers server).lastApplied (cluster.servers server).log.snapLastIdx +
        1 + position - 1 = max (cluster.servers server).lastApplied
          (cluster.servers server).log.snapLastIdx + position by omega] at inLog
      rcases before.commit guard with compacted | ⟨_, settled⟩
      · omega
      · refine ⟨_, _, settled, ?_⟩
        rw [List.getElem?_take, if_pos (by omega)]
        exact inLog

theorem Refines.send (refines : cluster.Refines guarded history) (stepped : cluster.Step event next)
    {msg : ApplyMsg Command} (sent : (cluster.servers server).send = some (rf, msg)) :
    rf.Refines guarded (next.castVotes history) server ∧
      (guarded → msg.Settles (next.castVotes history)) := by
  have before := refines.castVotes_server stepped server
  rcases Raft.send_cases sent with
    ⟨entries, count, entry, ticking, found, rfl, rfl⟩ | ⟨_, rfl, rfl⟩
  · refine ⟨⟨before.log, before.candidate, before.matched, before.commit, ?_⟩, ?_⟩
    · rintro guard _ _ ⟨⟩
      exact before.ticker guard entries count ticking
    · intro guard _
      refine ⟨_, entry, ?_, rfl, before.ticker guard entries count ticking count entry found⟩
      exact Nat.add_right_comm _ 1 count
  · refine ⟨⟨before.log, before.candidate, before.matched, before.commit,
      fun _ _ _ ticking => nomatch ticking⟩, ?_⟩
    intro _ valid
    cases valid

theorem Refines.finish (refines : cluster.Refines guarded history)
    (stepped : cluster.Step event next) (finished : (cluster.servers server).finish = some rf) :
    rf.Refines guarded (next.castVotes history) server := by
  have before := refines.castVotes_server stepped server
  rcases Raft.finish_cases finished with ⟨_, _, rfl⟩ | ⟨_, rfl⟩
  · exact ⟨before.log, before.candidate, before.matched, before.commit,
      fun _ _ _ ticking => nomatch ticking⟩
  · refine ⟨before.log, before.candidate, before.matched, ?_,
      fun _ _ _ ticking => nomatch ticking⟩
    intro guard
    exact (before.commit guard).max (.inl before.log.snapLastIdx.le)

theorem Refines.restart (refines : cluster.Refines guarded history)
    (stepped : cluster.Step event next) (server : Fin n) :
    (Raft.make server (cluster.servers server).persister).Refines guarded
      (next.castVotes history) server := by
  have before := refines.castVotes_server stepped server
  rw [Raft.make_eq_of_durable (refines.voting.durable server)]
  exact ⟨before.log, nofun, nofun, fun _ => .inl before.log.snapLastIdx.le,
    fun _ _ _ ticking => nomatch ticking⟩

end Cluster

end MultiRaft
