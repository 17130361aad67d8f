import MultiRaft.Raft.Safety

/-!
# What a leader commits

The success replies a leader counts come from servers that had its log up to the
index they acknowledge, at a time when they were in its term.  They may have lost
it again since, so the evidence is a state the run passed through.
-/

namespace MultiRaft

variable {n : Nat} {Command : Type}

namespace Cluster

/-- In the state or one that was passed before it, the server was in the term and
had the beginning of the log of the term's leader. -/
def Witnessed (past : List (Cluster n Command × Event n Command)) (cluster : Cluster n Command)
    (history : History n Command) (server : Fin n) (term length : Nat) : Prop :=
  ∃ earlier, (earlier = cluster ∨ ∃ event, (earlier, event) ∈ past) ∧
    (earlier.servers server).currentTerm = term ∧
    ∀ position < length, (earlier.servers server).log.entryAt (position + 1) =
      (history.leaderLog term)[position]?

variable {past : List (Cluster n Command × Event n Command)} {cluster next : Cluster n Command}
  {history new : History n Command} {event : Event n Command} {server : Fin n}
  {term length : Nat}

/-- Evidence stays evidence when the leader's log grows. -/
theorem Witnessed.step (witnessed : cluster.Witnessed past history server term length)
    (grown : history.leaderLog term <+: new.leaderLog term)
    (within : length ≤ (history.leaderLog term).length) :
    next.Witnessed ((cluster, event) :: past) new server term length := by
  obtain ⟨earlier, when, sameTerm, agrees⟩ := witnessed
  refine ⟨earlier, .inr ?_, sameTerm, ?_⟩
  · rcases when with rfl | ⟨taken, member⟩
    · exact ⟨event, List.mem_cons_self⟩
    · exact ⟨taken, List.mem_cons_of_mem _ member⟩
  · intro position before
    have inOld : position < (history.leaderLog term).length := by omega
    rw [agrees position before, List.prefix_iff_getElem?.mp grown position inOld]
    exact List.getElem?_eq_getElem inOld

/-- In a run without compaction a server reads the log it stands for. -/
theorem Refines.reads (refines : cluster.Refines False history) (server : Fin n)
    (position : Nat) :
    (cluster.servers server).log.entryAt (position + 1) = (history.log server)[position]? := by
  refine (refines.servers server).log.entryAt_of_lt ?_
  rw [refines.sound.whole not_false server]
  exact Nat.succ_pos position

/-- A server shows now what it has taken over in this step. -/
theorem Refines.witnessed_of_shows (refines : cluster.Refines False history)
    (shows : history.Shows server term length)
    (within : length ≤ (history.leaderLog term).length) :
    cluster.Witnessed past history server term length := by
  obtain ⟨sameTerm, taken⟩ := shows
  refine ⟨cluster, .inl rfl, (refines.voting.tracks.term_eq server).symm.trans sameTerm, ?_⟩
  intro position before
  have inFront : position < ((history.leaderLog term).take length).length := by
    rw [List.length_take]
    omega
  rw [refines.reads, List.prefix_iff_getElem?.mp taken position inFront, List.getElem_take]
  exact (List.getElem?_eq_getElem _).symm

/-- Everything acknowledged was shown in the state or one that was passed before. -/
def Evident (past : List (Cluster n Command × Event n Command)) (cluster : Cluster n Command) :
    Prop :=
  ∃ history, cluster.Refines False history ∧ ∀ server term, 0 < history.ack server term →
    cluster.Witnessed past history server term (history.ack server term)

theorem evident_of_trace
    (trace : (raftSystem n Command).Trace (fun _ event => event.uncompacted = true) past cluster) :
    cluster.Evident past := by
  have start : ∀ state, (raftSystem n Command).init state → state.Evident [] := by
    rintro _ rfl
    exact ⟨_, refines_initial False, nofun⟩
  refine trace.preserves start ?_
  rintro past state event next ⟨history, refines, evidence⟩ allowed stepped
  obtain ⟨new, refined, progress⟩ :=
    refines.step (state.permitted_of_uncompacted allowed) (step_cases stepped)
  refine ⟨new, refined, ?_⟩
  intro server term positive
  rcases progress.shows server term with old | shows
  · have elected : history.Elected term := by
      by_contra vacant
      have none : history.ack server term = 0 := refines.sound.matching.ack_vacant vacant
      omega
    have same := old.antisymm (progress.ack server term elected)
    rw [same] at positive ⊢
    exact (evidence server term positive).step (progress.leaderLog term elected)
      (refines.sound.matching.ack_le server term)
  · exact refined.witnessed_of_shows shows (refined.sound.matching.ack_le server term)

/-- The callback of `AppendEntries` finds its goroutine out of date or runs. -/
theorem deliver_appendReply {index : Nat} {packet : Packet n Command}
    {args : AppendEntriesArgs n Command} {reply : AppendEntriesReply}
    (stepped : cluster.Step (.deliver index) next) (found : cluster.net[index]? = some packet)
    (body : packet.body = .appendReply args reply) :
    next.servers packet.caller = cluster.servers packet.caller ∨
      (cluster.servers packet.caller).appendReply packet.peer args reply =
        some (next.servers packet.caller) := by
  cases stepped with
  | lateReply => exact .inl rfl
  | appendReply _ packet' args' reply' rf found' body' handled =>
      rw [found] at found'
      cases found'
      rw [body] at body'
      cases body'
      simp only [setServer_servers_self]
      exact .inr handled
  | voteRequest _ _ _ found' body' | appendRequest _ _ _ _ _ found' body'
  | snapshotRequest _ _ _ _ _ found' body' | voteReply _ _ _ _ found' body'
  | snapshotReply _ _ _ _ found' body' =>
      rw [found] at found'
      cases found'
      exact nomatch body.symm.trans body'

end Cluster

/-- A callback that raises the commit index of its leader leaves the rest of it
as it was, and the index is the majority of what the leader has seen matched. -/
theorem Raft.appendReply_raises {rf next : Raft n Command} {peer : Fin n}
    {args : AppendEntriesArgs n Command} {reply : AppendEntriesReply}
    (handled : rf.appendReply peer args reply = some next)
    (raised : rf.commitIndex < next.commitIndex) :
    rf.currentTerm = args.term ∧ rf.role = .leader ∧ reply.success = true ∧
      next.currentTerm = rf.currentTerm ∧ next.log = rf.log ∧
      next.matchIndex = Function.update rf.matchIndex peer
        (args.prevLogIndex + args.entries.length) ∧
      next.getMajorityIndexLocked = some next.commitIndex ∧
      ∃ entry, rf.log.entryAt next.commitIndex = some entry ∧ entry.term = rf.currentTerm := by
  rcases Raft.appendReply_cases handled with
    ⟨later, rfl⟩ | rfl | ⟨_, _, _, rfl⟩ | ⟨sameTerm, leads, success, majority, picked, result⟩
  · rw [becomeFollowerLocked_commitIndex rf later.le] at raised
    exact absurd raised (Nat.lt_irrefl _)
  · exact absurd raised (Nat.lt_irrefl _)
  · exact absurd raised (Nat.lt_irrefl _)
  · rcases result with rfl | ⟨_, entry, found, own, rfl⟩
    · exact absurd raised (Nat.lt_irrefl _)
    · exact ⟨sameTerm, leads, success, rfl, rfl, rfl, picked, entry, found, own⟩

/-- Where nothing is compacted, a leader that raises its commit index has an entry
of its term there, and a majority had its log up to that index in its term. -/
theorem commit_rule {past : List (Cluster n Command × Event n Command)}
    {cluster next : Cluster n Command}
    (trace : (raftSystem n Command).Trace (fun _ event => event.uncompacted = true) past cluster)
    {index : Nat} {packet : Packet n Command} {args : AppendEntriesArgs n Command}
    {reply : AppendEntriesReply} (found : cluster.net[index]? = some packet)
    (body : packet.body = .appendReply args reply)
    (stepped : (raftSystem n Command).step cluster (.deliver index) = some next)
    (raised : (cluster.servers packet.caller).commitIndex <
      (next.servers packet.caller).commitIndex) :
    (∃ entry, (next.servers packet.caller).log.entryAt (next.servers packet.caller).commitIndex =
        some entry ∧ entry.term = (next.servers packet.caller).currentTerm) ∧
    ∃ peers : Finset (Fin n), Majority peers ∧ ∀ peer ∈ peers,
      ∃ earlier event, (earlier, event) ∈ (cluster, .deliver index) :: past ∧
        (earlier.servers peer).currentTerm = (next.servers packet.caller).currentTerm ∧
        ∀ position, 1 ≤ position → position ≤ (next.servers packet.caller).commitIndex →
          ∃ entry, (earlier.servers peer).log.entryAt position = some entry ∧
            (next.servers packet.caller).log.entryAt position = some entry := by
  obtain ⟨history, refines, evidence⟩ := Cluster.evident_of_trace trace
  rcases Cluster.deliver_appendReply (Cluster.step_cases stepped) found body with same | handled
  · rw [same] at raised
    exact absurd raised (Nat.lt_irrefl _)
  obtain ⟨sameTerm, leads, success, term, log, matchIndex, picked, entry, atIndex, own⟩ :=
    Raft.appendReply_raises handled raised
  rw [term, log]
  refine ⟨⟨entry, atIndex, own⟩, _, majority_of_median picked, ?_⟩
  -- what the leader counted is acknowledged
  have matched : ∀ peer, (next.servers packet.caller).matchIndex peer ≤
      history.ack peer (cluster.servers packet.caller).currentTerm := by
    intro peer
    rw [matchIndex]
    by_cases counted : peer = packet.peer
    · subst counted
      have carries := refines.packets packet (List.mem_of_getElem? found)
      simp only [Packet.Carries, body] at carries
      rw [Function.update_self, sameTerm]
      exact (carries success).2
    · rw [Function.update_of_ne counted]
      rcases (refines.servers packet.caller).matched leads peer with taken | compacted
      · exact taken
      · rw [refines.sound.whole not_false packet.caller] at compacted
        exact compacted.trans (Nat.zero_le _)
  -- and the leader's log is the log of its term
  have current : history.log packet.caller =
      history.leaderLog (cluster.servers packet.caller).currentTerm :=
    refines.sound.matching.leading _ _ (refines.voting.tracks.leading packet.caller leads)
      (refines.voting.tracks.term_eq packet.caller)
  intro peer member
  have reached := ((Finset.mem_filter.mp member).2).trans (matched peer)
  obtain ⟨earlier, when, inTerm, agrees⟩ := evidence peer _ ((Nat.zero_le _).trans_lt
    (raised.trans_le reached))
  have passed : ∃ event, (earlier, event) ∈ (cluster, .deliver index) :: past := by
    rcases when with rfl | ⟨event, passed⟩
    · exact ⟨_, List.mem_cons_self⟩
    · exact ⟨event, List.mem_cons_of_mem _ passed⟩
  obtain ⟨event, passed⟩ := passed
  refine ⟨earlier, event, passed, inTerm, ?_⟩
  intro position positive bound
  have within := refines.sound.matching.ack_le peer (cluster.servers packet.caller).currentTerm
  have inLeader := List.getElem?_eq_getElem (show position - 1 <
    (history.leaderLog (cluster.servers packet.caller).currentTerm).length by omega)
  have reads := refines.reads packet.caller (position - 1)
  have agreed := agrees (position - 1) (by omega)
  rw [Nat.sub_add_cancel positive] at reads agreed
  rw [current] at reads
  exact ⟨_, agreed.trans inLeader, reads.trans inLeader⟩

/-- Server 0 of three has the reply of server 1 to its first command under way. -/
def acknowledgedCluster : Cluster 3 Nat :=
  (raftSystem 3 Nat).after (fun _ => Event.uncompacted) (Cluster.initial 3 Nat)
    [.electionTimeout 0, .startElection 0, .deliver 0, .deliver 0, .start 0 (some 10),
     .startReplication 0 2, .deliver 1]

theorem commit_rule_acknowledged :
    (acknowledgedCluster.servers 0).commitIndex = 0 ∧
    ∃ next, ∃ past : List (Cluster 3 Nat × Event 3 Nat),
      acknowledgedCluster.step (.deliver 1) = some next ∧
      (next.servers 0).commitIndex = 1 ∧
      ∃ peers : Finset (Fin 3), Majority peers ∧ ∀ peer ∈ peers,
        ∃ earlier event, (earlier, event) ∈ (acknowledgedCluster, .deliver 1) :: past ∧
          (earlier.servers peer).currentTerm = 2 ∧
          ∀ position, 1 ≤ position → position ≤ 1 →
            ∃ entry, (earlier.servers peer).log.entryAt position = some entry ∧
              (next.servers 0).log.entryAt position = some entry := by
  have reached : (raftSystem 3 Nat).Reachable (fun _ event => event.uncompacted = true)
      acknowledgedCluster :=
    ⟨_, rfl, System.run_after (fun _ => Event.uncompacted) _ _⟩
  obtain ⟨past, trace⟩ := reached.trace
  have found : acknowledgedCluster.net[1]? = some
      { caller := 0, incarnation := 0, peer := 1,
        body := .appendReply
          { term := 2, leaderId := 0, prevLogIndex := 0, prevLogTerm := 0,
            entries := [{ term := 2, commandValid := true, command := some 10 }],
            leaderCommit := 0 }
          { term := 2, success := true } } := rfl
  have stepped : (raftSystem 3 Nat).step acknowledgedCluster (.deliver 1) = some _ := rfl
  exact ⟨rfl, _, past, stepped, rfl, (commit_rule trace found rfl stepped (by decide)).2⟩

end MultiRaft
