import MultiRaft.Raft.AppendOnly
import MultiRaft.Raft.Election

/-!
# No log access panics

The handlers, the compaction and the apply loop check the indices they look up.
A leader relies on its tables instead: `nextIndex` never points beyond the end of
its log, and a `matchIndex` above the commit index is not compacted.  The second
holds also for a leader with an installed snapshot that is not applied yet, whose
commit index is still below `snapLastIdx`.
-/

namespace MultiRaft

variable {n : Nat} {Command : Type}

/-- The term and the index that the reply in the call lets a leader count. -/
def Call.offers : Call n Command → Option (Nat × Nat)
  | .appendReply _ args _ => some (args.term, args.prevLogIndex + args.entries.length)
  | .installReply _ args _ => some (args.term, args.lastIncludedIndex)
  | _ => none

namespace Raft

theorem isSome_appendEntries (rf : Raft n Command) (args : AppendEntriesArgs n Command) :
    (rf.appendEntries args).isSome := by
  unfold appendEntries
  dsimp only
  split
  · rfl
  split
  · rfl
  split
  · rfl
  · rename_i below above
    obtain ⟨prev, found⟩ := Option.isSome_iff_exists.mp
      (RaftLog.isSome_entryAt (not_lt.mp above) (not_le.mp below))
    rw [found]
    simp only [Option.bind_eq_bind, Option.bind_some]
    split
    · rfl
    · rw [RaftLog.appendFrom, RaftLog.idx_of_mem (not_lt.mp above) (not_le.mp below)]
      rfl

theorem isSome_installSnapshot (rf : Raft n Command) (args : InstallSnapshotArgs n) :
    (rf.installSnapshot args).isSome := by
  unfold installSnapshot
  dsimp only
  split
  · rfl
  split
  · rfl
  · rename_i newer
    obtain ⟨log, written⟩ := Option.isSome_iff_exists.mp
      (RaftLog.isSome_installSnapshot (not_le.mp newer) args.lastIncludedTerm args.snapshot)
    rw [written]
    rfl

theorem isSome_snapshot (rf : Raft n Command) (index : Nat) (bytes : Bytes) :
    (rf.snapshot index bytes).isSome := by
  unfold snapshot
  split
  · rfl
  split
  · rfl
  · rw [RaftLog.doSnapshot]
    split
    · rfl
    · rename_i inside
      have below : index < rf.log.size := by omega
      have found := RaftLog.isSome_entryAt (by omega) below
      rw [RaftLog.entryAt_of_mem (by omega) below] at found
      obtain ⟨entry, found⟩ := Option.isSome_iff_exists.mp found
      rw [RaftLog.idx_of_mem (by omega) below]
      simp only [Option.bind_eq_bind, Option.bind_some, found]
      rfl

variable {rf : Raft n Command}

theorem isSome_collect (waiting : rf.ticker = .waiting) :
    rf.collect.isSome := by
  simp only [collect, waiting]
  split
  · rfl
  · suffices reads : ∀ key ∈ List.range'
        ((if rf.lastApplied < rf.log.snapLastIdx then rf.log.snapLastIdx else rf.lastApplied) + 1)
        ((if rf.commitIndex ≥ rf.log.size then rf.log.size - 1 else rf.commitIndex) -
          (if rf.lastApplied < rf.log.snapLastIdx then rf.log.snapLastIdx else rf.lastApplied)),
        (rf.log.entryAt key).isSome by
      obtain ⟨entries, read⟩ := Option.isSome_iff_exists.mp (isSome_mapM reads)
      rw [read]
      rfl
    intro key member
    have above : rf.log.snapLastIdx ≤
        if rf.lastApplied < rf.log.snapLastIdx then rf.log.snapLastIdx else rf.lastApplied := by
      split <;> omega
    have below : (if rf.commitIndex ≥ rf.log.size then rf.log.size - 1 else rf.commitIndex) ≤
        rf.log.size - 1 := by
      split <;> omega
    rw [List.mem_range'_1] at member
    exact RaftLog.isSome_entryAt (by omega) (by omega)

/-- The log has the index, and it is not compacted unless it is committed. -/
def Fits (rf : Raft n Command) (index : Nat) : Prop :=
  index < rf.log.size ∧ (index ≤ rf.commitIndex ∨ rf.log.snapLastIdx ≤ index)

def Tracking (rf : Raft n Command) : Prop :=
  rf.role = .leader → ∀ peer, rf.nextIndex peer ≤ rf.log.size ∧ rf.Fits (rf.matchIndex peer)

theorem Fits.isSome_entryAt {index : Nat} (fits : rf.Fits index) (beyond : rf.commitIndex < index) :
    (rf.log.entryAt index).isSome := by
  obtain ⟨below, committed | above⟩ := fits
  · omega
  · exact RaftLog.isSome_entryAt above below

variable {call : Call n Command}

/-- A leader that stays one can look up what it could before: it compacts only what
is committed. -/
theorem Proceeds.fits {next : Raft n Command} (proceeds : Proceeds rf next call)
    (leads : next.role = .leader) {index : Nat} (fits : rf.Fits index) : next.Fits index := by
  obtain ⟨below, available⟩ := fits
  have commit := proceeds.commit
  refine ⟨below.trans_le (proceeds.log.continues leads).size, ?_⟩
  cases proceeds.log with
  | kept log =>
      rw [log]
      exact available.imp_left commit.trans'
  | append _ _ _ log =>
      rw [log]
      exact available.imp_left commit.trans'
  | adopt _ role => exact nomatch leads.symm.trans role
  | install _ role => exact nomatch leads.symm.trans role
  | compact _ _ committed _ log =>
      rcases RaftLog.doSnapshot_snapLastIdx log with same | moved
      · rw [same]
        exact available.imp_left commit.trans'
      · rw [moved]
        omega

theorem Tracking.of_same {next : Raft n Command} (tracking : rf.Tracking)
    (handled : rf.handle call = some next) (role : next.role = .leader → rf.role = .leader)
    (nextIndex : next.nextIndex = rf.nextIndex) (matchIndex : next.matchIndex = rf.matchIndex) :
    next.Tracking := by
  intro leads peer
  have proceeds := proceeds_handle handled
  obtain ⟨behind, fits⟩ := tracking (role leads) peer
  rw [nextIndex, matchIndex]
  exact ⟨behind.trans (proceeds.log.continues leads).size, proceeds.fits leads fits⟩

theorem Tracking.of_follower (role : rf.role = .follower) : rf.Tracking :=
  fun leads => nomatch leads.symm.trans role

theorem Tracking.aligned (tracking : rf.Tracking) {term : Nat} (current : rf.currentTerm ≤ term) :
    (rf.aligned term).Tracking := by
  rcases rf.aligned_cases current with ⟨_, result⟩ | ⟨_, result⟩
  · rw [result]
    exact tracking
  · rw [result]
    exact .of_follower rfl

/-- A late reply never moves the probe forward. -/
theorem nextProbe_le (rf : Raft n Command) (peer : Fin n) (reply : AppendEntriesReply) :
    rf.nextProbe peer reply ≤ rf.nextIndex peer := by
  have capped : ∀ probe : Nat,
      (if probe > rf.nextIndex peer then rf.nextIndex peer else probe) ≤ rf.nextIndex peer := by
    intro probe
    split <;> omega
  exact capped _

variable {peer : Fin n}

theorem nextProbe_pos {reply : AppendEntriesReply} (positive : 0 < rf.nextIndex peer)
    (proper : 0 < reply.conflictIndex) :
    0 < rf.nextProbe peer reply := by
  have capped : ∀ probe : Nat, 0 < probe →
      0 < if probe > rf.nextIndex peer then rf.nextIndex peer else probe := by
    intro probe valid
    split
    · exact positive
    · exact valid
  apply capped
  split
  · exact proper
  · dsimp only
    split
    · rename_i valid
      exact Nat.pos_of_ne_zero valid
    · exact proper

/-- A server that counts an index it can look up. -/
theorem Tracking.count {next : Raft n Command} (peer : Fin n) (index : Nat) (tracking : rf.Tracking)
    (handled : rf.handle call = some next) (leads : rf.role = .leader) (fits : rf.Fits index)
    (nextIndex : next.nextIndex = Function.update rf.nextIndex peer (index + 1))
    (matchIndex : next.matchIndex = Function.update rf.matchIndex peer index) :
    next.Tracking := by
  intro stillLeads other
  have proceeds := proceeds_handle handled
  have size := (proceeds.log.continues stillLeads).size
  rw [nextIndex, matchIndex]
  by_cases same : other = peer
  · subst same
    rw [Function.update_self, Function.update_self]
    exact ⟨fits.1.trans_le size, proceeds.fits stillLeads fits⟩
  · rw [Function.update_of_ne same, Function.update_of_ne same]
    obtain ⟨behind, before⟩ := tracking leads other
    exact ⟨behind.trans size, proceeds.fits stillLeads before⟩

theorem Tracking.handle {next : Raft n Command} (tracking : rf.Tracking) (headed : rf.log.Headed)
    (offered : ∀ term index, call.offers = some (term, index) → rf.role = .leader →
      rf.currentTerm = term → rf.Fits index) (handled : rf.handle call = some next) :
    next.Tracking := by
  have nonempty := headed.snapLastIdx_lt
  cases handle_outcome handled with
  | stay => exact tracking
  | follow _ term current => exact .of_follower (rf.becomeFollowerLocked_role current)
  | stand => exact nofun
  | vote args current => exact tracking.aligned current
  | win => exact fun _ _ => ⟨le_rfl, (Nat.zero_le _).trans_lt nonempty, .inl (Nat.zero_le _)⟩
  | adopt args prev log current =>
      exact .of_follower (rf.becomeFollowerLocked_role current)
  | install args log current =>
      exact .of_follower (rf.becomeFollowerLocked_role current)
  | replicate term sameTerm leads =>
      refine tracking.count rf.me (rf.log.size - 1) handled leads ?_ ?_ rfl
      · exact ⟨by omega, .inr (by omega)⟩
      · rw [Nat.sub_add_cancel (by omega)]
  | probe peer args reply sameTerm leads =>
      intro _ other
      obtain ⟨behind, fits⟩ := tracking leads other
      refine ⟨?_, fits⟩
      dsimp only
      by_cases same : other = peer
      · subst same
        rw [Function.update_self]
        exact (rf.nextProbe_le other reply).trans behind
      · rw [Function.update_of_ne same]
        exact behind
  | count peer args reply sameTerm leads =>
      exact tracking.count peer _ handled leads (offered _ _ rfl leads sameTerm) rfl rfl
  | commit peer args reply majority sameTerm leads =>
      exact tracking.count peer _ handled leads (offered _ _ rfl leads sameTerm) rfl rfl
  | ship peer args reply sameTerm leads =>
      exact tracking.count peer _ handled leads (offered _ _ rfl leads sameTerm) rfl rfl
  | start | compact | awaitSnapshot | collect | sendEntry | sendSnapshot | bookEntries
  | bookSnapshot => exact tracking.of_same handled id rfl rfl

theorem isSome_replicate (behind : rf.nextIndex peer ≤ rf.log.size) :
    (rf.replicate peer).isSome := by
  unfold replicate
  split
  · rfl
  · rename_i beyond
    have inside : (rf.log.entryAt (rf.nextIndex peer - 1)).isSome :=
      RaftLog.isSome_entryAt (by omega) (by omega)
    obtain ⟨prev, found⟩ := Option.isSome_iff_exists.mp inside
    dsimp only
    rw [found]
    simp only [Option.bind_eq_bind, Option.bind_some, RaftLog.tail]
    split
    · rfl
    · rw [if_neg (by omega), RaftLog.idx_of_mem (by omega) (by omega)]
      rfl

theorem Tracking.isSome_startReplication (tracking : rf.Tracking) (term : Nat) :
    (rf.startReplication term).isSome := by
  unfold startReplication
  split
  · rfl
  · rename_i kept
    rw [Bool.not_eq_true] at kept
    obtain ⟨_, leads⟩ := contextLostLocked_eq_false.mp kept
    suffices made : ∀ peer ∈ (List.finRange n).filter (· ≠ rf.me),
        (({ rf with
            matchIndex := Function.update rf.matchIndex rf.me (rf.log.size - 1)
            nextIndex := Function.update rf.nextIndex rf.me rf.log.size }.replicate peer).map
          (peer, ·)).isSome by
      obtain ⟨requests, collected⟩ := Option.isSome_iff_exists.mp (isSome_mapM made)
      dsimp only
      rw [collected]
      rfl
    intro peer member
    have other : peer ≠ rf.me := of_decide_eq_true (List.mem_filter.mp member).2
    rw [Option.isSome_map]
    apply isSome_replicate
    dsimp only
    rw [Function.update_of_ne other]
    exact (tracking leads peer).1

theorem Tracking.isSome_appendReply (tracking : rf.Tracking) {args : AppendEntriesArgs n Command}
    (reply : AppendEntriesReply)
    (fits : rf.role = .leader → rf.currentTerm = args.term →
      rf.Fits (args.prevLogIndex + args.entries.length)) :
    (rf.appendReply peer args reply).isSome := by
  unfold appendReply
  split
  · rfl
  split
  · rfl
  rename_i kept
  rw [Bool.not_eq_true] at kept
  obtain ⟨sameTerm, leads⟩ := contextLostLocked_eq_false.mp kept
  split
  · -- the probe is read only if it is not compacted
    dsimp only
    split
    · rename_i beyond
      have capped := (rf.nextProbe_le peer reply).trans (tracking leads peer).1
      have inside : (rf.log.entryAt (rf.nextProbe peer reply - 1)).isSome :=
        RaftLog.isSome_entryAt (by omega) (by omega)
      obtain ⟨entry, found⟩ := Option.isSome_iff_exists.mp inside
      rw [found]
      rfl
    · rfl
  · obtain ⟨server, median⟩ := exists_median (Function.update rf.matchIndex peer
      (args.prevLogIndex + args.entries.length)) peer.pos
    have counted : rf.Fits (Function.update rf.matchIndex peer
        (args.prevLogIndex + args.entries.length) server) := by
      by_cases same : server = peer
      · rw [same, Function.update_self]
        exact fits leads sameTerm
      · rw [Function.update_of_ne same]
        exact (tracking leads server).2
    simp only [getMajorityIndexLocked, median, Option.bind_eq_bind, Option.bind_some]
    split
    · rename_i more
      obtain ⟨entry, found⟩ := Option.isSome_iff_exists.mp (counted.isSome_entryAt more)
      rw [found]
      simp only [Option.bind_some]
      split <;> rfl
    · rfl

/-- What a leader sends lets it count an index that it can look up. -/
theorem fits_of_replicate_append {args : AppendEntriesArgs n Command}
    (made : rf.replicate peer = some (.append args)) :
    args.term = rf.currentTerm ∧ rf.Fits (args.prevLogIndex + args.entries.length) := by
  rcases replicate_cases made with wrong | ⟨prevIdx, prev, entries, found, read, result⟩
  · cases wrong
  · cases result
    have above := (RaftLog.entryAt_bounds found).1
    have full := RaftLog.length_of_tail found read
    exact ⟨rfl, Nat.lt_of_succ_le full.le, .inr (above.trans (Nat.le_add_right _ _))⟩

theorem fits_of_replicate_snapshot {args : InstallSnapshotArgs n} (headed : rf.log.Headed)
    (made : rf.replicate peer = some (.snapshot args)) :
    args.term = rf.currentTerm ∧ rf.Fits args.lastIncludedIndex := by
  rcases replicate_cases made with result | ⟨_, _, _, _, _, wrong⟩
  · cases result
    exact ⟨rfl, headed.snapLastIdx_lt, .inr le_rfl⟩
  · cases wrong

/-- The tail of a log starts with its mock entry, whatever a section does. -/
theorem LogStep.headed {next : Raft n Command} (step : LogStep rf next call)
    (headed : rf.log.Headed) : next.log.Headed := by
  cases step with
  | kept log =>
      rw [log]
      exact headed
  | append _ _ _ log =>
      rw [log]
      exact headed.append _
  | adopt _ _ _ _ _ log => exact headed.appendFrom log
  | install _ _ _ _ log => exact headed.installSnapshot log
  | compact _ _ _ _ log => exact headed.doSnapshot log

end Raft

/-- The term and the index that the packet will let its caller count. -/
def Packet.offers (packet : Packet n Command) : Option (Nat × Nat) :=
  match packet.body with
  | .appendRequest args => some (args.term, args.prevLogIndex + args.entries.length)
  | .appendReply args _ => some (args.term, args.prevLogIndex + args.entries.length)
  | .snapshotRequest args => some (args.term, args.lastIncludedIndex)
  | .snapshotReply args _ => some (args.term, args.lastIncludedIndex)
  | _ => none

namespace Cluster

/-- The server led the term before, and as long as it still does it can look up the
index. -/
def Offers (cluster : Cluster n Command) (leader : Fin n) (term index : Nat) : Prop :=
  term ≤ (cluster.servers leader).currentTerm ∧
  ((cluster.servers leader).role = .candidate → term < (cluster.servers leader).currentTerm) ∧
  ((cluster.servers leader).role = .leader → (cluster.servers leader).currentTerm = term →
    (cluster.servers leader).Fits index)

structure Bounded (cluster : Cluster n Command) : Prop where
  headed : ∀ server, (cluster.servers server).log.Headed
  tracking : ∀ server, (cluster.servers server).Tracking
  packets : ∀ packet ∈ cluster.net, ∀ term index, packet.offers = some (term, index) →
    cluster.Offers packet.caller term index

variable {cluster next : Cluster n Command} {ballots : Ballots (Fin n)} {event : Event n Command}

theorem Offers.of_leader {leader : Fin n} {term index : Nat}
    (leads : (cluster.servers leader).role = .leader)
    (sameTerm : term = (cluster.servers leader).currentTerm)
    (fits : (cluster.servers leader).Fits index) : cluster.Offers leader term index := by
  refine ⟨sameTerm.le, ?_, fun _ _ => fits⟩
  intro isCandidate
  exact nomatch isCandidate.symm.trans leads

theorem Offers.step {leader : Fin n} {term index : Nat} (offers : cluster.Offers leader term index)
    (voting : cluster.Voting ballots) (stepped : cluster.Step event next) :
    next.Offers leader term index := by
  obtain ⟨reached, past, fits⟩ := offers
  rcases stepped.servers leader with same | ⟨call, handled, _⟩ | ⟨_, restarted⟩
  · rw [Offers, same]
    exact ⟨reached, past, fits⟩
  · have proceeds := Raft.proceeds_handle handled
    have election := Raft.electionStep_handle (voting.selfVoted leader) handled
    refine ⟨reached.trans election.evolves.term_le, ?_, ?_⟩
    · intro isCandidate
      rcases proceeds.candidate isCandidate with ⟨before, sameTerm⟩ | later
      · rw [sameTerm]
        exact past before
      · exact reached.trans_lt later
    · intro leads current
      rcases election.leads leads with
        ⟨led, sameTerm⟩ | ⟨_, _, _, _, isCandidate, before, now, _⟩
      · exact proceeds.fits leads (fits led (sameTerm.symm.trans current))
      · -- nothing was sent in a term that is only won now
        have earlier := past isCandidate
        omega
  · rw [Offers, restarted, Raft.make_eq_of_durable (voting.durable leader)]
    exact ⟨reached, nofun, nofun⟩

theorem Bounded.offers_of_arises (bounded : cluster.Bounded) {packet : Packet n Command}
    (arises : cluster.Arises packet) {term index : Nat}
    (offered : packet.offers = some (term, index)) : cluster.Offers packet.caller term index := by
  cases arises with
  | kept member => exact bounded.packets packet member term index offered
  | appended reply member body =>
      refine bounded.packets _ member term index ?_
      simpa only [Packet.offers, body] using offered
  | installed reply member body =>
      refine bounded.packets _ member term index ?_
      simpa only [Packet.offers, body] using offered
  | voted | asked => cases offered
  | @replicated leader peer _ args leads request =>
      cases offered
      obtain ⟨sameTerm, fits⟩ := Raft.fits_of_replicate_append request
      exact .of_leader leads sameTerm fits
  | @shipped leader peer _ args leads request =>
      cases offered
      obtain ⟨sameTerm, fits⟩ := Raft.fits_of_replicate_snapshot (bounded.headed leader) request
      exact .of_leader leads sameTerm fits

/-- A reply that a server handles offers what its packet does. -/
theorem Bounded.fits_of_receives (bounded : cluster.Bounded) {server : Fin n}
    {call : Call n Command} (receives : cluster.Receives event server call) {term index : Nat}
    (offered : call.offers = some (term, index)) (leads : (cluster.servers server).role = .leader)
    (sameTerm : (cluster.servers server).currentTerm = term) :
    (cluster.servers server).Fits index := by
  cases call with
  | appendReply peer args reply =>
      cases offered
      obtain ⟨packet, member, body, rfl, _⟩ := receives
      exact (bounded.packets packet member _ _ (by simp [Packet.offers, body])).2.2 leads sameTerm
  | installReply peer args reply =>
      cases offered
      obtain ⟨packet, member, body, rfl, _⟩ := receives
      exact (bounded.packets packet member _ _ (by simp [Packet.offers, body])).2.2 leads sameTerm
  | _ => cases offered

theorem Bounded.step (bounded : cluster.Bounded) (voting : cluster.Voting ballots)
    (stepped : cluster.Step event next) : next.Bounded where
  headed server := by
    rcases stepped.servers server with same | ⟨call, handled, _⟩ | ⟨_, restarted⟩
    · rw [same]
      exact bounded.headed server
    · exact (Raft.proceeds_handle handled).log.headed (bounded.headed server)
    · rw [restarted, Raft.make_eq_of_durable (voting.durable server)]
      exact bounded.headed server
  tracking server := by
    rcases stepped.moves server with same | ⟨call, handled, _, receives⟩ | ⟨_, restarted⟩
    · rw [same]
      exact bounded.tracking server
    · exact (bounded.tracking server).handle (bounded.headed server)
        (fun _ _ offered => bounded.fits_of_receives receives offered) handled
    · apply Raft.Tracking.of_follower
      rw [restarted, Raft.make_role]
  packets packet member term index offered :=
    (bounded.offers_of_arises (stepped.arises packet member) offered).step voting stepped

theorem bounded_of_reachable {allowed : Cluster n Command → Event n Command → Prop}
    (reached : (raftSystem n Command).Reachable allowed cluster) : cluster.Bounded := by
  have start : ∀ state, (raftSystem n Command).init state → state.Bounded := by
    rintro _ rfl
    exact ⟨fun _ => RaftLog.headed_newLog _ _ _ _, fun _ => .of_follower rfl, nofun⟩
  refine reached.invariant start ?_
  intro state event next before bounded _ stepped
  obtain ⟨ballots, voting⟩ := voting_of_reachable before
  exact bounded.step voting (step_cases stepped)

end Cluster

/-- In every reachable state every section finds the entries it looks up: a request, a
round of replication, a compaction, the apply loop, and every reply under way. -/
theorem log_access_in_range {cluster : Cluster n Command}
    (reached : (raftSystem n Command).Reachable System.anyStep cluster) (server : Fin n) :
    (∀ args, ((cluster.servers server).appendEntries args).isSome) ∧
    (∀ args, ((cluster.servers server).installSnapshot args).isSome) ∧
    (∀ index bytes, ((cluster.servers server).snapshot index bytes).isSome) ∧
    (∀ term, ((cluster.servers server).startReplication term).isSome) ∧
    ((cluster.servers server).ticker = .waiting → (cluster.servers server).collect.isSome) ∧
    ∀ packet ∈ cluster.net, packet.caller = server → ∀ args reply,
      packet.body = .appendReply args reply →
      ((cluster.servers server).appendReply packet.peer args reply).isSome := by
  have bounded := Cluster.bounded_of_reachable reached
  refine ⟨Raft.isSome_appendEntries _, Raft.isSome_installSnapshot _, Raft.isSome_snapshot _,
    (bounded.tracking server).isSome_startReplication, Raft.isSome_collect, ?_⟩
  rintro packet member rfl args reply body
  apply (bounded.tracking packet.caller).isSome_appendReply reply
  exact (bounded.packets packet member _ _ (by simp [Packet.offers, body])).2.2

/-- Server 2 leads term 3 with an installed snapshot that it has not applied yet. -/
def snapshotLeaderCluster : Cluster 3 Nat :=
  (raftSystem 3 Nat).after (fun _ _ => true) (Cluster.initial 3 Nat)
    [.electionTimeout 0, .startElection 0, .deliver 0, .deliver 0, .start 0 (some 10),
     .startReplication 0 2, .deliver 1, .deliver 1, .snapshot 0 1 [], .startReplication 0 2,
     .deliver 3, .electionTimeout 2, .startElection 0, .deliver 4, .deliver 4]

theorem log_access_in_range_snapshotLeader :
    (snapshotLeaderCluster.servers 2).role = .leader ∧
    (snapshotLeaderCluster.servers 2).commitIndex <
      (snapshotLeaderCluster.servers 2).log.snapLastIdx ∧
    ((snapshotLeaderCluster.servers 2).startReplication 3).isSome := by
  have reached : (raftSystem 3 Nat).Reachable System.anyStep snapshotLeaderCluster :=
    ⟨_, rfl, (System.run_after (fun _ _ => true) _ _).mono fun _ _ _ => trivial⟩
  exact ⟨rfl, by decide, (log_access_in_range reached 2).2.2.2.1 3⟩

end MultiRaft
