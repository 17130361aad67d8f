import MultiRaft.Raft.Replication

/-!
# The steps that change a log or a leader

Each of them casts the votes it shows and then makes one more move of the
protocol.  Together with the quiet steps this gives the refinement over whole
runs.
-/

namespace MultiRaft.Cluster

variable {n : Nat} {Command : Type} {cluster next : Cluster n Command} {guarded : Prop}
  {history : History n Command} {event : Event n Command}

variable {rf : Raft n Command}

/-- The rule for a step that makes a move after its votes. -/
theorem Refines.advance_move {new : History n Command} {mover : Fin n}
    (refines : cluster.Refines guarded history) (stepped : cluster.Step event next)
    (moved : (next.castVotes history).Move guarded new)
    (whole : ¬ guarded → ∀ server, new.snap server = history.snap server)
    (ballots : new.toBallots = history.toBallots.observe next.view)
    (servers : next.servers = (cluster.setServer mover rf).servers)
    (others : ∀ server, server ≠ mover →
      new.log server = history.log server ∧ new.snap server = history.snap server)
    (refined : rf.Refines guarded new mover)
    (packets : ∀ packet ∈ next.net, packet.Carries guarded new ∨ packet ∈ cluster.net)
    (delivered : next.delivered = cluster.delivered) :
    next.Advances guarded history := by
  have sound := refines.castVotes_sound stepped
  have progress := sound.matching.progress (refines.castVotes_extends stepped) rfl moved
  refine ⟨new, ?_, progress⟩
  apply refines.advance stepped progress.toExtends (sound.move moved whole) ballots ?_ packets
  · intro _ sent member
    rw [delivered] at member
    exact .inr member
  · intro server
    by_cases same : server = mover
    · subst same
      rw [servers, setServer_servers_self]
      exact .inl refined
    · rw [servers, setServer_servers_of_ne cluster rf same]
      exact .inr ⟨rfl, others server same⟩

variable {server : Fin n}

/-- What a server has committed stays secured over the move. -/
theorem commit_move {old new : History n Command} (refined : rf.Refines guarded old server)
    (sound : old.Sound guarded) (moved : old.Move guarded new)
    (term : old.term server = rf.currentTerm) (after : new.term server = rf.currentTerm)
    (guard : guarded) :
    new.Secured server rf.currentTerm rf.commitIndex := by
  have before := refined.commit guard
  rw [← term] at before
  rw [← after]
  exact (sound.complete guard).secured_move sound.matching guard moved before

theorem ticker_move {old new : History n Command} (refined : rf.Refines guarded old server)
    (sound : old.Sound guarded) (moved : old.Move guarded new) (guard : guarded) :
    ∀ entries sent, rf.ticker = .sendEntries entries sent →
      ∀ position entry, entries[position]? = some entry →
        new.Chosen (rf.lastApplied + position) entry := by
  intro entries sent ticking position entry found
  exact (refined.ticker guard entries sent ticking position entry found).mono
    (sound.matching.extends moved)

/-- A follower has no ballot and no matches to account for. -/
theorem refines_of_follower {new : History n Command} (follows : rf.role = .follower)
    (log : rf.log.Represents (new.log server) (new.snap server))
    (commit : guarded → new.Secured server rf.currentTerm rf.commitIndex)
    (ticker : guarded → ∀ entries sent, rf.ticker = .sendEntries entries sent →
      ∀ position entry, entries[position]? = some entry →
        new.Chosen (rf.lastApplied + position) entry) : rf.Refines guarded new server := by
  refine ⟨log, ?_, ?_, commit, ticker⟩
  · intro isCandidate
    exact nomatch isCandidate.symm.trans follows
  · intro leads
    exact nomatch leads.symm.trans follows

/-- The votes of a step are cast in the terms the step leaves. -/
theorem castVotes_term (servers : next.servers = (cluster.setServer server rf).servers) :
    (next.castVotes history).term server = rf.currentTerm := by
  change (next.servers server).currentTerm = _
  rw [servers, setServer_servers_self]

/-- The counted vote that wins elects the candidate. -/
theorem Refines.elect (refines : cluster.Refines guarded history)
    (stepped : cluster.Step event next) (isCandidate : (cluster.servers server).role = .candidate)
    (servers : next.servers =
      (cluster.setServer server (cluster.servers server).becomeLeaderLocked).servers)
    (net : ∀ packet ∈ next.net, packet ∈ cluster.net)
    (delivered : next.delivered = cluster.delivered) :
    next.Advances guarded history := by
  have before := refines.castVotes_server stepped server
  have sound := refines.castVotes_sound stepped
  have voting := refines.voting
  obtain ⟨ballot, unled⟩ := before.candidate isCandidate
  obtain ⟨counted, inv⟩ := refines.election
  obtain ⟨counted', inv'⟩ := inv.step stepped
  rw [Raft.becomeLeaderLocked_eq _ isCandidate] at servers
  have self := congrFun servers server
  rw [setServer_servers_self] at self
  have term : (next.servers server).currentTerm = (cluster.servers server).currentTerm := by
    rw [self]
  have leads : (next.servers server).role = .leader := by rw [self]
  have vacant : ¬ (next.castVotes history).Elected (next.servers server).currentTerm := by
    rintro ⟨other, led⟩
    have same := inv'.voting.tracks.led_unique (.inl led) (.inr ⟨leads, rfl⟩)
    subst same
    rw [term] at led
    exact unled led
  have majority : Majority
      ((next.castVotes history).voters (next.servers server).currentTerm server) := by
    rcases inv.wins stepped server leads with led | majority
    · rw [term] at led
      exact absurd led unled
    · exact majority
  have candidate : (next.castVotes history).log server =
      (next.castVotes history).ballotLog server (next.servers server).currentTerm := by
    rw [term]
    exact ballot
  have moved : (next.castVotes history).Move guarded ((next.castVotes history).elect server) :=
    .elect server vacant majority candidate
  refine refines.advance_move stepped moved (fun _ _ => rfl) ?_ servers (fun _ _ => ⟨rfl, rfl⟩)
    ?_ (fun packet member => .inr (net packet member)) delivered
  · have led : ((next.castVotes history).elect server).led =
        (history.toBallots.observe next.view).led := by
      funext term leader
      apply propext
      constructor
      · rintro (before | ⟨rfl, rfl⟩)
        · exact .inl before
        · exact .inr ⟨leads, rfl⟩
      · rintro (before | ⟨shows, rfl⟩)
        · exact .inl before
        · by_cases same : leader = server
          · subst same
            exact .inr ⟨rfl, rfl⟩
          · have kept : next.servers leader = cluster.servers leader := by
              rw [servers, setServer_servers_of_ne cluster _ same]
            left
            rw [view, kept] at shows ⊢
            exact voting.tracks.leading leader shows
    change { history.toBallots.observe next.view with
      led := ((next.castVotes history).elect server).led } = _
    rw [led]
  · have ticking := ticker_move before sound moved
    have secured := commit_move before sound moved term term
    refine ⟨before.log, ?_, fun _ _ => .inl (Nat.zero_le _), secured, ticking⟩
    intro stillCandidate
    cases stillCandidate

/-- `Start` appends to the log of the term. -/
theorem Refines.append (refines : cluster.Refines guarded history)
    (stepped : cluster.Step event next) {entry : LogEntry Command}
    (led : ∀ server, (next.servers server).role = .leader →
      history.led (next.servers server).currentTerm server)
    (leads : (cluster.servers server).role = .leader)
    (own : entry.term = (cluster.servers server).currentTerm)
    (servers : next.servers = (cluster.setServer server (Raft.persistLocked
      { cluster.servers server with log := (cluster.servers server).log.append entry })).servers)
    (net : next.net = cluster.net) (delivered : next.delivered = cluster.delivered) :
    next.Advances guarded history := by
  have before := refines.castVotes_server stepped server
  have sound := refines.castVotes_sound stepped
  have term : (next.castVotes history).term server = (cluster.servers server).currentTerm := by
    rw [castVotes_term servers, Raft.persistLocked_currentTerm]
  obtain ⟨ledBefore, _⟩ := refines.leader_log stepped leads term
  have moved : (next.castVotes history).Move guarded
      ((next.castVotes history).append server entry) := by
    apply Replication.Move.append
    · rw [term]
      exact ledBefore
    · rw [term]
      exact own
  have extended := sound.matching.extends moved
  refine refines.advance_move stepped moved (fun _ _ => rfl) (castVotes_ballots led) servers ?_ ?_
    (fun packet member => .inr (net ▸ member)) delivered
  · intro other different
    exact ⟨Replication.append_log_of_ne entry different, rfl⟩
  · have ticking := ticker_move before sound moved
    have secured := commit_move before sound moved term term
    refine ⟨?_, ?_, ?_, secured, ticking⟩
    · rw [Replication.append_log_self]
      exact before.log.append entry
    · intro isCandidate
      change (cluster.servers server).role = .candidate at isCandidate
      rw [leads] at isCandidate
      cases isCandidate
    · intro _ peer
      rcases before.matched leads peer with taken | compacted
      · exact .inl (taken.trans (extended.ack peer _ ⟨server, ledBefore⟩))
      · exact .inr compacted

variable {packet : Packet n Command} {args : AppendEntriesArgs n Command} {index : Nat}

/-- What a permitted request cuts off is of other terms. -/
theorem Permitted.fresh {reply : AppendEntriesReply} {log snap : List (LogEntry Command)}
    (permitted : cluster.Permitted guarded (.deliver index)) (guard : guarded)
    (found : cluster.net[index]? = some packet) (body : packet.body = .appendRequest args)
    (handled : (cluster.servers packet.peer).appendEntries args = some (rf, reply))
    (success : reply.success = true)
    (represents : (cluster.servers packet.peer).log.Represents log snap)
    (covered : snap.length ≤ args.prevLogIndex) :
    ∀ entry ∈ log.drop (args.prevLogIndex + args.entries.length), entry.term ≠ args.term := by
  have keeps := permitted.keeps guard
  simp only [keepsEntries, found, body, Raft.losesEntries, handled, success,
    represents.tail (show snap.length ≤ args.prevLogIndex + args.entries.length by omega),
    Option.getD_some, Bool.true_and, Bool.not_eq_true', List.any_eq_false, beq_iff_eq] at keeps
  exact keeps

/-- The entry before the new ones agrees with the leader's, so all before it do. -/
theorem Refines.agrees (sound : history.Sound guarded) {leader : Fin n} {rl : RaftLog Command}
    {prev : LogEntry Command}
    (represents : rl.Represents (history.log server) (history.snap server))
    (carries : args.Carries guarded history leader)
    (found : rl.entryAt args.prevLogIndex = some prev) (term : prev.term = args.prevLogTerm)
    (beyond : (history.snap server).length < args.prevLogIndex) :
    (history.log server).take args.prevLogIndex =
      (history.leaderLog args.term).take args.prevLogIndex := by
  rcases represents.entryAt found with ⟨atSnap, _⟩ | ⟨_, inLog⟩
  · omega
  · have bound := carries.bound
    have within : args.prevLogIndex - 1 < (history.leaderLog args.term).length := by omega
    have inLeader := List.getElem?_eq_getElem within
    have last := lastTerm_of_getElem? inLeader
    rw [Nat.sub_add_cancel (by omega), ← carries.prevLogTerm, ← term] at last
    have same := (sound.matching.log_backed server).take_eq (sound.matching.leader_backed args.term)
      inLog inLeader last
    rwa [Nat.sub_add_cancel (by omega)] at same

/-- An accepted `AppendEntries` adopts a prefix of the leader's log. -/
theorem Refines.adopt (refines : cluster.Refines guarded history)
    (stepped : cluster.Step (.deliver index) next)
    (permitted : cluster.Permitted guarded (.deliver index)) {reply : AppendEntriesReply}
    {prev : LogEntry Command} {log : RaftLog Command} (found : cluster.net[index]? = some packet)
    (body : packet.body = .appendRequest args)
    (handled : (cluster.servers packet.peer).appendEntries args = some (rf, reply))
    (current : (cluster.servers packet.peer).currentTerm ≤ args.term)
    (prevFound : (cluster.servers packet.peer).log.entryAt args.prevLogIndex = some prev)
    (prevTerm : prev.term = args.prevLogTerm)
    (appended : (cluster.servers packet.peer).log.appendFrom args.prevLogIndex args.entries =
      some log)
    (result : rf =
      { Raft.persistLocked { (cluster.servers packet.peer).becomeFollowerLocked args.term with
          log } with
        commitIndex := max ((cluster.servers packet.peer).becomeFollowerLocked
          args.term).commitIndex args.leaderCommit }) (success : reply.success = true)
    (shape : next = { cluster.setServer packet.peer rf with
      net := cluster.net.set index { packet with body := .appendReply args reply } }) :
    next.Advances guarded history := by
  have voteless := not_voteReply found (by rw [body]; nofun)
  have led := refines.still_led stepped voteless
  have before := refines.castVotes_server stepped packet.peer
  have sound := refines.castVotes_sound stepped
  have carries := refines.packets packet (List.mem_of_getElem? found)
  simp only [Packet.Carries, body] at carries
  obtain ⟨otherPeer, ofLeader⟩ := carries
  have request := ofLeader.mono (refines.castVotes_extends stepped)
  have servers : next.servers = (cluster.setServer packet.peer rf).servers := by rw [shape]
  have term : (next.castVotes history).term packet.peer = args.term := by
    rw [castVotes_term servers, result]
    exact Raft.becomeFollowerLocked_currentTerm _ current
  have covered : ((next.castVotes history).snap packet.peer).length ≤ args.prevLogIndex := by
    have bounds := (RaftLog.entryAt_bounds prevFound).1
    rwa [before.log.snapLastIdx] at bounds
  have moved : (next.castVotes history).Move guarded ((next.castVotes history).adopt packet.peer
      (args.prevLogIndex + args.entries.length)) := by
    apply Replication.Move.adopt packet.peer packet.caller
    · rw [term]
      exact request.led
    · exact otherPeer
    · rw [term]
      exact request.bound
    · rw [term]
      exact request.own
    · exact covered.trans (Nat.le_add_right _ _)
    · rw [term]
      intro guard
      exact permitted.fresh guard found body handled success before.log covered
  have newLog : ((next.castVotes history).adopt packet.peer
      (args.prevLogIndex + args.entries.length)).log packet.peer =
      ((next.castVotes history).leaderLog args.term).take
        (args.prevLogIndex + args.entries.length) := by
    rw [← term]
    exact Replication.adopt_log_self _ _ _
  refine refines.advance_move stepped moved (fun _ _ => rfl) (castVotes_ballots led)
    servers ?_ ?_ ?_ (by rw [shape]; rfl)
  · intro other different
    exact ⟨Replication.adopt_log_of_ne _ different, rfl⟩
  · have aligned := before.becomeFollowerLocked current
    have follower := Raft.becomeFollowerLocked_role _ current
    have sameTerm := Raft.becomeFollowerLocked_currentTerm _ current
    have ticking := ticker_move aligned sound moved
    have secured := commit_move aligned sound moved (term.trans sameTerm.symm)
      (term.trans sameTerm.symm)
    rw [result]
    refine refines_of_follower follower ?_ ?_ ticking
    · rw [newLog]
      exact before.log.appendFrom request.entries request.bound
        (Refines.agrees sound before.log request prevFound prevTerm) appended
    · intro guard
      obtain ⟨reached, settled⟩ := request.commit guard
      refine (secured guard).max (.inr ⟨?_, ?_⟩)
      · rw [newLog, List.length_take, min_eq_left request.bound]
        exact reached
      · rw [newLog, List.take_take, min_eq_left reached]
        exact settled.mono (sound.matching.extends moved) sameTerm.ge
  · intro answer member
    rw [shape] at member
    rcases List.mem_or_eq_of_mem_set member with old | rfl
    · exact .inr old
    · refine .inl fun _ => ⟨⟨packet.caller, request.led⟩, ?_⟩
      have took : ((next.castVotes history).adopt packet.peer
          (args.prevLogIndex + args.entries.length)).ack packet.peer args.term =
          max ((next.castVotes history).ack packet.peer args.term)
            (args.prevLogIndex + args.entries.length) := by
        rw [← term]
        exact Replication.adopt_ack_self _ _ _
      rw [took]
      exact le_max_right _ _

/-- An accepted `InstallSnapshot` installs a prefix of the leader's log. -/
theorem Refines.install (refines : cluster.Refines guarded history)
    (stepped : cluster.Step (.deliver index) next) {args : InstallSnapshotArgs n}
    {reply : InstallSnapshotReply} {log : RaftLog Command}
    (found : cluster.net[index]? = some packet) (body : packet.body = .snapshotRequest args)
    (current : (cluster.servers packet.peer).currentTerm ≤ args.term)
    (newer : (cluster.servers packet.peer).log.snapLastIdx < args.lastIncludedIndex)
    (installed : (cluster.servers packet.peer).log.installSnapshot args.lastIncludedIndex
      args.lastIncludedTerm args.snapshot = some log)
    (result : rf =
      { Raft.persistLocked { (cluster.servers packet.peer).becomeFollowerLocked args.term with
          log } with
        snapPending := true })
    (shape : next = { cluster.setServer packet.peer rf with
      net := cluster.net.set index { packet with body := .snapshotReply args reply } }) :
    next.Advances guarded history := by
  have voteless := not_voteReply found (by rw [body]; nofun)
  have led := refines.still_led stepped voteless
  have before := refines.castVotes_server stepped packet.peer
  have sound := refines.castVotes_sound stepped
  have carries := refines.packets packet (List.mem_of_getElem? found)
  simp only [Packet.Carries, body] at carries
  obtain ⟨otherPeer, ofLeader⟩ := carries
  have request := ofLeader.mono (refines.castVotes_extends stepped)
  have servers : next.servers = (cluster.setServer packet.peer rf).servers := by rw [shape]
  have term : (next.castVotes history).term packet.peer = args.term := by
    rw [castVotes_term servers, result]
    exact Raft.becomeFollowerLocked_currentTerm _ current
  rw [before.log.snapLastIdx] at newer
  have moved : (next.castVotes history).Move guarded
      ((next.castVotes history).install packet.peer args.lastIncludedIndex) := by
    apply Replication.Move.install packet.peer packet.caller
    · rw [term]
      exact request.led
    · exact otherPeer
    · rw [term]
      exact request.bound
    · exact newer
    · rw [term]
      exact request.settled
  have newSnap : ((next.castVotes history).install packet.peer args.lastIncludedIndex).snap
      packet.peer = ((next.castVotes history).leaderLog args.term).take args.lastIncludedIndex := by
    rw [← term]
    exact Replication.install_snap_self _ _ _
  have newLog : ((next.castVotes history).install packet.peer args.lastIncludedIndex).log
      packet.peer = if ((next.castVotes history).log packet.peer).length ≤ args.lastIncludedIndex
        then ((next.castVotes history).leaderLog args.term).take args.lastIncludedIndex
        else (next.castVotes history).log packet.peer := by
    rw [← term]
    exact Replication.install_log_self _ _ _
  refine refines.advance_move stepped moved ?_ (castVotes_ballots led) servers ?_ ?_ ?_
    (by rw [shape]; rfl)
  · -- where nothing is compacted no snapshot is newer
    intro unguarded
    have compacted := request.compacted
    rw [sound.whole unguarded packet.caller, List.length_nil] at compacted
    omega
  · intro other different
    exact ⟨Replication.install_log_of_ne _ different, Replication.install_snap_of_ne _ different⟩
  · have aligned := before.becomeFollowerLocked current
    have follower := Raft.becomeFollowerLocked_role _ current
    have sameTerm := Raft.becomeFollowerLocked_currentTerm _ current
    have ticking := ticker_move aligned sound moved
    have secured := commit_move aligned sound moved (term.trans sameTerm.symm)
      (term.trans sameTerm.symm)
    rw [result]
    refine refines_of_follower follower ?_ secured ticking
    rw [newLog, newSnap]
    refine before.log.installSnapshot newer ?_ request.lastIncludedTerm installed
    rw [List.length_take, min_eq_left request.bound]
  · intro answer member
    rw [shape] at member
    rcases List.mem_or_eq_of_mem_set member with old | rfl
    · exact .inr old
    · exact .inl (request.compacted.trans ((sound.matching.extends moved).snap packet.caller))

/-- `Snapshot` compacts a prefix that is settled. -/
theorem Refines.compact (refines : cluster.Refines guarded history)
    (stepped : cluster.Step event next) (guard : guarded) {bytes : Bytes} {log : RaftLog Command}
    (led : ∀ server, (next.servers server).role = .leader →
      history.led (next.servers server).currentTerm server)
    (committed : index ≤ (cluster.servers server).commitIndex)
    (newer : (cluster.servers server).log.snapLastIdx < index)
    (compacted : (cluster.servers server).log.doSnapshot index bytes = some log)
    (servers : next.servers = (cluster.setServer server
      (Raft.persistLocked { cluster.servers server with log })).servers)
    (net : next.net = cluster.net) (delivered : next.delivered = cluster.delivered) :
    next.Advances guarded history := by
  have before := refines.castVotes_server stepped server
  have sound := refines.castVotes_sound stepped
  have term : (next.castVotes history).term server = (cluster.servers server).currentTerm := by
    rw [castVotes_term servers, Raft.persistLocked_currentTerm]
  rw [before.log.snapLastIdx] at newer
  obtain ⟨within, settled⟩ : (cluster.servers server).commitIndex ≤
      ((next.castVotes history).log server).length ∧ (next.castVotes history).Settled
        (cluster.servers server).currentTerm (((next.castVotes history).log server).take
          (cluster.servers server).commitIndex) := by
    rcases before.commit guard with covered | secured
    · omega
    · exact secured
  have moved : (next.castVotes history).Move guarded
      ((next.castVotes history).compact server index) := by
    apply Replication.Move.compact
    · exact committed.trans within
    · exact newer
    · intro _
      rw [term]
      exact settled.initial (List.take_prefix_take_left committed)
  have newSnap := Replication.compact_snap_self (next.castVotes history) server index
  have extended := sound.matching.extends moved
  refine refines.advance_move stepped moved (fun unguarded => absurd guard unguarded)
    (castVotes_ballots led) servers ?_ ?_ (fun packet member => .inr (net ▸ member)) delivered
  · intro other different
    exact ⟨rfl, Replication.compact_snap_of_ne _ different⟩
  · have ticking := ticker_move before sound moved
    have secured := commit_move before sound moved term term
    refine ⟨?_, before.candidate, ?_, secured, ticking⟩
    · rw [newSnap]
      exact before.log.doSnapshot newer (committed.trans within) compacted
    · intro leads peer
      rcases before.matched leads peer with taken | covered
      · exact .inl taken
      · exact .inr (covered.trans (extended.snap server))

theorem Refines.appendRequest (refines : cluster.Refines guarded history)
    (permitted : cluster.Permitted guarded (.deliver index)) {reply : AppendEntriesReply}
    (found : cluster.net[index]? = some packet) (body : packet.body = .appendRequest args)
    (handled : (cluster.servers packet.peer).appendEntries args = some (rf, reply))
    (shape : next = { cluster.setServer packet.peer rf with
      net := cluster.net.set index { packet with body := .appendReply args reply } }) :
    next.Advances guarded history := by
  have stepped : cluster.Step (.deliver index) next := by
    rw [shape]
    exact .appendRequest index packet args rf reply found body handled
  have led := refines.still_led stepped (not_voteReply found (by rw [body]; nofun))
  have refused : reply.success = false → rf.Refines guarded (next.castVotes history) packet.peer →
      next.Advances guarded history := by
    intro failed refined
    refine refines.quiet_answer stepped led refined shape ?_
    intro success
    rw [failed] at success
    cases success
  have before := refines.castVotes_server stepped packet.peer
  rcases Raft.appendEntries_cases handled with
    ⟨_, rfl, failed⟩ | ⟨current, rfl, failed⟩ |
    ⟨current, prev, log, prevFound, prevTerm, appended, result, success⟩
  · exact refused failed before
  · exact refused failed (before.becomeFollowerLocked current)
  · rw [Raft.becomeFollowerLocked_log _ current] at prevFound appended
    exact refines.adopt stepped permitted found body handled current prevFound prevTerm appended
      result success shape

theorem Refines.snapshotRequest (refines : cluster.Refines guarded history)
    {args : InstallSnapshotArgs n} {reply : InstallSnapshotReply}
    (found : cluster.net[index]? = some packet) (body : packet.body = .snapshotRequest args)
    (handled : (cluster.servers packet.peer).installSnapshot args = some (rf, reply))
    (shape : next = { cluster.setServer packet.peer rf with
      net := cluster.net.set index { packet with body := .snapshotReply args reply } }) :
    next.Advances guarded history := by
  have stepped : cluster.Step (.deliver index) next := by
    rw [shape]
    exact .snapshotRequest index packet args rf reply found body handled
  have led := refines.still_led stepped (not_voteReply found (by rw [body]; nofun))
  have ignored : rf.Refines guarded (next.castVotes history) packet.peer →
      next.Advances guarded history := by
    intro refined
    have carries := refines.packets packet (List.mem_of_getElem? found)
    simp only [Packet.Carries, body] at carries
    exact refines.quiet_answer stepped led refined shape carries.2.compacted
  have before := refines.castVotes_server stepped packet.peer
  rcases Raft.installSnapshot_cases handled with
    ⟨_, rfl⟩ | ⟨current, _, rfl⟩ | ⟨current, log, newer, installed, result⟩
  · exact ignored before
  · exact ignored (before.becomeFollowerLocked current)
  · rw [Raft.becomeFollowerLocked_log _ current] at newer installed
    exact refines.install stepped found body current newer installed result shape

theorem Refines.voteReply (refines : cluster.Refines guarded history)
    (stepped : cluster.Step (.deliver index) next) {term votes : Nat} {reply : RequestVoteReply}
    (servers : next.servers = (cluster.setServer packet.caller
      ((cluster.servers packet.caller).voteReply term votes reply).1).servers)
    (net : next.net = cluster.net.eraseIdx index) (delivered : next.delivered = cluster.delivered) :
    next.Advances guarded history := by
  have voting := refines.voting
  have before := refines.castVotes_server stepped packet.caller
  have packets : ∀ packet ∈ next.net, packet ∈ cluster.net := by
    intro packet member
    rw [net] at member
    exact List.mem_of_mem_eraseIdx member
  have lost : ∀ {rf : Raft n Command}, rf.Refines guarded (next.castVotes history) packet.caller →
      (rf.role = .leader → (cluster.servers packet.caller).role = .leader ∧
        rf.currentTerm = (cluster.servers packet.caller).currentTerm) →
      next.servers = (cluster.setServer packet.caller rf).servers →
      next.Advances guarded history := by
    intro rf refined kept same
    refine refines.quiet_section stepped ?_ refined same packets delivered
    intro server leads
    rw [same] at leads ⊢
    by_cases mover : server = packet.caller
    · subst mover
      rw [setServer_servers_self] at leads ⊢
      obtain ⟨led, sameTerm⟩ := kept leads
      rw [sameTerm]
      exact voting.tracks.leading _ led
    · rw [setServer_servers_of_ne cluster rf mover] at leads ⊢
      exact voting.tracks.leading server leads
  rcases (cluster.servers packet.caller).voteReply_cases term votes reply with
    ⟨later, result⟩ | result | ⟨_, isCandidate, _, ⟨_, result⟩ | ⟨_, result⟩⟩
  · rw [result] at servers
    refine lost (before.becomeFollowerLocked later.le) ?_ servers
    intro leads
    exact nomatch leads.symm.trans (Raft.becomeFollowerLocked_role _ later.le)
  · rw [result] at servers
    exact lost before (fun leads => ⟨leads, rfl⟩) servers
  · rw [result] at servers
    exact lost before (fun leads => ⟨leads, rfl⟩) servers
  · rw [result] at servers
    exact refines.elect stepped isCandidate servers packets delivered

/-- Every permitted step of the cluster is matched by moves of the protocol. -/
theorem Refines.step (refines : cluster.Refines guarded history)
    (permitted : cluster.Permitted guarded event) (stepped : cluster.Step event next) :
    next.Advances guarded history := by
  have taken := stepped
  cases stepped with
  | timeout server notLeader =>
      exact refines.quiet_section taken (refines.still_led taken nofun)
        (refines.timeout taken notLeader) rfl (fun _ => id) rfl
  | electionLost index =>
      exact refines.quiet taken (refines.still_led taken nofun) (fun _ => .inr rfl)
        (fun _ member => .inr member) fun _ _ member => .inr member
  | election index pending found sameTerm isCandidate =>
      refine refines.quiet taken (refines.still_led taken nofun) (fun _ => .inr rfl) ?_
        fun _ _ member => .inr member
      intro packet member
      rcases List.mem_append.mp member with old | new
      · exact .inr old
      · exact .inl (refines.electionPackets_carry taken isCandidate new)
  | voteRequest index packet args found body =>
      exact refines.quiet_answer taken
        (refines.still_led taken (not_voteReply found (by rw [body]; nofun)))
        (refines.requestVote taken packet.peer args) rfl trivial
  | appendRequest index packet args rf reply found body handled =>
      exact refines.appendRequest permitted found body handled rfl
  | snapshotRequest index packet args rf reply found body handled =>
      exact refines.snapshotRequest found body handled rfl
  | lateReply index =>
      refine refines.quiet taken ?_ (fun _ => .inr rfl)
        (fun _ member => .inr (List.mem_of_mem_eraseIdx member)) fun _ _ member => .inr member
      intro server leads
      exact refines.voting.tracks.leading server leads
  | voteReply index packet args reply found body =>
      exact refines.voteReply taken rfl rfl rfl
  | appendReply index packet args reply rf found body handled =>
      have refined := refines.appendReply taken (List.mem_of_getElem? found) body handled
        (by simp)
      exact refines.quiet_section taken
        (refines.still_led taken (not_voteReply found (by rw [body]; nofun)))
        refined rfl (fun _ => List.mem_of_mem_eraseIdx) rfl
  | snapshotReply index packet args reply found body =>
      exact refines.quiet_section taken
        (refines.still_led taken (not_voteReply found (by rw [body]; nofun)))
        (refines.installReply taken (List.mem_of_getElem? found) body) rfl
        (fun _ => List.mem_of_mem_eraseIdx) rfl
  | replicate server term rf requests started =>
      refine refines.quiet taken (refines.still_led taken nofun)
        (refines_setServer rfl (refines.startReplication taken started (by simp))) ?_
        fun _ _ member => .inr member
      intro packet member
      rcases List.mem_append.mp member with old | new
      · exact .inr old
      · obtain ⟨⟨peer, request⟩, asked, rfl⟩ := List.mem_map.mp new
        rcases Raft.startReplication_cases started with ⟨_, rfl⟩ | ⟨_, leads, rfl, made⟩
        · cases asked
        · obtain ⟨otherPeer, replicated⟩ := made peer request asked
          rw [refines.voting.me server] at otherPeer
          have carries := refines.replicate_carries taken leads (by simp) replicated
          cases request with
          | append args => exact .inl ⟨otherPeer.symm, carries⟩
          | snapshot args => exact .inl ⟨otherPeer.symm, carries⟩
  | start server command =>
      have led := refines.still_led taken nofun
      rcases (cluster.servers server).start_cases command with ⟨_, result⟩ | ⟨leads, result⟩
      · rw [result] at taken led ⊢
        exact refines.quiet_section taken led (refines.castVotes_server taken server) rfl
          (fun _ => id) rfl
      · exact refines.append taken led leads rfl (by rw [result]) rfl rfl
  | snapshot server index bytes rf compacted =>
      have led := refines.still_led taken nofun
      rcases Raft.snapshot_cases compacted with rfl | ⟨committed, newer, log, written, rfl⟩
      · exact refines.quiet_section taken led (refines.castVotes_server taken server) rfl
          (fun _ => id) rfl
      · have guard : guarded := by
          by_contra unguarded
          exact permitted.uncompacted unguarded server index bytes rfl
        exact refines.compact taken guard led committed newer written rfl rfl rfl
  | collect server rf collected =>
      exact refines.quiet_section taken (refines.still_led taken nofun)
        (refines.collect taken collected) rfl (fun _ => id) rfl
  | send server rf msg sent =>
      obtain ⟨refined, settles⟩ := refines.send taken sent
      refine refines.quiet taken (refines.still_led taken nofun) (refines_setServer rfl refined)
        (fun _ member => .inr member) ?_
      intro guard entry member
      rcases List.mem_append.mp member with old | new
      · exact .inr old
      · rw [List.mem_singleton.mp new]
        exact .inl (settles guard)
  | finish server rf finished =>
      exact refines.quiet_section taken (refines.still_led taken nofun)
        (refines.finish taken finished) rfl (fun _ => id) rfl
  | restart server =>
      exact refines.quiet_section taken (refines.still_led taken nofun)
        (refines.restart taken server) rfl (fun _ => id) rfl

/-- The history before the first step. -/
def initialHistory (n : Nat) (Command : Type) : History n Command where
  toBallots := Ballots.start (initial n Command).view
  log _ := []
  snap _ := []
  startLog _ := []
  leaderLog _ := []
  ballotLog _ _ := []
  ack _ _ := 0

theorem refines_initial (guarded : Prop) :
    (initial n Command).Refines guarded (initialHistory n Command) := by
  have vacant : ∀ term, ¬ (initialHistory n Command).Elected term := by
    rintro term ⟨server, led⟩
    exact led
  have matching : (initialHistory n Command).Matching :=
    ⟨⟨nofun, nofun, nofun⟩, fun _ => Replication.backed_nil _, fun _ => Replication.backed_nil _,
      nofun, fun _ _ => rfl, fun term elected => absurd elected (vacant term),
      fun term elected => absurd elected (vacant term),
      fun term elected => absurd elected (vacant term), nofun, nofun, fun _ _ => le_rfl,
      nofun, nofun, nofun⟩
  have complete : (initialHistory n Command).Complete :=
    ⟨fun _ _ _ _ => .inl (by simp [initialHistory]), nofun, nofun, fun _ => .inl rfl,
      fun _ _ => rfl⟩
  refine ⟨⟨_, electionInv_initial⟩, ⟨matching, fun _ => complete, fun _ _ => rfl⟩, ?_, nofun, ?_⟩
  · intro server
    exact ⟨RaftLog.represents_newLog _, nofun, nofun, fun _ => .inl le_rfl, nofun⟩
  · intro _ sent member
    cases member

/-- Every run of permitted steps refines the protocol. -/
theorem refines_of_reachable
    (reached : (raftSystem n Command).Reachable
      (fun cluster event => cluster.Permitted guarded event) cluster) :
    ∃ history, cluster.Refines guarded history := by
  have start : ∀ state, (raftSystem n Command).init state →
      ∃ history, state.Refines guarded history := by
    rintro _ rfl
    exact ⟨_, refines_initial guarded⟩
  refine reached.preserves start ?_
  rintro state event next ⟨history, refines⟩ permitted stepped
  obtain ⟨new, refined, _⟩ := refines.step permitted (step_cases stepped)
  exact ⟨new, refined⟩

end MultiRaft.Cluster
