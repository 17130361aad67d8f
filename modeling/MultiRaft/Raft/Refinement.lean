import MultiRaft.Raft.Election
import MultiRaft.Raft.WholeLog
import MultiRaft.Lib.Replication.Completeness

/-!
# What servers and packets say about the replicated log

The cluster refines the abstract protocol of `Lib.Replication`.  A server shows
the part of its whole log after its snapshot; a request carries a part of the log
of a leader, an answer to it what the sender took over.

Everything is stated for two kinds of runs at once.  In the guarded ones no
server gives up entries of the term of the request it accepts, and then commit
indices and applied entries are settled; in the others nothing is ever compacted.
-/

namespace MultiRaft

variable {n : Nat} {Command : Type}

/-- The abstract state that a cluster refines, with its history. -/
abbrev History (n : Nat) (Command : Type) := Replication (Fin n) (LogEntry Command)

structure Raft.Refines (rf : Raft n Command) (guarded : Prop) (history : History n Command)
    (server : Fin n) : Prop where
  log : rf.log.Represents (history.log server) (history.snap server)
  candidate : rf.role = .candidate →
    history.log server = history.ballotLog server rf.currentTerm ∧
      ¬ history.led rf.currentTerm server
  matched : rf.role = .leader → ∀ peer,
    rf.matchIndex peer ≤ history.ack peer rf.currentTerm ∨
      rf.matchIndex peer ≤ (history.snap server).length
  commit : guarded → history.Secured server rf.currentTerm rf.commitIndex
  ticker : guarded → ∀ entries sent, rf.ticker = .sendEntries entries sent →
    ∀ position entry, entries[position]? = some entry →
      history.Chosen (rf.lastApplied + position) entry

variable {old new : History n Command} {guarded : Prop}

theorem Raft.Refines.mono {rf : Raft n Command} {server : Fin n}
    (refines : rf.Refines guarded old server) (extended : old.Extends new)
    (log : new.log server = old.log server) (snap : new.snap server = old.snap server)
    (led : new.led rf.currentTerm server → old.led rf.currentTerm server)
    (voted : rf.role = .candidate → old.vote server rf.currentTerm = some server)
    (elected : rf.role = .leader → old.Elected rf.currentTerm) :
    rf.Refines guarded new server where
  log := by
    rw [log, snap]
    exact refines.log
  candidate isCandidate := by
    obtain ⟨ballot, unled⟩ := refines.candidate isCandidate
    rw [log, extended.ballotLog _ _ _ (voted isCandidate)]
    exact ⟨ballot, fun leads => unled (led leads)⟩
  matched leads peer := by
    rw [snap]
    rcases refines.matched leads peer with taken | compacted
    · exact .inl (taken.trans (extended.ack peer _ (elected leads)))
    · exact .inr compacted
  commit guard := by
    rw [Replication.Secured, log, snap]
    rcases refines.commit guard with compacted | ⟨within, settled⟩
    · exact .inl compacted
    · exact .inr ⟨within, settled.mono extended le_rfl⟩
  ticker guard entries sent ticking position entry found :=
    (refines.ticker guard entries sent ticking position entry found).mono extended

variable {history : History n Command}

/-- A server that steps down keeps what it shows of its log. -/
theorem Raft.Refines.stepDown {rf next : Raft n Command} {server : Fin n}
    (refines : rf.Refines guarded history server) (role : next.role = .follower)
    (term : rf.currentTerm ≤ next.currentTerm) (log : next.log = rf.log)
    (commitIndex : next.commitIndex = rf.commitIndex)
    (lastApplied : next.lastApplied = rf.lastApplied) (ticker : next.ticker = rf.ticker) :
    next.Refines guarded history server where
  log := by
    rw [log]
    exact refines.log
  candidate isCandidate := by
    rw [role] at isCandidate
    cases isCandidate
  matched leads := by
    rw [role] at leads
    cases leads
  commit guard := by
    rw [commitIndex]
    exact (refines.commit guard).mono term
  ticker guard := by
    rw [ticker, lastApplied]
    exact refines.ticker guard

theorem Raft.Refines.becomeFollowerLocked {rf : Raft n Command} {server : Fin n}
    (refines : rf.Refines guarded history server) {term : Nat} (current : rf.currentTerm ≤ term) :
    (rf.becomeFollowerLocked term).Refines guarded history server := by
  rcases rf.becomeFollowerLocked_cases current with ⟨_, result⟩ | ⟨later, result⟩
  · rw [result]
    exact refines.stepDown rfl le_rfl rfl rfl rfl rfl
  · rw [result]
    exact refines.stepDown rfl later.le rfl rfl rfl rfl

theorem Raft.Refines.aligned {rf : Raft n Command} {server : Fin n}
    (refines : rf.Refines guarded history server) {term : Nat} (current : rf.currentTerm ≤ term) :
    (rf.aligned term).Refines guarded history server := by
  rcases rf.aligned_cases current with ⟨_, result⟩ | ⟨later, result⟩
  · rw [result]
    exact refines
  · rw [result]
    exact refines.stepDown rfl later.le rfl rfl rfl rfl

/-- A request of a leader is a part of its log, as long as it was when sent. -/
structure AppendEntriesArgs.Carries (args : AppendEntriesArgs n Command) (guarded : Prop)
    (history : History n Command) (leader : Fin n) : Prop where
  led : history.led args.term leader
  bound : args.prevLogIndex + args.entries.length ≤ (history.leaderLog args.term).length
  own : (history.startLog args.term).length ≤ args.prevLogIndex + args.entries.length
  entries : args.entries = ((history.leaderLog args.term).take
    (args.prevLogIndex + args.entries.length)).drop args.prevLogIndex
  prevLogTerm : args.prevLogTerm =
    lastTerm ((history.leaderLog args.term).take args.prevLogIndex)
  commit : guarded → args.leaderCommit ≤ args.prevLogIndex + args.entries.length ∧
    history.Settled args.term ((history.leaderLog args.term).take args.leaderCommit)

structure InstallSnapshotArgs.Carries (args : InstallSnapshotArgs n) (guarded : Prop)
    (history : History n Command) (leader : Fin n) : Prop where
  led : history.led args.term leader
  compacted : args.lastIncludedIndex ≤ (history.snap leader).length
  bound : args.lastIncludedIndex ≤ (history.leaderLog args.term).length
  lastIncludedTerm : args.lastIncludedTerm =
    lastTerm ((history.leaderLog args.term).take args.lastIncludedIndex)
  settled : guarded →
    history.Settled args.term ((history.leaderLog args.term).take args.lastIncludedIndex)

def Packet.Carries (packet : Packet n Command) (guarded : Prop)
    (history : History n Command) : Prop :=
  match packet.body with
  | .voteRequest args =>
      history.vote packet.caller args.term = some packet.caller ∧
        args.lastLogIndex = (history.ballotLog packet.caller args.term).length ∧
        args.lastLogTerm = lastTerm (history.ballotLog packet.caller args.term)
  | .voteReply _ _ => True
  | .appendRequest args =>
      packet.caller ≠ packet.peer ∧ args.Carries guarded history packet.caller
  | .appendReply args reply => reply.success = true → history.Elected args.term ∧
      args.prevLogIndex + args.entries.length ≤ history.ack packet.peer args.term
  | .snapshotRequest args =>
      packet.caller ≠ packet.peer ∧ args.Carries guarded history packet.caller
  | .snapshotReply args _ =>
      args.lastIncludedIndex ≤ (history.snap packet.caller).length

theorem AppendEntriesArgs.Carries.mono {args : AppendEntriesArgs n Command} {leader : Fin n}
    (carries : args.Carries guarded old leader) (extended : old.Extends new) :
    args.Carries guarded new leader := by
  have elected : old.Elected args.term := ⟨leader, carries.led⟩
  have bound := carries.bound
  refine ⟨extended.ballots.led_kept _ _ carries.led,
    bound.trans (extended.leaderLog _ elected).length_le, ?_, ?_, ?_, ?_⟩
  · rw [extended.startLog _ elected]
    exact carries.own
  · rw [extended.take_leaderLog elected bound]
    exact carries.entries
  · rw [extended.take_leaderLog elected (by omega)]
    exact carries.prevLogTerm
  · intro guard
    obtain ⟨within, settled⟩ := carries.commit guard
    rw [extended.take_leaderLog elected (within.trans bound)]
    exact ⟨within, settled.mono extended le_rfl⟩

theorem InstallSnapshotArgs.Carries.mono {args : InstallSnapshotArgs n} {leader : Fin n}
    (carries : args.Carries guarded old leader) (extended : old.Extends new) :
    args.Carries guarded new leader := by
  have elected : old.Elected args.term := ⟨leader, carries.led⟩
  refine ⟨extended.ballots.led_kept _ _ carries.led,
    carries.compacted.trans (extended.snap leader),
    carries.bound.trans (extended.leaderLog _ elected).length_le, ?_, ?_⟩
  · rw [extended.take_leaderLog elected carries.bound]
    exact carries.lastIncludedTerm
  · intro guard
    rw [extended.take_leaderLog elected carries.bound]
    exact (carries.settled guard).mono extended le_rfl

theorem Packet.Carries.mono {packet : Packet n Command} (carries : packet.Carries guarded old)
    (extended : old.Extends new) : packet.Carries guarded new := by
  unfold Packet.Carries at carries ⊢
  split at carries
  · obtain ⟨voted, index, term⟩ := carries
    rw [extended.ballotLog _ _ _ voted]
    exact ⟨extended.ballots.vote_kept _ _ _ voted, index, term⟩
  · trivial
  · exact ⟨carries.1, carries.2.mono extended⟩
  · intro success
    obtain ⟨elected, taken⟩ := carries success
    exact ⟨elected.mono extended.ballots, taken.trans (extended.ack _ _ elected)⟩
  · exact ⟨carries.1, carries.2.mono extended⟩
  · exact carries.trans (extended.snap _)

/-- A command message brings an entry that is settled at its index. -/
def ApplyMsg.Settles (msg : ApplyMsg Command) (history : History n Command) : Prop :=
  msg.commandValid = true → ∃ position entry, msg.commandIndex = position + 1 ∧
    msg.command = entry.command ∧ history.Chosen position entry

namespace Cluster

structure Refines (cluster : Cluster n Command) (guarded : Prop)
    (history : History n Command) : Prop where
  election : ∃ counted, cluster.ElectionInv history.toBallots counted
  sound : history.Sound guarded
  servers : ∀ server, (cluster.servers server).Refines guarded history server
  packets : ∀ packet ∈ cluster.net, packet.Carries guarded history
  delivered : guarded → ∀ sent ∈ cluster.delivered, sent.2.Settles history

/-- The history goes on, and the cluster refines it then. -/
abbrev Advances (cluster : Cluster n Command) (guarded : Prop) (history : History n Command) :
    Prop :=
  ∃ new, cluster.Refines guarded new ∧ history.Progress new

/-- The history with the votes and terms that the servers show now. -/
def castVotes (cluster : Cluster n Command) (history : History n Command) : History n Command :=
  history.cast { history.toBallots.observe cluster.view with led := history.led }

variable {cluster next : Cluster n Command} {guarded : Prop} {history : History n Command}
  {event : Event n Command}

theorem Refines.voting (refines : cluster.Refines guarded history) :
    cluster.Voting history.toBallots := by
  obtain ⟨counted, inv⟩ := refines.election
  exact inv.voting

theorem Voting.vote_of_candidate {ballots : Ballots (Fin n)} (voting : cluster.Voting ballots)
    {server : Fin n} (isCandidate : (cluster.servers server).role = .candidate) :
    ballots.vote server (cluster.servers server).currentTerm = some server := by
  have voted := voting.selfVoted server (by rw [isCandidate]; decide)
  rw [voting.me server] at voted
  exact (voting.tracks.vote_eq server).trans voted

/-- A vote newly shown was cast by the server for itself, or for a candidate that
asked with a log at least as up to date. -/
theorem Refines.fresh (refines : cluster.Refines guarded history)
    (stepped : cluster.Step event next) {voter candidate : Fin n}
    (unvoted : history.vote voter (next.servers voter).currentTerm = none)
    (voted : (next.servers voter).votedFor = some candidate) :
    candidate = voter ∨
      history.vote candidate (next.servers voter).currentTerm = some candidate ∧
        UpToDate (history.log voter)
          (history.ballotLog candidate (next.servers voter).currentTerm) := by
  have voting := refines.voting
  have shown : history.vote voter (cluster.servers voter).currentTerm =
      (cluster.servers voter).votedFor := voting.tracks.vote_eq voter
  rcases stepped.servers voter with same | ⟨call, handled, runs⟩ | ⟨_, restarted⟩
  · rw [same, shown] at unvoted
    rw [same, unvoted] at voted
    cases voted
  · rcases (Raft.electionStep_handle (voting.selfVoted voter) handled).casts candidate voted with
      ⟨before, sameTerm⟩ | self | ⟨args, rfl, rfl, term, upToDate⟩
    · rw [sameTerm, shown, before] at unvoted
      cases unvoted
    · exact .inl (self.trans (voting.me voter))
    · obtain ⟨index, packet, _, found, body, rfl⟩ := runs
      obtain ⟨counted, inv⟩ := refines.election
      have member := List.mem_of_getElem? found
      have honest := inv.honest.packets packet member
      have carries := refines.packets packet member
      simp only [Packet.Honest, body] at honest
      simp only [Packet.Carries, body] at carries
      obtain ⟨asked, lastIndex, lastTerm⟩ := carries
      rw [term, honest]
      refine .inr ⟨asked, ?_⟩
      have last := (refines.servers packet.peer).log.last (refines.sound.snap_short packet.peer)
      simp only [Raft.isMoreUpToDateLocked, last, lastIndex, lastTerm] at upToDate
      split at upToDate
      · rename_i different
        have notLess := of_decide_eq_false upToDate
        exact .inl (lt_of_le_of_ne (not_lt.mp notLess) different)
      · rename_i equal
        have notLonger := of_decide_eq_false upToDate
        exact .inr ⟨not_not.mp equal, not_lt.mp notLonger⟩
  · rw [restarted, Raft.make_eq_of_durable (voting.durable voter)] at unvoted voted
    rw [shown] at unvoted
    change (cluster.servers voter).votedFor = some candidate at voted
    rw [unvoted] at voted
    cases voted

/-- Votes and terms change by a move of the protocol. -/
theorem Refines.castVotes_move (refines : cluster.Refines guarded history)
    (stepped : cluster.Step event next) : history.Move guarded (next.castVotes history) := by
  have voting := refines.voting
  have grows := voting.tracks.grows_observe (voting.evolves stepped)
  have lawful := refines.sound.matching.lawful
  apply Replication.Move.cast
  · refine ⟨lawful.unique, ?_, ?_⟩
    · intro term server led
      exact (lawful.led_bound term server led).trans (grows.term_le server)
    · intro voter term candidate voted
      change (if term = _ then _ else _) = _ at voted
      split at voted
      · rename_i current
        exact current.le
      · exact (lawful.vote_bound voter term candidate voted).trans (grows.term_le voter)
  · exact { grows with led_kept := fun _ _ led => led }
  · exact fun _ _ led => led
  · intro voter term candidate unvoted voted
    change (if term = _ then _ else _) = _ at voted
    split at voted
    · rename_i current
      subst current
      exact ⟨rfl, refines.fresh stepped unvoted voted⟩
    · rw [unvoted] at voted
      cases voted

theorem Refines.castVotes_extends (refines : cluster.Refines guarded history)
    (stepped : cluster.Step event next) : history.Extends (next.castVotes history) :=
  refines.sound.matching.extends (refines.castVotes_move stepped)

theorem Refines.castVotes_sound (refines : cluster.Refines guarded history)
    (stepped : cluster.Step event next) : (next.castVotes history).Sound guarded :=
  refines.sound.move (refines.castVotes_move stepped) fun _ _ => rfl

/-- Seen by the new history, a server is as it was before the step. -/
theorem Refines.castVotes_server (refines : cluster.Refines guarded history)
    (stepped : cluster.Step event next) (server : Fin n) :
    (cluster.servers server).Refines guarded (next.castVotes history) server := by
  have voting := refines.voting
  apply (refines.servers server).mono (refines.castVotes_extends stepped) rfl rfl fun led => led
  · exact voting.vote_of_candidate
  · intro leads
    exact ⟨server, voting.tracks.leading server leads⟩

/-- If nobody starts to lead, the votes cast are all the history needs. -/
theorem castVotes_ballots
    (led : ∀ server, (next.servers server).role = .leader →
      history.led (next.servers server).currentTerm server) :
    (next.castVotes history).toBallots = history.toBallots.observe next.view := by
  have same : history.led = (history.toBallots.observe next.view).led := by
    funext term server
    apply propext
    constructor
    · exact .inl
    · rintro (leads | ⟨leads, rfl⟩)
      · exact leads
      · exact led server leads
  change { history.toBallots.observe next.view with led := history.led } = _
  rw [same]

/-- The rule for one step: the new history extends the old one, shows the votes
of the new state, and whatever the step touched refines it. -/
theorem Refines.advance (refines : cluster.Refines guarded history)
    (stepped : cluster.Step event next) (extended : history.Extends new) (sound : new.Sound guarded)
    (ballots : new.toBallots = history.toBallots.observe next.view)
    (servers : ∀ server, (next.servers server).Refines guarded new server ∨
      next.servers server = cluster.servers server ∧ new.log server = history.log server ∧
        new.snap server = history.snap server)
    (packets : ∀ packet ∈ next.net, packet.Carries guarded new ∨ packet ∈ cluster.net)
    (delivered : guarded → ∀ sent ∈ next.delivered,
      sent.2.Settles new ∨ sent ∈ cluster.delivered) :
    next.Refines guarded new where
  election := by
    obtain ⟨counted, inv⟩ := refines.election
    rw [ballots]
    exact inv.step stepped
  sound := sound
  servers server := by
    rcases servers server with done | ⟨same, log, snap⟩
    · exact done
    · have voting := refines.voting
      rw [same]
      apply (refines.servers server).mono extended log snap
      · intro led
        rw [ballots] at led
        rcases led with before | ⟨leads, _⟩
        · exact before
        · refine voting.tracks.leading server ?_
          rw [Cluster.view, ← same]
          exact leads
      · exact voting.vote_of_candidate
      · intro leads
        exact ⟨server, voting.tracks.leading server leads⟩
  packets packet member := by
    rcases packets packet member with done | before
    · exact done
    · exact (refines.packets packet before).mono extended
  delivered guard sent member := by
    rcases delivered guard sent member with done | before
    · exact done
    · intro valid
      obtain ⟨position, entry, index, command, chosen⟩ :=
        refines.delivered guard sent before valid
      exact ⟨position, entry, index, command, chosen.mono extended⟩

end Cluster

end MultiRaft
