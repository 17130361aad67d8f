import MultiRaft.Node.Sections
import MultiRaft.Lib.Rounds

/-!
# A follower behind the leader's snapshot

A leader that has compacted the entries a follower needs has to send its snapshot.
`startReplication` does so when `nextIndex` is at or below the snapshot, but the
answer to a rejection never lets `nextIndex` sink that far.
-/

namespace MultiRaft

open Rounds (Verdict Exchange Settles)

variable {n : Nat} {Command : Type}

namespace Node

/-- One round between a leader and a follower.  It settles the matter to send
`InstallSnapshot`. -/
def fallbackRound (peer : Fin n) (pair : Exchange (Node n Command)) :
    Option (Verdict (Exchange (Node n Command))) := do
  match ← pair.leader.replicate peer with
  | .snapshot _ => return .settled
  | .append args =>
      let (follower, resp) ← pair.follower.handleAppendEntries args
      let leader ← pair.leader.appendReply peer args resp
      return .again { leader, follower }

/-- A request for an index that the log does not reach.  The answer to an outdated request
is the one of an empty log. -/
theorem handleAppendEntries_of_short {node : Node n Command} {req : AppendEntriesArgs n Command}
    (short : node.log.size ≤ req.prevLogIndex) :
    ∃ next size, node.handleAppendEntries req = some (next,
      { term := node.currentTerm, conflictIndex := size, conflictTerm := invalidTerm }) ∧
      size ≤ node.log.size ∧ next.log = node.log := by
  rcases Nat.lt_or_ge req.term node.currentTerm with outdated | current
  · exact ⟨node, 0, if_pos outdated, Nat.zero_le _, rfl⟩
  · have log := node.becomeFollowerLocked_log current
    refine ⟨node.becomeFollowerLocked req.term, node.log.size, ?_, le_rfl, log⟩
    simp only [handleAppendEntries, log, not_lt.mpr current, if_false, ge_iff_le, short, if_true]

/-- Behind the snapshot the leader sends entries. -/
theorem replicate_of_beyond {node : Node n Command} {peer : Fin n}
    (within : node.nextIndex peer ≤ node.log.size)
    (beyond : node.log.snapLastIdx < node.nextIndex peer) :
    ∃ args, node.replicate peer = some (.append args) ∧ args.term = node.currentTerm ∧
      args.prevLogIndex = node.nextIndex peer - 1 := by
  have inside : (node.log.entryAt (node.nextIndex peer - 1)).isSome :=
    RaftLog.isSome_entryAt (by omega) (by omega)
  obtain ⟨prev, found⟩ := Option.isSome_iff_exists.mp inside
  have read : (node.log.tail (node.nextIndex peer - 1 + 1)).isSome := by
    unfold RaftLog.tail
    split
    · rfl
    · rw [if_neg (by omega), RaftLog.idx_of_mem (by omega) (by omega)]
      rfl
  obtain ⟨entries, tail⟩ := Option.isSome_iff_exists.mp read
  rw [replicate, if_neg (by omega)]
  simp only [found, tail, Option.bind_eq_bind, Option.bind_some]
  exact ⟨_, rfl, rfl, rfl⟩

/-- Where the leader probes next when the follower's log ends before its snapshot. -/
theorem appendReply_of_short (node : Node n Command) (peer : Fin n)
    (args : AppendEntriesArgs n Command) (term : Nat) {size : Nat}
    (short : size ≤ node.log.snapLastIdx) :
    ∃ next, node.appendReply peer args
        { term, conflictIndex := size, conflictTerm := invalidTerm } = some next ∧
      next.log = node.log ∧ (next.nextIndex peer = node.nextIndex peer ∨
        next.nextIndex peer = node.log.snapLastIdx + 1) := by
  have clamped : node.nextProbe args.prevLogIndex
      { term, conflictIndex := size, conflictTerm := invalidTerm } =
        node.log.snapLastIdx + 1 := by
    simp only [nextProbe, if_true]
    split <;> split <;> omega
  simp only [appendReply, clamped, Bool.not_false, if_true]
  split
  · rename_i newer
    refine ⟨_, rfl, node.becomeFollowerLocked_log (Nat.le_of_lt newer), .inl ?_⟩
    rcases node.becomeFollowerLocked_cases (Nat.le_of_lt newer) with ⟨_, result⟩ | ⟨_, result⟩
    · rw [result]
    · rw [result]
      rfl
  · split
    · exact ⟨_, rfl, rfl, .inl rfl⟩
    · exact ⟨_, rfl, rfl, .inr (Function.update_self ..)⟩

/-- The follower's log ends before the leader's snapshot, and the leader probes
behind the snapshot. -/
structure Outrun (peer : Fin n) (pair : Exchange (Node n Command)) : Prop where
  short : pair.follower.log.size ≤ pair.leader.log.snapLastIdx
  beyond : pair.leader.log.snapLastIdx < pair.leader.nextIndex peer
  within : pair.leader.nextIndex peer ≤ pair.leader.log.size

/-- The round is a rejection, and the probe moves to the entry right after the
snapshot, where it stays; or the leader steps down and the probe stays where it is. -/
theorem Outrun.round {peer : Fin n} {pair : Exchange (Node n Command)}
    (outrun : Outrun peer pair) :
    ∃ next, fallbackRound peer pair = some (.again next) ∧ Outrun peer next := by
  obtain ⟨short, beyond, within⟩ := outrun
  obtain ⟨args, sent, -, prevIdx⟩ := replicate_of_beyond within beyond
  obtain ⟨follower, size, refused, smaller, followerLog⟩ :=
    handleAppendEntries_of_short (show pair.follower.log.size ≤ args.prevLogIndex by omega)
  obtain ⟨leader, probed, leaderLog, nextIndex⟩ := pair.leader.appendReply_of_short peer args
    pair.follower.currentTerm (smaller.trans short)
  have round : fallbackRound peer pair = some (.again { leader, follower }) := by
    simp only [fallbackRound, sent, refused, probed, Option.bind_eq_bind, Option.bind_some,
      Option.pure_def]
  refine ⟨_, round, ?_, ?_, ?_⟩
  all_goals
    simp only [leaderLog, followerLog]
    omega

end Node

/-- For a follower whose log ends before the leader's snapshot, the rounds come to an
`InstallSnapshot` only if `nextIndex` is at or below the snapshot from the start, whatever
the terms of the two are. -/
theorem installs_snapshot_iff {leader follower : Node n Command} {peer : Fin n}
    (outrun : follower.log.last.1 < leader.log.snapLastIdx)
    (within : leader.nextIndex peer ≤ leader.log.size) :
    Settles (Node.fallbackRound peer) { leader, follower } ↔
      leader.nextIndex peer ≤ leader.log.snapLastIdx := by
  constructor
  · intro settles
    by_contra beyond
    refine Rounds.not_settles_of_invariant (Node.Outrun peer) (fun _ => Node.Outrun.round) ?_ settles
    exact ⟨follower.log.size_le.trans outrun, not_le.mp beyond, within⟩
  · intro behind
    apply Rounds.settles_of_settled
    simp only [Node.fallbackRound, Node.replicate, if_pos (Nat.lt_succ_of_le behind),
      Option.bind_eq_bind, Option.bind_some, Option.pure_def]

/-- A leader of term 2 whose two entries are both in its snapshot. -/
def compactedLeader (nextIndex : Nat) : Node 2 Nat :=
  { Node.newNode 0 (RaftStorage.empty 2 Nat) 0 with
    role := .leader, currentTerm := 2, log := newLog 2 1 [] [], nextIndex := fun _ => nextIndex }

theorem installs_snapshot_iff_compacted :
    Settles (Node.fallbackRound 1)
      { leader := compactedLeader 1, follower := Node.newNode 1 (RaftStorage.empty 2 Nat) 0 } :=
  (installs_snapshot_iff (by decide) (by decide)).mpr (by decide)

/-- With `nextIndex` as `becomeLeaderLocked` sets it, the follower's empty log is probed
for ever. -/
theorem never_installs_snapshot :
    (compactedLeader 3).nextIndex 1 = (compactedLeader 3).log.size ∧
    ¬ Settles (Node.fallbackRound 1)
      { leader := compactedLeader 3, follower := Node.newNode 1 (RaftStorage.empty 2 Nat) 0 } := by
  refine ⟨rfl, Rounds.not_settles_of_invariant (Node.Outrun 1) (fun _ => Node.Outrun.round) ?_⟩
  constructor <;> decide

end MultiRaft
