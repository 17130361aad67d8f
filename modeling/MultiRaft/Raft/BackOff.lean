import MultiRaft.Raft.TermOrder
import MultiRaft.Raft.LogAccess
import MultiRaft.Raft.WholeLog
import MultiRaft.Lib.Rounds

/-!
# Finding the point where two logs part

A leader looks for the last index up to which a follower has its log: a rejection
names a term of the follower's, and the leader goes back to where that term begins.
The search is followed round by round, with whole logs behind the compacted ones.
-/

namespace MultiRaft

open Rounds (Verdict Exchange Settles)

variable {n : Nat} {Command : Type} {log : List (LogEntry Command)} {index : Nat}

/-- The term at an index of a whole log; index 0 has term 0. -/
def termAt (log : List (LogEntry Command)) (index : Nat) : Nat := lastTerm (log.take index)

/-- A whole log as the code keeps it: terms from 1 on, in order. -/
structure InOrder (log : List (LogEntry Command)) : Prop where
  sorted : log.Pairwise fun earlier later => earlier.term ≤ later.term
  positive : ∀ entry ∈ log, 0 < entry.term

theorem exists_termAt (positive : 0 < index) (within : index ≤ log.length) :
    ∃ entry, log[index - 1]? = some entry ∧ termAt log index = entry.term := by
  have inside : index - 1 < log.length := by omega
  refine ⟨log[index - 1], List.getElem?_eq_getElem inside, ?_⟩
  have last := lastTerm_of_getElem? (List.getElem?_eq_getElem inside)
  rwa [Nat.sub_add_cancel positive] at last

theorem termAt_eq_of_take {other : List (LogEntry Command)} {count : Nat}
    (same : log.take count = other.take count) (covered : index ≤ count) :
    termAt log index = termAt other index := by
  have agrees := congrArg (List.take index) same
  rw [List.take_take, List.take_take, min_eq_left covered] at agrees
  rw [termAt, termAt, agrees]

theorem InOrder.termAt_pos (inOrder : InOrder log) (positive : 0 < index)
    (within : index ≤ log.length) : 0 < termAt log index := by
  obtain ⟨entry, found, term⟩ := exists_termAt positive within
  rw [term]
  exact inOrder.positive entry (List.mem_of_getElem? found)

theorem InOrder.termAt_mono (inOrder : InOrder log) {later : Nat} (ordered : index ≤ later)
    (within : later ≤ log.length) : termAt log index ≤ termAt log later := by
  rcases Nat.eq_zero_or_pos index with rfl | positive
  · exact Nat.zero_le _
  rcases Nat.eq_or_lt_of_le ordered with rfl | before
  · exact le_rfl
  obtain ⟨first, found, term⟩ := exists_termAt positive (ordered.trans within)
  obtain ⟨second, found', term'⟩ := exists_termAt (show 0 < later by omega) within
  obtain ⟨inside, rfl⟩ := List.getElem?_eq_some_iff.mp found
  obtain ⟨inside', rfl⟩ := List.getElem?_eq_some_iff.mp found'
  have apart : index - 1 < later - 1 := by omega
  rw [term, term']
  exact List.pairwise_iff_getElem.mp inOrder.sorted _ _ inside inside' apart

namespace RaftLog

/-- The log of the code is this whole log, compacted at some index. -/
def Compacts (rl : RaftLog Command) (log : List (LogEntry Command)) : Prop :=
  rl.Represents log (log.take rl.snapLastIdx)

variable {rl : RaftLog Command}

theorem Compacts.snapLastIdx_le (compacts : rl.Compacts log) : rl.snapLastIdx ≤ log.length := by
  have length := compacts.snapLastIdx
  rw [List.length_take] at length
  omega

theorem Compacts.headed (compacts : rl.Compacts log) : rl.Headed :=
  ⟨_, compacts.tailLog⟩

theorem Compacts.length_take (compacts : rl.Compacts log) :
    (log.take rl.snapLastIdx).length = rl.snapLastIdx :=
  compacts.snapLastIdx.symm

/-- `at` reads every index from the snapshot on, and finds the term of the log. -/
theorem Compacts.entryAt (compacts : rl.Compacts log) (above : rl.snapLastIdx ≤ index)
    (within : index ≤ log.length) :
    ∃ entry, rl.entryAt index = some entry ∧ entry.term = termAt log index := by
  have size := compacts.size
  obtain ⟨entry, found⟩ := Option.isSome_iff_exists.mp (isSome_entryAt above (by omega))
  refine ⟨entry, found, (compacts.entryAt_term ?_ found).1⟩
  rw [compacts.length_take]

theorem Compacts.tailLog_term (compacts : rl.Compacts log) {position : Nat}
    {entry : LogEntry Command} (located : rl.tailLog[position]? = some entry) :
    rl.snapLastIdx + position ≤ log.length ∧
      entry.term = termAt log (rl.snapLastIdx + position) := by
  have size := compacts.size
  have inside := (List.getElem?_eq_some_iff.mp located).1
  have within : rl.snapLastIdx + position ≤ log.length := by
    rw [RaftLog.size] at size
    omega
  refine ⟨within, ?_⟩
  obtain ⟨found, read, term⟩ := compacts.entryAt (Nat.le_add_right _ _) within
  rw [entryAt_of_mem (Nat.le_add_right _ _) (by omega), Nat.add_sub_cancel_left, located] at read
  cases read
  exact term

theorem Compacts.sorted (compacts : rl.Compacts log) (inOrder : InOrder log) :
    rl.tailLog.Pairwise fun earlier later => earlier.term ≤ later.term := by
  rw [List.pairwise_iff_getElem]
  intro i j inside inside' before
  obtain ⟨_, term⟩ := compacts.tailLog_term (List.getElem?_eq_getElem inside)
  obtain ⟨within, term'⟩ := compacts.tailLog_term (List.getElem?_eq_getElem inside')
  rw [term, term']
  exact inOrder.termAt_mono (by omega) within

/-- `firstFor` finds the first index of a term that is not compacted. -/
theorem Compacts.firstFor_cases (compacts : rl.Compacts log) (inOrder : InOrder log)
    {term : Nat} (proper : 0 < term) :
    (rl.firstFor term = invalidIndex ∧
      ∀ index, rl.snapLastIdx ≤ index → index ≤ log.length → termAt log index ≠ term) ∨
    (rl.firstFor term ≠ invalidIndex ∧ rl.snapLastIdx ≤ rl.firstFor term ∧
      rl.firstFor term ≤ log.length ∧ termAt log (rl.firstFor term) = term ∧
      ∀ index, rl.snapLastIdx ≤ index → index ≤ log.length → termAt log index = term →
        rl.firstFor term ≤ index) := by
  have located : ∀ index, rl.snapLastIdx ≤ index → index ≤ log.length →
      ∃ entry, rl.tailLog[index - rl.snapLastIdx]? = some entry ∧
        entry.term = termAt log index := by
    intro index above within
    have size := compacts.size
    obtain ⟨entry, found, term⟩ := compacts.entryAt above within
    rw [entryAt_of_mem above (by omega)] at found
    exact ⟨entry, found, term⟩
  rcases firstForFrom_cases term (compacts.sorted inOrder) rl.snapLastIdx with
    ⟨missing, absent⟩ | ⟨position, entry, result, found, isTerm, least⟩
  · refine .inl ⟨missing, ?_⟩
    intro index above within same
    obtain ⟨entry, there, its⟩ := located index above within
    exact absent entry (List.mem_of_getElem? there) (its.trans same)
  · obtain ⟨within, atIndex⟩ := compacts.tailLog_term found
    rw [RaftLog.firstFor, result]
    refine .inr ⟨?_, Nat.le_add_right _ _, within, atIndex.symm.trans isTerm, ?_⟩
    · -- index 0 has term 0
      intro zero
      have none : termAt log 0 = 0 := rfl
      rw [zero] at atIndex
      simp only [invalidIndex, none] at atIndex
      omega
    · intro index above inside same
      obtain ⟨other, there, its⟩ := located index above inside
      have before := least _ other there (its.trans same)
      omega

end RaftLog

namespace Raft

variable {rf : Raft n Command} {peer : Fin n} {args : AppendEntriesArgs n Command}

/-- One round between a leader and a follower: `startReplication` sends to the
follower, which answers, and the leader handles the reply.  A successful
`AppendEntries` settles the matter. -/
def backOffRound (peer : Fin n) (pair : Exchange (Raft n Command)) :
    Option (Verdict (Exchange (Raft n Command))) := do
  match ← pair.leader.replicate peer with
  | .append args =>
      let (follower, reply) ← pair.follower.appendEntries args
      if reply.success then return .settled
      else
        let leader ← pair.leader.appendReply peer args reply
        return .again { leader, follower }
  | .snapshot args =>
      let (follower, reply) ← pair.follower.installSnapshot args
      return .again { leader := pair.leader.installReply peer args reply, follower }

/-- A request for an index that the log does not reach. -/
theorem appendEntries_of_short (current : rf.currentTerm ≤ args.term)
    (short : rf.log.size ≤ args.prevLogIndex) :
    rf.appendEntries args = some (rf.becomeFollowerLocked args.term,
      { term := rf.currentTerm, conflictTerm := invalidTerm, conflictIndex := rf.log.size }) := by
  simp only [appendEntries, rf.becomeFollowerLocked_log current, not_lt.mpr current, if_false,
    ge_iff_le, short, if_true]

/-- A request for an index that the follower has compacted. -/
theorem appendEntries_of_compacted (current : rf.currentTerm ≤ args.term)
    (within : args.prevLogIndex < rf.log.size)
    (compacted : args.prevLogIndex < rf.log.snapLastIdx) :
    rf.appendEntries args = some (rf.becomeFollowerLocked args.term,
      { term := rf.currentTerm, conflictTerm := rf.log.snapLastTerm,
        conflictIndex := rf.log.snapLastIdx }) := by
  simp only [appendEntries, rf.becomeFollowerLocked_log current, not_lt.mpr current, if_false,
    ge_iff_le, not_le.mpr within, compacted, if_true]

/-- A request whose entry before the new ones has the same term here. -/
theorem appendEntries_accepts {prev : LogEntry Command} (current : rf.currentTerm ≤ args.term)
    (found : rf.log.entryAt args.prevLogIndex = some prev) (same : prev.term = args.prevLogTerm) :
    ∃ next reply, rf.appendEntries args = some (next, reply) ∧ reply.success = true := by
  obtain ⟨above, below⟩ := RaftLog.entryAt_bounds found
  simp only [appendEntries, rf.becomeFollowerLocked_log current, not_lt.mpr current,
    not_le.mpr below, not_lt.mpr above, found, same, if_false, ne_eq, not_true_eq_false,
    RaftLog.appendFrom, RaftLog.idx_of_mem above below, Option.bind_eq_bind,
    Option.bind_some, Option.pure_def]
  exact ⟨_, _, rfl, rfl⟩

/-- A snapshot that the follower's own one includes. -/
theorem installSnapshot_of_older {args : InstallSnapshotArgs n}
    (current : rf.currentTerm ≤ args.term) (older : args.lastIncludedIndex ≤ rf.log.snapLastIdx) :
    rf.installSnapshot args =
      some (rf.becomeFollowerLocked args.term, { term := rf.currentTerm }) := by
  simp only [installSnapshot, not_lt.mpr current, rf.becomeFollowerLocked_log current, older,
    if_true, if_false]

/-- Every snapshot is answered, and a newer one than its own is what the log begins with. -/
theorem installSnapshot_answers {args : InstallSnapshotArgs n}
    (current : rf.currentTerm ≤ args.term) :
    ∃ next, rf.installSnapshot args = some (next, { term := rf.currentTerm }) ∧
      next.currentTerm = args.term ∧
      (rf.log.snapLastIdx < args.lastIncludedIndex →
        next.log.entryAt args.lastIncludedIndex = some (.dummy args.lastIncludedTerm)) := by
  have term := rf.becomeFollowerLocked_currentTerm current
  rcases Nat.lt_or_ge rf.log.snapLastIdx args.lastIncludedIndex with less | older
  · obtain ⟨installed, written⟩ := Option.isSome_iff_exists.mp
      (RaftLog.isSome_installSnapshot less args.lastIncludedTerm args.snapshot)
    refine ⟨{ persistLocked { rf.becomeFollowerLocked args.term with log := installed } with
      snapPending := true }, ?_, term, fun _ => RaftLog.entryAt_installSnapshot less written⟩
    simp only [installSnapshot, not_lt.mpr current, rf.becomeFollowerLocked_log current,
      not_le.mpr less, if_false, written, Option.bind_eq_bind, Option.bind_some, Option.pure_def]
  · exact ⟨_, installSnapshot_of_older current older, term, fun less => by omega⟩

/-- After a snapshot that is not older than its own, the follower shows the term of it. -/
theorem installSnapshot_shows (headed : rf.log.Headed) {args : InstallSnapshotArgs n}
    (current : rf.currentTerm ≤ args.term) (newer : rf.log.snapLastIdx ≤ args.lastIncludedIndex)
    (same : rf.log.snapLastIdx = args.lastIncludedIndex →
      rf.log.snapLastTerm = args.lastIncludedTerm) :
    ∃ next, rf.installSnapshot args = some (next, { term := rf.currentTerm }) ∧
      next.currentTerm = args.term ∧
      ∃ entry, next.log.entryAt args.lastIncludedIndex = some entry ∧
        entry.term = args.lastIncludedTerm := by
  rcases Nat.eq_or_lt_of_le newer with equal | less
  · refine ⟨_, installSnapshot_of_older current equal.ge,
      rf.becomeFollowerLocked_currentTerm current, .dummy rf.log.snapLastTerm, ?_, same equal⟩
    rw [rf.becomeFollowerLocked_log current, ← equal]
    exact headed.entryAt_snapLastIdx
  · obtain ⟨next, answered, term, begins⟩ := installSnapshot_answers current
    exact ⟨next, answered, term, _, begins less, rfl⟩

/-- What the leader does with a rejection: it moves the probe. -/
theorem appendReply_of_refused {reply : AppendEntriesReply} (leads : rf.role = .leader)
    (sameTerm : args.term = rf.currentTerm) (current : reply.term ≤ rf.currentTerm)
    (refused : reply.success = false) (within : rf.nextIndex peer ≤ rf.log.size) :
    rf.appendReply peer args reply = some { rf with
      nextIndex := Function.update rf.nextIndex peer (rf.nextProbe peer reply) } := by
  have kept : rf.contextLostLocked .leader args.term = false :=
    contextLostLocked_eq_false.mpr ⟨sameTerm.symm, leads⟩
  have capped := (rf.nextProbe_le peer reply).trans within
  simp only [appendReply, not_lt.mpr current, kept, refused, if_false, Bool.not_false,
    Bool.false_eq_true, if_true]
  split
  · have inside : (rf.log.entryAt (rf.nextProbe peer reply - 1)).isSome :=
      RaftLog.isSome_entryAt (by omega) (by omega)
    obtain ⟨entry, found⟩ := Option.isSome_iff_exists.mp inside
    rw [found]
    rfl
  · rfl

/-- Behind its snapshot the leader sends entries, with the term before them. -/
theorem replicate_of_beyond (compacts : rf.log.Compacts log)
    (beyond : rf.log.snapLastIdx < rf.nextIndex peer)
    (within : rf.nextIndex peer ≤ log.length + 1) :
    ∃ args, rf.replicate peer = some (.append args) ∧ args.term = rf.currentTerm ∧
      args.prevLogIndex = rf.nextIndex peer - 1 ∧
      args.prevLogTerm = termAt log (rf.nextIndex peer - 1) := by
  obtain ⟨prev, found, term⟩ := compacts.entryAt (show rf.log.snapLastIdx ≤
    rf.nextIndex peer - 1 by omega) (by omega)
  have covered : (log.take rf.log.snapLastIdx).length ≤ rf.nextIndex peer - 1 := by
    rw [compacts.length_take]
    omega
  have read := compacts.tail covered
  rw [replicate, if_neg (by omega)]
  simp only [found, read, Option.bind_eq_bind, Option.bind_some]
  exact ⟨_, rfl, rfl, rfl, term⟩

/-- Up to its snapshot the leader sends the snapshot. -/
theorem replicate_of_compacted (compacted : rf.nextIndex peer ≤ rf.log.snapLastIdx) :
    ∃ args, rf.replicate peer = some (.snapshot args) ∧ args.term = rf.currentTerm ∧
      args.lastIncludedIndex = rf.log.snapLastIdx ∧
      args.lastIncludedTerm = rf.log.snapLastTerm := by
  rw [replicate, if_pos (Nat.lt_succ_of_le compacted)]
  exact ⟨_, rfl, rfl, rfl, rfl⟩

/-- The round of a snapshot: the leader goes on after it unless it counts it as installed. -/
theorem backOffRound_of_snapshot {pair : Exchange (Raft n Command)} {follower : Raft n Command}
    {args : InstallSnapshotArgs n} (leads : pair.leader.role = .leader)
    (follows : pair.follower.currentTerm ≤ pair.leader.currentTerm)
    (sent : pair.leader.replicate peer = some (.snapshot args))
    (sameTerm : args.term = pair.leader.currentTerm)
    (answered : pair.follower.installSnapshot args =
      some (follower, { term := pair.follower.currentTerm })) :
    backOffRound peer pair = some (.again
      { leader :=
          if pair.leader.matchIndex peer < args.lastIncludedIndex then
            { pair.leader with
              matchIndex := Function.update pair.leader.matchIndex peer args.lastIncludedIndex
              nextIndex := Function.update pair.leader.nextIndex peer
                (args.lastIncludedIndex + 1) }
          else pair.leader
        follower }) := by
  have kept : pair.leader.contextLostLocked .leader args.term = false :=
    contextLostLocked_eq_false.mpr ⟨sameTerm.symm, leads⟩
  simp only [backOffRound, sent, answered, installReply, kept, gt_iff_lt, not_lt.mpr follows,
    Option.bind_eq_bind, Option.bind_some, Option.pure_def, Bool.false_eq_true, if_false]

/-- The round is settled if the follower has the leader's term before `nextIndex`. -/
theorem settles_of_found {pair : Exchange (Raft n Command)}
    (follows : pair.follower.currentTerm ≤ pair.leader.currentTerm)
    (compacts : pair.leader.log.Compacts log)
    (beyond : pair.leader.log.snapLastIdx < pair.leader.nextIndex peer)
    (within : pair.leader.nextIndex peer ≤ log.length + 1) {prev : LogEntry Command}
    (found : pair.follower.log.entryAt (pair.leader.nextIndex peer - 1) = some prev)
    (same : prev.term = termAt log (pair.leader.nextIndex peer - 1)) :
    Settles (backOffRound peer) pair := by
  obtain ⟨args, sent, term, prevIdx, prevTerm⟩ := replicate_of_beyond compacts beyond within
  rw [← prevIdx] at found
  obtain ⟨next, reply, answered, success⟩ := appendEntries_accepts (term ▸ follows) found
    (same.trans prevTerm.symm)
  apply Rounds.settles_of_settled
  simp only [backOffRound, sent, answered, success, Option.bind_eq_bind, Option.bind_some,
    if_true, Option.pure_def]

end Raft

/-- A leader of the follower's term or a later one that probes the follower.  The
whole logs agree as far as the follower has compacted its own. -/
structure Probing (peer : Fin n) (leaderLog followerLog : List (LogEntry Command))
    (pair : Exchange (Raft n Command)) : Prop where
  leads : pair.leader.role = .leader
  follows : pair.follower.currentTerm ≤ pair.leader.currentTerm
  leader : pair.leader.log.Compacts leaderLog
  follower : pair.follower.log.Compacts followerLog
  leaderInOrder : InOrder leaderLog
  followerInOrder : InOrder followerLog
  matching : ∀ index ≤ leaderLog.length, index ≤ followerLog.length →
    termAt leaderLog index = termAt followerLog index →
      leaderLog.take index = followerLog.take index
  agrees : leaderLog.take pair.follower.log.snapLastIdx =
    followerLog.take pair.follower.log.snapLastIdx
  positive : 0 < pair.leader.nextIndex peer
  within : pair.leader.nextIndex peer ≤ pair.leader.log.size

/-- Where the logs have a term in common, they agree up to the first of the two indices.
Logs of one cluster are like that: a term has one leader. -/
def TermsAlign (leaderLog followerLog : List (LogEntry Command)) : Prop :=
  ∀ index other, index ≤ followerLog.length → other ≤ leaderLog.length →
    termAt leaderLog other = termAt followerLog index →
      termAt leaderLog (min index other) = termAt followerLog (min index other)

section Search

variable (peer : Fin n) (leaderLog followerLog : List (LogEntry Command))
  (pair : Exchange (Raft n Command)) (next : Nat)

/-- Where a rejected probe before `next` leads: to the end of a log that is too short, and
from a conflict to where the follower's term begins, in the leader's log if it is there. -/
def retreat : Nat :=
  match pair.follower.log.entryAt (next - 1) with
  | none => min next pair.follower.log.size
  | some prev =>
      let first := pair.leader.log.firstFor prev.term
      min next (if first ≠ invalidIndex then first else pair.follower.log.firstFor prev.term)

/-- The follower accepts the probe before `next`, or the leader sends its snapshot and goes
on right after it. -/
def Arrives : Prop :=
  (max pair.leader.log.snapLastIdx pair.follower.log.snapLastIdx < next ∧
    next - 1 ≤ followerLog.length ∧
    termAt leaderLog (next - 1) = termAt followerLog (next - 1)) ∨
  (next ≤ pair.leader.log.snapLastIdx ∧
    pair.follower.log.snapLastIdx ≤ pair.leader.log.snapLastIdx ∧
    pair.leader.matchIndex peer < pair.leader.log.snapLastIdx)

/-- The leader may send its snapshot, or the later one of the snapshots ends before `next`
and the probes meet no conflict in the term that ends there. -/
def Converges : Prop :=
  (pair.follower.log.snapLastIdx ≤ pair.leader.log.snapLastIdx ∧
    pair.leader.matchIndex peer < pair.leader.log.snapLastIdx) ∨
  let snapshot := max pair.leader.log.snapLastIdx pair.follower.log.snapLastIdx
  snapshot < next ∧ snapshot ≤ followerLog.length ∧
    ∀ index, snapshot ≤ index → index < next → index ≤ followerLog.length →
      termAt followerLog index = termAt followerLog snapshot →
        termAt leaderLog index = termAt followerLog index

variable {peer leaderLog followerLog pair next}

theorem retreat_le : retreat pair ≤ id := by
  intro next
  unfold retreat
  split
  · exact min_le_left ..
  · exact min_le_left ..

/-- Up to the snapshots the search arrives nowhere unless it is there. -/
theorem Arrives.of_le {earlier : Nat} (before : earlier ≤ next)
    (behind : next ≤ max pair.leader.log.snapLastIdx pair.follower.log.snapLastIdx)
    (arrives : Arrives peer leaderLog followerLog pair earlier) :
    Arrives peer leaderLog followerLog pair next := by
  rcases arrives with ⟨beyond, -⟩ | ⟨-, newer, unmatched⟩
  · omega
  · exact .inr ⟨by omega, newer, unmatched⟩

end Search

/-- A later pair of the same search: only the probe has moved. -/
structure Searched (peer : Fin n) (leaderLog followerLog : List (LogEntry Command))
    (start pair : Exchange (Raft n Command)) : Prop extends
    Probing peer leaderLog followerLog pair where
  leaderSame : pair.leader.log = start.leader.log
  followerSame : pair.follower.log = start.follower.log
  matchSame : pair.leader.matchIndex = start.leader.matchIndex

namespace Probing

variable {peer : Fin n} {leaderLog followerLog : List (LogEntry Command)}
  {pair : Exchange (Raft n Command)}

theorem searched (probing : Probing peer leaderLog followerLog pair) :
    Searched peer leaderLog followerLog pair pair :=
  { probing with leaderSame := rfl, followerSame := rfl, matchSame := rfl }

theorem within_log (probing : Probing peer leaderLog followerLog pair) :
    pair.leader.nextIndex peer ≤ leaderLog.length + 1 := by
  have within := probing.within
  rwa [probing.leader.size] at within

theorem termAt_eq (probing : Probing peer leaderLog followerLog pair)
    (covered : index ≤ pair.follower.log.snapLastIdx) :
    termAt leaderLog index = termAt followerLog index :=
  termAt_eq_of_take probing.agrees covered

/-- The pair after a round that changes no log. -/
theorem moved (probing : Probing peer leaderLog followerLog pair) {leader : Raft n Command}
    (role : leader.role = pair.leader.role) (log : leader.log = pair.leader.log)
    (term : leader.currentTerm = pair.leader.currentTerm)
    (positive : 0 < leader.nextIndex peer) (within : leader.nextIndex peer ≤ leader.log.size) :
    Probing peer leaderLog followerLog
      { leader, follower := pair.follower.becomeFollowerLocked pair.leader.currentTerm } := by
  have sameLog := pair.follower.becomeFollowerLocked_log probing.follows
  refine
    { leads := role.trans probing.leads
      follows := ?_
      leader := log ▸ probing.leader
      follower := ?_
      leaderInOrder := probing.leaderInOrder
      followerInOrder := probing.followerInOrder
      matching := probing.matching
      agrees := ?_
      positive
      within }
  · rw [pair.follower.becomeFollowerLocked_currentTerm probing.follows]
    exact term.ge
  · rw [sameLog]
    exact probing.follower
  · rw [sameLog]
    exact probing.agrees

/-- A rejection leaves the pair as it was, but for the probe. -/
theorem refused (probing : Probing peer leaderLog followerLog pair)
    {args : AppendEntriesArgs n Command} {reply : AppendEntriesReply}
    (sent : pair.leader.replicate peer = some (.append args))
    (sameTerm : args.term = pair.leader.currentTerm)
    (answered : pair.follower.appendEntries args =
      some (pair.follower.becomeFollowerLocked args.term, reply))
    (failed : reply.success = false) (term : reply.term = pair.follower.currentTerm)
    (proper : 0 < pair.leader.nextProbe peer reply) :
    ∃ next, Raft.backOffRound peer pair = some (.again next) ∧
      Searched peer leaderLog followerLog pair next ∧
      next.leader.nextIndex peer = pair.leader.nextProbe peer reply := by
  have current : pair.follower.currentTerm ≤ args.term := sameTerm ▸ probing.follows
  have probed := Raft.appendReply_of_refused probing.leads sameTerm
    (term.trans_le probing.follows) failed probing.within
  have log := pair.follower.becomeFollowerLocked_log current
  have round : Raft.backOffRound peer pair = some (.again
      { leader := { pair.leader with
          nextIndex := Function.update pair.leader.nextIndex peer
            (pair.leader.nextProbe peer reply) }
        follower := pair.follower.becomeFollowerLocked args.term }) := by
    simp only [Raft.backOffRound, sent, answered, failed, probed, Option.bind_eq_bind,
      Option.bind_some, Option.pure_def, Bool.false_eq_true, if_false]
  have moved : Function.update pair.leader.nextIndex peer (pair.leader.nextProbe peer reply) peer =
      pair.leader.nextProbe peer reply := Function.update_self ..
  refine ⟨_, round, ⟨?_, rfl, log, rfl⟩, moved⟩
  rw [sameTerm]
  exact probing.moved rfl rfl rfl (proper.trans_eq moved.symm)
    (moved.trans_le ((Raft.nextProbe_le ..).trans probing.within))

theorem retreat_of_short (probing : Probing peer leaderLog followerLog pair) {next : Nat}
    (short : followerLog.length < next - 1) :
    retreat pair next = followerLog.length + 1 := by
  have size := probing.follower.size
  have unread : pair.follower.log.entryAt (next - 1) = none := by
    rw [Option.eq_none_iff_forall_ne_some]
    intro prev found
    have inside := (RaftLog.entryAt_bounds found).2
    omega
  simp only [retreat, unread]
  omega

/-- Behind both snapshots a rejection moves the probe as `retreat` says. -/
theorem retreats (probing : Probing peer leaderLog followerLog pair)
    (beyond : max pair.leader.log.snapLastIdx pair.follower.log.snapLastIdx <
      pair.leader.nextIndex peer)
    (rejected : pair.leader.nextIndex peer - 1 ≤ followerLog.length →
      termAt leaderLog (pair.leader.nextIndex peer - 1) ≠
        termAt followerLog (pair.leader.nextIndex peer - 1)) :
    ∃ next, Raft.backOffRound peer pair = some (.again next) ∧
      Searched peer leaderLog followerLog pair next ∧
      next.leader.nextIndex peer =
        retreat pair (pair.leader.nextIndex peer) := by
  have positive := probing.positive
  have size := probing.follower.size
  obtain ⟨args, sent, sameTerm, prevIdx, prevTerm⟩ :=
    Raft.replicate_of_beyond probing.leader (by omega) probing.within_log
  have current : pair.follower.currentTerm ≤ args.term := sameTerm ▸ probing.follows
  rcases Nat.lt_or_ge followerLog.length (pair.leader.nextIndex peer - 1) with short | long
  · have answered := Raft.appendEntries_of_short current (by omega)
    obtain ⟨next, round, kept, nextIndex⟩ := probing.refused sent sameTerm answered rfl rfl
      (Raft.nextProbe_pos positive (by simp only; omega))
    refine ⟨next, round, kept, nextIndex.trans ?_⟩
    rw [probing.retreat_of_short short]
    simp only [Raft.nextProbe, if_true]
    split <;> omega
  · obtain ⟨prev, found, term⟩ := probing.follower.entryAt (by omega) long
    have started : 0 < pair.leader.nextIndex peer - 1 := by
      by_contra zero
      rw [Nat.eq_zero_of_not_pos zero] at rejected
      exact rejected (Nat.zero_le _) rfl
    have proper := probing.followerInOrder.termAt_pos started long
    have present : 0 < pair.follower.log.firstFor prev.term := by
      rw [term]
      rcases probing.follower.firstFor_cases probing.followerInOrder proper with
        ⟨_, absent⟩ | ⟨valid, _⟩
      · exact absurd rfl (absent _ (by omega) long)
      · exact Nat.pos_of_ne_zero valid
    have answered := Raft.appendEntries_mismatch current (prevIdx ▸ found)
      (by rw [term, prevTerm]; exact (rejected long).symm)
    obtain ⟨next, round, kept, nextIndex⟩ := probing.refused sent sameTerm answered rfl rfl
      (Raft.nextProbe_pos positive present)
    refine ⟨next, round, kept, nextIndex.trans ?_⟩
    have valid : prev.term ≠ invalidTerm := by
      rw [term]
      exact Nat.ne_of_gt proper
    simp only [Raft.nextProbe, retreat, found, valid, if_false]
    have capped : ∀ probe : Nat, (if probe > pair.leader.nextIndex peer then
        pair.leader.nextIndex peer else probe) = min (pair.leader.nextIndex peer) probe := by
      intro probe
      split <;> omega
    exact capped _

/-- A conflict leads to an index of the follower's term there, before any other index at
which the logs have the term in common. -/
theorem retreat_of_conflict (probing : Probing peer leaderLog followerLog pair)
    (aligned : TermsAlign leaderLog followerLog) {next : Nat}
    (beyond : max pair.leader.log.snapLastIdx pair.follower.log.snapLastIdx < next)
    (long : next - 1 ≤ followerLog.length)
    (conflict : termAt leaderLog (next - 1) ≠ termAt followerLog (next - 1)) :
    let target := retreat pair next
    target ≤ next - 1 ∧ termAt followerLog target = termAt followerLog (next - 1) ∧
      ∀ index, max pair.leader.log.snapLastIdx pair.follower.log.snapLastIdx ≤ index →
        index ≤ leaderLog.length → index ≤ followerLog.length →
        termAt leaderLog index = termAt followerLog index →
        termAt followerLog index = termAt followerLog (next - 1) → target ≤ index := by
  have started : 0 < next - 1 := by
    by_contra zero
    rw [Nat.eq_zero_of_not_pos zero] at conflict
    exact conflict rfl
  have proper := probing.followerInOrder.termAt_pos started long
  obtain ⟨prev, found, term⟩ := probing.follower.entryAt
    (show pair.follower.log.snapLastIdx ≤ next - 1 by omega) long
  simp only [retreat, found, term]
  rcases probing.leader.firstFor_cases probing.leaderInOrder proper with
    ⟨missing, _⟩ | ⟨valid, above, inLog, atFirst, least⟩
  · -- the leader goes to where the term begins in the follower's log
    rw [missing, if_neg (by simp)]
    rcases probing.follower.firstFor_cases probing.followerInOrder proper with
      ⟨_, absent⟩ | ⟨_, _, _, atFirst, least⟩
    · exact absurd rfl (absent (next - 1) (by omega) long)
    have first := least (next - 1) (by omega) long rfl
    rw [min_eq_right (by omega)]
    exact ⟨first, atFirst, fun index after _ within _ same => least index (by omega) within same⟩
  · -- the term is in the leader's log, and it begins there before the conflict
    rw [if_pos valid]
    have shared := aligned _ _ long inLog atFirst
    have before : pair.leader.log.firstFor (termAt followerLog (next - 1)) ≤ next - 1 := by
      by_contra later
      rw [min_eq_left (by omega)] at shared
      exact conflict shared
    rw [min_eq_right before] at shared
    rw [min_eq_right (by omega)]
    exact ⟨before, shared.symm.trans atFirst,
      fun index after within _ agree same => least index (by omega) within (agree.trans same)⟩

theorem converges_of_arrives (probing : Probing peer leaderLog followerLog pair)
    {next : Nat} (within : next ≤ leaderLog.length + 1)
    (arrives : Arrives peer leaderLog followerLog pair next) :
    Converges peer leaderLog followerLog pair next := by
  rcases arrives with ⟨beyond, long, same⟩ | ⟨-, newer, unmatched⟩
  · refine .inr ⟨beyond, by omega, fun index _ before _ _ => ?_⟩
    exact termAt_eq_of_take (probing.matching _ (by omega) long same) (by omega)
  · exact .inl ⟨newer, unmatched⟩

/-- A rejection brings the probe down and changes nothing about the condition. -/
theorem converges_retreat (probing : Probing peer leaderLog followerLog pair)
    (aligned : TermsAlign leaderLog followerLog) {next : Nat}
    (beyond : max pair.leader.log.snapLastIdx pair.follower.log.snapLastIdx < next)
    (within : next ≤ leaderLog.length + 1)
    (missing : ¬ Arrives peer leaderLog followerLog pair next) :
    retreat pair next < next ∧
      (Converges peer leaderLog followerLog pair next ↔
      Converges peer leaderLog followerLog pair (retreat pair next)) := by
  rcases Nat.lt_or_ge followerLog.length (next - 1) with short | long
  · rw [probing.retreat_of_short short]
    refine ⟨by omega, or_congr_right ⟨?_, ?_⟩⟩
    · rintro ⟨_, inside, clean⟩
      exact ⟨by omega, inside, fun index after _ => clean index after (by omega)⟩
    · rintro ⟨_, inside, clean⟩
      exact ⟨beyond, inside, fun index after _ held => clean index after (by omega) held⟩
  have conflict : termAt leaderLog (next - 1) ≠ termAt followerLog (next - 1) :=
    fun same => missing (.inl ⟨beyond, long, same⟩)
  obtain ⟨before, sameTerm, least⟩ := probing.retreat_of_conflict aligned beyond long conflict
  generalize retreat pair next = target at before sameTerm least ⊢
  refine ⟨by omega, or_congr_right ⟨?_, ?_⟩⟩
  · rintro ⟨_, inside, clean⟩
    refine ⟨?_, inside, fun index after _ => clean index after (by omega)⟩
    -- otherwise the conflict would be in the term that ends at the snapshot
    by_contra behind
    have lower := probing.followerInOrder.termAt_mono (not_lt.mp behind) inside
    have upper := probing.followerInOrder.termAt_mono (Nat.le_sub_one_of_lt beyond) long
    exact conflict (clean _ (by omega) (by omega) long (by omega))
  · rintro ⟨above, inside, clean⟩
    refine ⟨beyond, inside, fun index after _ held ends => ?_⟩
    rcases Nat.lt_or_ge index target with early | late
    · exact clean index after early held ends
    · -- the term of the conflict begins after the snapshot
      have lower := probing.followerInOrder.termAt_mono late held
      have upper := probing.followerInOrder.termAt_mono above.le (before.trans long)
      have first := least _ le_rfl (by omega) inside (clean _ le_rfl above inside rfl) (by omega)
      omega

theorem converges_iff (probing : Probing peer leaderLog followerLog pair)
    (aligned : TermsAlign leaderLog followerLog) {next : Nat}
    (within : next ≤ leaderLog.length + 1) :
    (∃ count, Arrives peer leaderLog followerLog pair
      ((retreat pair)^[count] next)) ↔
    Converges peer leaderLog followerLog pair next := by
  induction next using Nat.strongRecOn with
  | ind next inductionHypothesis =>
      by_cases arrives : Arrives peer leaderLog followerLog pair next
      · exact iff_of_true ⟨0, arrives⟩ (probing.converges_of_arrives within arrives)
      rcases Nat.lt_or_ge (max pair.leader.log.snapLastIdx pair.follower.log.snapLastIdx) next with
        beyond | behind
      · obtain ⟨less, same⟩ := probing.converges_retreat aligned beyond within arrives
        rw [same, ← inductionHypothesis _ less (by omega)]
        constructor
        · rintro ⟨count, later⟩
          cases count with
          | zero => exact absurd later arrives
          | succ count => exact ⟨count, later⟩
        · rintro ⟨count, later⟩
          exact ⟨count + 1, later⟩
      · refine iff_of_false ?_ ?_
        · rintro ⟨count, earlier⟩
          exact arrives (earlier.of_le
            (Function.iterate_le_id_of_le_id retreat_le count next) behind)
        · rintro (⟨newer, unmatched⟩ | ⟨beyond, -⟩)
          · exact arrives (.inr ⟨by omega, newer, unmatched⟩)
          · omega

/-- An `InstallSnapshot` that is not older than the follower's snapshot, and the
`AppendEntries` after it. -/
theorem settles_of_compacted (probing : Probing peer leaderLog followerLog pair)
    (newer : pair.follower.log.snapLastIdx ≤ pair.leader.log.snapLastIdx)
    (unmatched : pair.leader.matchIndex peer < pair.leader.log.snapLastIdx)
    (behind : pair.leader.nextIndex peer ≤ pair.leader.log.snapLastIdx) :
    Settles (Raft.backOffRound peer) pair := by
  have snapshot := probing.leader.snapLastIdx_le
  have term : pair.leader.log.snapLastTerm = termAt leaderLog pair.leader.log.snapLastIdx :=
    probing.leader.snapLastTerm
  obtain ⟨args, sent, sameTerm, lastIndex, lastTerm⟩ := Raft.replicate_of_compacted behind
  have current : pair.follower.currentTerm ≤ args.term := sameTerm ▸ probing.follows
  have sameSnapshot : pair.follower.log.snapLastIdx = args.lastIncludedIndex →
      pair.follower.log.snapLastTerm = args.lastIncludedTerm := by
    intro same
    have own := probing.follower.snapLastTerm
    rw [← termAt, ← probing.termAt_eq le_rfl, same, lastIndex] at own
    rw [own, lastTerm, term]
  obtain ⟨follower, answered, followerTerm, prev, found, prevTerm⟩ :=
    Raft.installSnapshot_shows probing.follower.headed current (lastIndex ▸ newer) sameSnapshot
  have round :=
    Raft.backOffRound_of_snapshot probing.leads probing.follows sent sameTerm answered
  rw [lastIndex, if_pos unmatched] at round
  apply Rounds.settles_of_again round
  have moved : Function.update pair.leader.nextIndex peer (pair.leader.log.snapLastIdx + 1) peer =
      pair.leader.log.snapLastIdx + 1 := Function.update_self ..
  refine Raft.settles_of_found (followerTerm.trans sameTerm).le probing.leader ?_ ?_ ?_
    (prevTerm.trans ?_)
  · exact (Nat.lt_succ_self _).trans_eq moved.symm
  · exact moved.trans_le (Nat.succ_le_succ snapshot)
  · dsimp only
    rw [moved, Nat.add_sub_cancel, ← lastIndex]
    exact found
  · dsimp only
    rw [moved, lastTerm]
    exact term

/-- A follower that has compacted more than the leader rejects every request for an
index before its snapshot, and no rejection moves the probe up. -/
theorem never_settles (probing : Probing peer leaderLog followerLog pair)
    (older : pair.leader.log.snapLastIdx < pair.follower.log.snapLastIdx)
    (behind : pair.leader.nextIndex peer ≤ pair.follower.log.snapLastIdx) :
    ¬ Settles (Raft.backOffRound peer) pair := by
  refine Rounds.not_settles_of_invariant
    (fun pair => Probing peer leaderLog followerLog pair ∧
      pair.leader.log.snapLastIdx < pair.follower.log.snapLastIdx ∧
      pair.leader.nextIndex peer ≤ pair.follower.log.snapLastIdx) ?_ ⟨probing, older, behind⟩
  rintro pair ⟨probing, older, behind⟩
  have positive := probing.positive
  have size := probing.follower.size
  have snapshot := probing.follower.snapLastIdx_le
  have log := pair.follower.becomeFollowerLocked_log probing.follows
  rcases Nat.lt_or_ge pair.leader.log.snapLastIdx (pair.leader.nextIndex peer) with
    beyond | compacted
  · obtain ⟨args, sent, sameTerm, prevIdx, _⟩ :=
      Raft.replicate_of_beyond probing.leader beyond probing.within_log
    have current : pair.follower.currentTerm ≤ args.term := sameTerm ▸ probing.follows
    have before : args.prevLogIndex < pair.follower.log.snapLastIdx := by omega
    have answered := Raft.appendEntries_of_compacted current (by omega) before
    obtain ⟨next, round, kept, nextIndex⟩ := probing.refused sent sameTerm answered rfl rfl
      (Raft.nextProbe_pos positive (show 0 < pair.follower.log.snapLastIdx by omega))
    refine ⟨next, round, kept.toProbing, ?_, ?_⟩
    · rw [kept.leaderSame, kept.followerSame]
      exact older
    · rw [nextIndex, kept.followerSame]
      exact (Raft.nextProbe_le ..).trans behind
  · -- the follower has the snapshot already, and the leader goes on right after its own
    obtain ⟨args, sent, sameTerm, lastIndex, _⟩ := Raft.replicate_of_compacted compacted
    have current : pair.follower.currentTerm ≤ args.term := sameTerm ▸ probing.follows
    have round := Raft.backOffRound_of_snapshot probing.leads probing.follows sent sameTerm
      (Raft.installSnapshot_of_older current (lastIndex ▸ older.le))
    have leaderSize := probing.leader.headed.snapLastIdx_lt
    rw [lastIndex, sameTerm] at round
    refine ⟨_, round, ?_⟩
    dsimp only
    rw [log]
    split
    · refine ⟨probing.moved rfl rfl rfl ?_ ?_, older, ?_⟩
      all_goals
        dsimp only
        rw [Function.update_self]
        omega
    · exact ⟨probing.moved rfl rfl rfl positive probing.within, older, behind⟩

/-- A leader that counts its snapshot as installed only sends it again. -/
theorem never_settles_of_matched (probing : Probing peer leaderLog followerLog pair)
    (matched : pair.leader.log.snapLastIdx ≤ pair.leader.matchIndex peer)
    (behind : pair.leader.nextIndex peer ≤ pair.leader.log.snapLastIdx) :
    ¬ Settles (Raft.backOffRound peer) pair := by
  refine Rounds.not_settles_of_invariant
    (fun state => state.leader = pair.leader ∧
      state.follower.currentTerm ≤ pair.leader.currentTerm) ?_ ⟨rfl, probing.follows⟩
  rintro ⟨leader, follower⟩ ⟨rfl, follows⟩
  obtain ⟨args, sent, sameTerm, lastIndex, _⟩ := Raft.replicate_of_compacted behind
  obtain ⟨next, answered, nextTerm, -⟩ := Raft.installSnapshot_answers (sameTerm ▸ follows)
  have round : Raft.backOffRound peer ⟨pair.leader, follower⟩ = _ :=
    Raft.backOffRound_of_snapshot probing.leads follows sent sameTerm answered
  rw [lastIndex, if_neg (not_lt.mpr matched)] at round
  exact ⟨_, round, rfl, (nextTerm.trans sameTerm).le⟩

/-- A round arrives, moves the probe, or is one of a row without end. -/
theorem round_cases (probing : Probing peer leaderLog followerLog pair) :
    (Arrives peer leaderLog followerLog pair (pair.leader.nextIndex peer) ∧
      Settles (Raft.backOffRound peer) pair) ∨
    (¬ Arrives peer leaderLog followerLog pair (pair.leader.nextIndex peer) ∧
      ∃ next, Raft.backOffRound peer pair = some (.again next) ∧
        Searched peer leaderLog followerLog pair next ∧
        next.leader.nextIndex peer =
          retreat pair (pair.leader.nextIndex peer)) ∨
    (¬ Settles (Raft.backOffRound peer) pair ∧
      ∀ earlier ≤ pair.leader.nextIndex peer, ¬ Arrives peer leaderLog followerLog pair
        earlier) := by
  by_cases arrives : Arrives peer leaderLog followerLog pair (pair.leader.nextIndex peer)
  · refine .inl ⟨arrives, ?_⟩
    rcases arrives with ⟨beyond, long, same⟩ | ⟨behind, newer, unmatched⟩
    · obtain ⟨prev, found, term⟩ := probing.follower.entryAt (by omega) long
      exact Raft.settles_of_found probing.follows probing.leader (by omega) probing.within_log
        found (term.trans same.symm)
    · exact probing.settles_of_compacted newer unmatched behind
  refine .inr ?_
  rcases Nat.lt_or_ge (max pair.leader.log.snapLastIdx pair.follower.log.snapLastIdx)
    (pair.leader.nextIndex peer) with beyond | behind
  · exact .inl ⟨arrives, probing.retreats beyond fun long same =>
      arrives (.inl ⟨beyond, long, same⟩)⟩
  refine .inr ⟨?_, fun _ before earlier => arrives (earlier.of_le before behind)⟩
  rcases Nat.lt_or_ge pair.leader.log.snapLastIdx pair.follower.log.snapLastIdx with
    older | newer
  · exact probing.never_settles older (by omega)
  · refine probing.never_settles_of_matched ?_ (by omega)
    by_contra unmatched
    exact arrives (.inr ⟨by omega, newer, by omega⟩)

end Probing

theorem Searched.trans {peer : Fin n} {leaderLog followerLog : List (LogEntry Command)}
    {start middle last : Exchange (Raft n Command)}
    (front : Searched peer leaderLog followerLog start middle)
    (back : Searched peer leaderLog followerLog middle last) :
    Searched peer leaderLog followerLog start last :=
  { back with
    leaderSame := back.leaderSame.trans front.leaderSame
    followerSame := back.followerSame.trans front.followerSame
    matchSame := back.matchSame.trans front.matchSame }

section Results

variable {peer : Fin n} {leaderLog followerLog : List (LogEntry Command)}
  {start pair : Exchange (Raft n Command)}

theorem Searched.arrives (searched : Searched peer leaderLog followerLog start pair) :
    Arrives peer leaderLog followerLog pair = Arrives peer leaderLog followerLog start := by
  funext next
  rw [Arrives, searched.leaderSame, searched.followerSame, searched.matchSame, Arrives]

theorem Searched.retreat (searched : Searched peer leaderLog followerLog start pair) :
    retreat pair = MultiRaft.retreat start := by
  funext next
  rw [MultiRaft.retreat, searched.leaderSame, searched.followerSame, MultiRaft.retreat]

/-- The rounds follow `retreat` until they arrive. -/
theorem Probing.settles_iff (probing : Probing peer leaderLog followerLog pair) :
    Settles (Raft.backOffRound peer) pair ↔
      ∃ count, Arrives peer leaderLog followerLog pair
        ((retreat pair)^[count] (pair.leader.nextIndex peer)) := by
  refine Rounds.settles_iff_of_moves (Searched peer leaderLog followerLog pair)
    (fun pair => pair.leader.nextIndex peer) _ _ ?_ probing.searched
  intro state searched
  have cases := searched.round_cases
  rw [searched.arrives, searched.retreat] at cases
  rcases cases with done | ⟨missing, next, round, kept, moved⟩ | ⟨never, missing⟩
  · exact .inl done
  · exact .inr (.inl ⟨missing, next, round, searched.trans kept, moved⟩)
  · exact .inr (.inr ⟨never, fun count =>
      missing _ (Function.iterate_le_id_of_le_id retreat_le count _)⟩)

/-- The back-off ends in a successful `AppendEntries` exactly if going back by terms arrives.
For logs of one cluster this is so exactly if the leader has compacted at least as much as
the follower and may still install its snapshot there, or if it starts behind both snapshots
and meets no conflict in the term that ends at the later one. -/
theorem back_off_settles {leader follower : Raft n Command}
    (probing : Probing peer leaderLog followerLog { leader, follower }) :
    (Settles (Raft.backOffRound peer) { leader, follower } ↔
      ∃ count, Arrives peer leaderLog followerLog { leader, follower }
        ((retreat { leader, follower })^[count] (leader.nextIndex peer))) ∧
    (TermsAlign leaderLog followerLog →
      (Settles (Raft.backOffRound peer) { leader, follower } ↔
        Converges peer leaderLog followerLog { leader, follower } (leader.nextIndex peer))) :=
  ⟨probing.settles_iff, fun aligned =>
    probing.settles_iff.trans (probing.converges_iff aligned probing.within_log)⟩

end Results

/-- Entries of the given terms. -/
def entriesOf (terms : List Nat) : List (LogEntry Nat) :=
  terms.map fun term => { term, commandValid := true, command := some 7 }

/-- A new leader of term 2 that has added an entry to two of term 1. -/
def partedLeader : Raft 2 Nat :=
  { Raft.make 0 (makePersister 2 Nat) with
    role := .leader, currentTerm := 2, log := newLog 0 0 [] (entriesOf [1, 1, 2]),
    nextIndex := fun _ => 4 }

/-- A follower with a third entry of term 1, compacted or not. -/
def partedFollower (snapLastIdx snapLastTerm : Nat) : Raft 2 Nat :=
  { Raft.make 1 (makePersister 2 Nat) with
    log := newLog snapLastIdx snapLastTerm [] ((entriesOf [1, 1, 1]).drop snapLastIdx) }

theorem probing_parted {snapLastIdx snapLastTerm : Nat} (within : snapLastIdx ≤ 2)
    (term : snapLastTerm = termAt (entriesOf [1, 1, 1]) snapLastIdx) :
    Probing 1 (entriesOf [1, 1, 2]) (entriesOf [1, 1, 1])
      { leader := partedLeader, follower := partedFollower snapLastIdx snapLastTerm } where
  leads := rfl
  follows := show 1 ≤ 2 by decide
  leader := ⟨rfl, rfl, rfl, Nat.zero_le _⟩
  follower := by
    refine ⟨rfl, ?_, term, ?_⟩
    · change snapLastIdx = ((entriesOf [1, 1, 1]).take snapLastIdx).length
      rw [List.length_take, show (entriesOf [1, 1, 1]).length = 3 from rfl]
      omega
    · exact List.length_take_le' _ _
  leaderInOrder := ⟨by decide, by decide⟩
  followerInOrder := ⟨by decide, by decide⟩
  matching := by decide
  agrees := by
    have agree : ∀ index ≤ 2,
        (entriesOf [1, 1, 2]).take index = (entriesOf [1, 1, 1]).take index := by
      decide
    exact agree snapLastIdx within
  positive := show 0 < 4 by decide
  within := show 4 ≤ 4 from le_rfl

theorem back_off_settles_parted :
    Settles (Raft.backOffRound 1) { leader := partedLeader, follower := partedFollower 0 0 } := by
  have aligned : ∀ index ≤ 3, ∀ other ≤ 3,
      termAt (entriesOf [1, 1, 2]) other = termAt (entriesOf [1, 1, 1]) index →
        termAt (entriesOf [1, 1, 2]) (min index other) =
          termAt (entriesOf [1, 1, 1]) (min index other) := by
    decide
  have shared : ∀ index ≤ 3, termAt (entriesOf [1, 1, 1]) index = 0 →
      termAt (entriesOf [1, 1, 2]) index = termAt (entriesOf [1, 1, 1]) index := by
    decide
  refine ((back_off_settles (probing_parted (by decide) rfl)).2 ?_).mpr
    (.inr ⟨by decide, by decide, ?_⟩)
  · intro index other within inside
    exact aligned index within other inside
  · intro index _ _ within
    exact shared index within

/-- The same logs, the follower's compacted at index 2: the first rejection names term 1,
the leader goes back to index 1, and the follower rejects what is before its snapshot. -/
theorem back_off_never_settles :
    Probing 1 (entriesOf [1, 1, 2]) (entriesOf [1, 1, 1])
      { leader := partedLeader, follower := partedFollower 2 1 } ∧
    ¬ Settles (Raft.backOffRound 1)
      { leader := partedLeader, follower := partedFollower 2 1 } := by
  have probing : Probing 1 (entriesOf [1, 1, 2]) (entriesOf [1, 1, 1])
      { leader := partedLeader, follower := partedFollower 2 1 } := probing_parted le_rfl rfl
  have sent : partedLeader.replicate 1 = some (.append
      { term := 2, leaderId := 0, prevLogIndex := 3, prevLogTerm := 2, entries := [],
        leaderCommit := 0 }) := rfl
  obtain ⟨next, round, kept, nextIndex⟩ := probing.refused sent rfl rfl rfl rfl (by decide)
  refine ⟨probing, Rounds.not_settles_of_again round (kept.never_settles ?_ ?_)⟩
  · rw [kept.leaderSame, kept.followerSame]
    decide
  · rw [nextIndex, kept.followerSame]
    decide

end MultiRaft
