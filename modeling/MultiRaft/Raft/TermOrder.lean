import MultiRaft.Raft.Election
import MultiRaft.Raft.LogStep

/-!
# The terms along a log

Appending keeps the terms of a log in order, and so does compaction.
`InstallSnapshot` does only if the server agrees with the snapshot on the term at
its index: it puts the snapshot in front of whatever longer tail the server has,
also of one that was never committed.
-/

namespace MultiRaft

variable {n : Nat} {Command : Type}

/-- The terms do not decrease along the tail and do not exceed the bound.  Term 0
is that of index 0 alone. -/
structure RaftLog.Ordered (rl : RaftLog Command) (bound : Nat) : Prop where
  headed : rl.Headed
  sorted : rl.tailLog.Pairwise fun earlier later => earlier.term ≤ later.term
  bounded : ∀ entry ∈ rl.tailLog, entry.term ≤ bound
  proper : ∀ position entry, rl.tailLog[position]? = some entry →
    (entry.term = 0 ↔ rl.snapLastIdx + position = 0)

/-- The entries follow the one they are sent to be appended to. -/
structure AppendEntriesArgs.Ordered (args : AppendEntriesArgs n Command) : Prop where
  sorted : args.entries.Pairwise fun earlier later => earlier.term ≤ later.term
  after : ∀ entry ∈ args.entries, args.prevLogTerm ≤ entry.term
  bounded : ∀ entry ∈ args.entries, 0 < entry.term ∧ entry.term ≤ args.term
  proper : args.prevLogTerm = 0 ↔ args.prevLogIndex = 0

structure InstallSnapshotArgs.Ordered (args : InstallSnapshotArgs n) : Prop where
  bounded : args.lastIncludedTerm ≤ args.term
  proper : args.lastIncludedTerm = 0 ↔ args.lastIncludedIndex = 0

namespace RaftLog

variable {rl next : RaftLog Command} {bound index : Nat}

theorem Ordered.mono (ordered : rl.Ordered bound) {larger : Nat} (grown : bound ≤ larger) :
    rl.Ordered larger :=
  ⟨ordered.headed, ordered.sorted,
    fun entry member => (ordered.bounded entry member).trans grown, ordered.proper⟩

variable {entry : LogEntry Command}

theorem Ordered.append (ordered : rl.Ordered bound) (positive : 0 < bound)
    (own : entry.term = bound) : (rl.append entry).Ordered bound where
  headed := ordered.headed.append entry
  sorted := by
    refine List.pairwise_append.mpr ⟨ordered.sorted, List.pairwise_singleton _ _, ?_⟩
    intro earlier member later isLast
    rw [List.mem_singleton.mp isLast, own]
    exact ordered.bounded earlier member
  bounded other member := by
    rcases List.mem_append.mp member with old | isLast
    · exact ordered.bounded other old
    · rw [List.mem_singleton.mp isLast]
      exact own.le
  proper position other found := by
    rcases Nat.lt_or_ge position rl.tailLog.length with inside | outside
    · rw [RaftLog.append, List.getElem?_append_left inside] at found
      exact ordered.proper position other found
    · rw [RaftLog.append, List.getElem?_append_right outside] at found
      have isLast := List.mem_singleton.mp (List.mem_of_getElem? found)
      have filled : 0 < rl.tailLog.length := by
        obtain ⟨entries, shape⟩ := ordered.headed
        simp [shape]
      subst isLast
      change other.term = 0 ↔ rl.snapLastIdx + position = 0
      omega

/-- Up to a position no term is larger than the one there. -/
theorem Ordered.take_le (ordered : rl.Ordered bound) {position : Nat}
    (found : rl.tailLog[position]? = some entry) :
    ∀ earlier ∈ rl.tailLog.take (position + 1), earlier.term ≤ entry.term := by
  intro earlier member
  have sorted := ordered.sorted
  rw [← List.take_append_drop position rl.tailLog, List.pairwise_append] at sorted
  rw [List.take_add_one, found] at member
  rcases List.mem_append.mp member with before | last
  · refine sorted.2.2 earlier before entry ?_
    refine List.mem_of_getElem? (i := 0) ?_
    rw [List.getElem?_drop]
    exact found
  · rw [List.mem_singleton.mp last]

/-- The log cut at an entry that it has. -/
theorem Ordered.cut (ordered : rl.Ordered bound) (above : rl.snapLastIdx ≤ index)
    (found : rl.tailLog[index - rl.snapLastIdx]? = some entry) (snapshot : Bytes) :
    RaftLog.Ordered
      { snapLastIdx := index, snapLastTerm := entry.term, snapshot,
        tailLog := .dummy entry.term :: rl.tailLog.drop (index - rl.snapLastIdx + 1) }
      bound := by
  obtain ⟨within, isEntry⟩ := List.getElem?_eq_some_iff.mp found
  have cons : rl.tailLog.drop (index - rl.snapLastIdx) =
      entry :: rl.tailLog.drop (index - rl.snapLastIdx + 1) := by
    rw [List.drop_eq_getElem_cons within, isEntry]
  have sorted := ordered.sorted.sublist (List.drop_sublist (index - rl.snapLastIdx) rl.tailLog)
  rw [cons, List.pairwise_cons] at sorted
  refine ⟨⟨_, rfl⟩, List.pairwise_cons.mpr sorted, ?_, ?_⟩
  · intro other member
    rcases List.mem_cons.mp member with rfl | rest
    · exact ordered.bounded entry (List.mem_of_getElem? found)
    · exact ordered.bounded other (List.mem_of_mem_drop rest)
  · intro position other located
    cases position with
    | zero =>
        cases located
        have atCut := ordered.proper _ entry found
        change entry.term = 0 ↔ index + 0 = 0
        omega
    | succ position =>
        rw [List.getElem?_cons_succ, List.getElem?_drop] at located
        have behind := ordered.proper _ other located
        change other.term = 0 ↔ index + (position + 1) = 0
        omega

/-- Entries that follow an entry of the log. -/
theorem Ordered.appendFrom (ordered : rl.Ordered bound) {args : AppendEntriesArgs n Command}
    (sent : args.Ordered) (current : bound ≤ args.term) {prev : LogEntry Command}
    (found : rl.entryAt args.prevLogIndex = some prev) (prevTerm : prev.term = args.prevLogTerm)
    (appended : rl.appendFrom args.prevLogIndex args.entries = some next) :
    next.Ordered args.term := by
  have headed := ordered.headed.appendFrom appended
  obtain ⟨above, below⟩ := entryAt_bounds found
  rw [entryAt_of_mem above below] at found
  obtain ⟨i, inRange, result⟩ := Option.bind_eq_some_iff.mp appended
  obtain ⟨_, _, rfl⟩ := idx_eq_some.mp inRange
  cases result
  have within := (List.getElem?_eq_some_iff.mp found).1
  refine ⟨headed, List.pairwise_append.mpr ⟨?_, sent.sorted, ?_⟩, ?_, ?_⟩
  · exact ordered.sorted.sublist (List.take_sublist _ _)
  · intro earlier inFront later inEntries
    exact (ordered.take_le found earlier inFront).trans (prevTerm.trans_le
      (sent.after later inEntries))
  · intro entry member
    rcases List.mem_append.mp member with inFront | inEntries
    · exact (ordered.bounded entry (List.mem_of_mem_take inFront)).trans current
    · exact (sent.bounded entry inEntries).2
  · intro position entry located
    rcases Nat.lt_or_ge position (args.prevLogIndex - rl.snapLastIdx + 1) with front | behind
    · rw [List.getElem?_append_left (by rw [List.length_take]; omega),
        List.getElem?_take_of_lt front] at located
      exact ordered.proper position entry located
    · rw [List.getElem?_append_right (by rw [List.length_take]; omega)] at located
      have positive := (sent.bounded entry (List.mem_of_getElem? located)).1
      dsimp only
      omega

theorem Ordered.doSnapshot {bytes : Bytes} (ordered : rl.Ordered bound)
    (compacted : rl.doSnapshot index bytes = some next) : next.Ordered bound := by
  rcases doSnapshot_cases compacted with rfl | ⟨above, _, entry, found, rfl⟩
  · exact ordered
  · exact ordered.cut above.le found bytes

/-- A snapshot that stands alone, or whose term the server has at its index. -/
theorem Ordered.installSnapshot {args : InstallSnapshotArgs n} (ordered : rl.Ordered bound)
    (sent : args.Ordered) (current : bound ≤ args.term)
    (newer : rl.snapLastIdx < args.lastIncludedIndex)
    (agrees : args.lastIncludedIndex + 1 < rl.size →
      (rl.entryAt args.lastIncludedIndex).map LogEntry.term = some args.lastIncludedTerm)
    (installed : rl.installSnapshot args.lastIncludedIndex args.lastIncludedTerm args.snapshot =
      some next) : next.Ordered args.term := by
  rcases installSnapshot_cases newer installed with ⟨longer, rfl⟩ | ⟨_, rfl⟩
  · obtain ⟨entry, found, term⟩ := Option.map_eq_some_iff.mp (agrees longer)
    rw [entryAt_of_mem newer.le (by omega)] at found
    rw [← term]
    exact (ordered.mono current).cut newer.le found _
  · refine ⟨⟨[], rfl⟩, List.pairwise_singleton _ _, ?_, ?_⟩
    · intro entry member
      rw [List.mem_singleton.mp member]
      exact sent.bounded
    · intro position entry located
      cases position with
      | zero =>
          cases located
          exact sent.proper
      | succ position => cases located

/-- `firstFor` finds every term of the log. -/
theorem Ordered.firstFor (ordered : rl.Ordered bound) (member : entry ∈ rl.tailLog) :
    ∃ found, rl.entryAt (rl.firstFor entry.term) = some found ∧ found.term = entry.term := by
  rcases firstForFrom_cases entry.term ordered.sorted rl.snapLastIdx with
    ⟨_, absent⟩ | ⟨position, found, result, located, term, _⟩
  · exact absurd rfl (absent entry member)
  refine ⟨found, ?_, term⟩
  have within := (List.getElem?_eq_some_iff.mp located).1
  rw [RaftLog.firstFor, result, entryAt_of_mem (Nat.le_add_right _ _)
    (by rw [size]; omega), Nat.add_sub_cancel_left]
  exact located

/-- The index found for a term of a real entry is not that of the empty log. -/
theorem Ordered.firstFor_pos (ordered : rl.Ordered bound) (member : entry ∈ rl.tailLog)
    (positive : 0 < entry.term) : rl.firstFor entry.term ≠ 0 := by
  obtain ⟨found, located, term⟩ := ordered.firstFor member
  obtain ⟨above, below⟩ := entryAt_bounds located
  rw [entryAt_of_mem above below] at located
  have proper := ordered.proper _ found located
  omega

theorem term_le (sorted : rl.tailLog.Pairwise fun earlier later => earlier.term ≤ later.term)
    {first last : LogEntry Command} {start stop : Nat} (atStart : rl.entryAt start = some first)
    (atStop : rl.entryAt stop = some last) (before : start ≤ stop) : first.term ≤ last.term := by
  obtain ⟨above, inStart⟩ := entryAt_eq_some.mp atStart
  obtain ⟨_, inStop⟩ := entryAt_eq_some.mp atStop
  rcases Nat.eq_or_lt_of_le before with rfl | strictly
  · rw [inStart] at inStop
    cases inStop
    exact Nat.le_refl _
  · obtain ⟨_, rfl⟩ := List.getElem?_eq_some_iff.mp inStart
    obtain ⟨_, rfl⟩ := List.getElem?_eq_some_iff.mp inStop
    exact List.pairwise_iff_getElem.mp sorted _ _ _ _ (by omega)

/-- What the mismatch branch relies on: from the first entry of a term to any other
one of it, a log in order has no other term. -/
theorem term_eq_of_between (sorted : rl.tailLog.Pairwise fun earlier later =>
    earlier.term ≤ later.term) {first last : LogEntry Command} {start stop : Nat}
    (atStart : rl.entryAt start = some first) (atStop : rl.entryAt stop = some last)
    (same : first.term = last.term) (after : start ≤ index) (before : index ≤ stop) :
    ∃ entry, rl.entryAt index = some entry ∧ entry.term = last.term := by
  have above := (entryAt_bounds atStart).1
  have below := (entryAt_bounds atStop).2
  obtain ⟨entry, found⟩ := Option.isSome_iff_exists.mp
    (isSome_entryAt (above.trans after) (before.trans_lt below))
  refine ⟨entry, found, ?_⟩
  have notBefore : first.term ≤ entry.term := term_le sorted atStart found after
  have notBehind : entry.term ≤ last.term := term_le sorted found atStop before
  omega

/-- The index found is the first of its term, and an index is found for every term. -/
theorem firstFor_isLeast
    (sorted : rl.tailLog.Pairwise fun earlier later =>
    earlier.term ≤ later.term) {term : Nat} (found : rl.entryAt index = some entry)
    (own : entry.term = term) :
    IsLeast {index | ∃ entry, rl.entryAt index = some entry ∧ entry.term = term}
      (rl.firstFor term) := by
  rcases firstForFrom_cases term sorted rl.snapLastIdx with
    ⟨_, absent⟩ | ⟨position, first, result, located, isTerm, least⟩
  · exact absurd own (absent entry (List.mem_of_getElem? (entryAt_eq_some.mp found).2))
  · rw [RaftLog.firstFor, result]
    refine ⟨⟨first, entryAt_eq_some.mpr ⟨Nat.le_add_right _ _, ?_⟩, isTerm⟩, ?_⟩
    · rw [Nat.add_sub_cancel_left]
      exact located
    · rintro other ⟨candidate, present, itsTerm⟩
      obtain ⟨above, inTail⟩ := entryAt_eq_some.mp present
      have notBefore := least _ candidate inTail itsTerm
      omega

theorem firstFor_eq_invalidIndex (sorted : rl.tailLog.Pairwise fun earlier later =>
    earlier.term ≤ later.term) {term : Nat}
    (absent : ∀ index entry, rl.entryAt index = some entry → entry.term ≠ term) :
    rl.firstFor term = invalidIndex := by
  rcases firstForFrom_cases term sorted rl.snapLastIdx with
    ⟨result, _⟩ | ⟨position, first, _, located, isTerm, _⟩
  · exact result
  · refine absurd isTerm (absent (rl.snapLastIdx + position) first ?_)
    refine entryAt_eq_some.mpr ⟨Nat.le_add_right _ _, ?_⟩
    rw [Nat.add_sub_cancel_left]
    exact located

end RaftLog

/-- The request would be installed in front of entries that follow an entry of
another term than that of the snapshot. -/
def Raft.splices (rf : Raft n Command) (args : InstallSnapshotArgs n) : Bool :=
  decide (rf.currentTerm ≤ args.term) && decide (rf.log.snapLastIdx < args.lastIncludedIndex) &&
    decide (args.lastIncludedIndex + 1 < rf.log.size) &&
    (rf.log.entryAt args.lastIncludedIndex).map LogEntry.term != some args.lastIncludedTerm

namespace Raft

/-- A section keeps the terms in order if the request it handles does. -/
theorem LogStep.ordered {rf next : Raft n Command} {call : Call n Command}
    (step : LogStep rf next call) (ordered : rf.log.Ordered rf.currentTerm)
    (positive : 0 < rf.currentTerm) (later : rf.currentTerm ≤ next.currentTerm)
    (appends : ∀ args, call = .appendEntries args → args.Ordered)
    (installs : ∀ args, call = .installSnapshot args → args.Ordered ∧ rf.splices args = false) :
    next.log.Ordered next.currentTerm := by
  cases step with
  | kept log =>
      rw [log]
      exact ordered.mono later
  | append _ _ term log =>
      rw [log, term]
      exact ordered.append positive rfl
  | adopt current _ term found prevTerm log =>
      rw [term]
      exact ordered.appendFrom (appends _ rfl) current found prevTerm log
  | install current _ term newer log =>
      obtain ⟨sent, agrees⟩ := installs _ rfl
      rw [term]
      refine ordered.installSnapshot sent current newer ?_ log
      intro longer
      simpa [splices, current, newer, longer] using agrees
  | compact _ term _ _ log =>
      rw [term]
      exact ordered.doSnapshot log

/-- What a leader sends is in order if its log is. -/
theorem ordered_of_replicate_append {rf : Raft n Command} {peer : Fin n}
    {args : AppendEntriesArgs n Command} (ordered : rf.log.Ordered rf.currentTerm)
    (made : rf.replicate peer = some (.append args)) : args.Ordered := by
  rcases replicate_cases made with wrong | ⟨prevIdx, prev, entries, found, read, result⟩
  · cases wrong
  · cases result
    obtain ⟨above, below⟩ := RaftLog.entryAt_bounds found
    rw [RaftLog.entryAt_of_mem above below] at found
    have rest : entries = rf.log.tailLog.drop (prevIdx - rf.log.snapLastIdx + 1) := by
      rw [RaftLog.tail_eq (by omega) read]
      congr 1
      omega
    -- it is the log as it would be cut at the entry before
    obtain ⟨_, sorted, bounded, proper⟩ := ordered.cut above found []
    rw [← rest] at sorted bounded proper
    obtain ⟨after, sortedRest⟩ := List.pairwise_cons.mp sorted
    refine ⟨sortedRest, after, ?_, proper 0 (.dummy prev.term) rfl⟩
    intro entry member
    obtain ⟨position, located⟩ := List.getElem?_of_mem member
    have atPosition := proper (position + 1) entry located
    exact ⟨by dsimp only at atPosition; omega, bounded entry (List.mem_cons_of_mem _ member)⟩

theorem ordered_of_replicate_snapshot {rf : Raft n Command} {peer : Fin n}
    {args : InstallSnapshotArgs n} (ordered : rf.log.Ordered rf.currentTerm)
    (made : rf.replicate peer = some (.snapshot args)) : args.Ordered := by
  rcases replicate_cases made with result | ⟨_, _, _, _, _, wrong⟩
  · cases result
    obtain ⟨entries, shape⟩ := ordered.headed
    have first : rf.log.tailLog[0]? = some (.dummy rf.log.snapLastTerm) := by
      rw [shape]
      rfl
    exact ⟨ordered.bounded _ (List.mem_of_getElem? first), ordered.proper 0 _ first⟩
  · cases wrong

/-- The answer to a request whose entry before the new ones has another term here. -/
theorem appendEntries_mismatch {rf : Raft n Command} {args : AppendEntriesArgs n Command}
    {prev : LogEntry Command} (current : rf.currentTerm ≤ args.term)
    (found : rf.log.entryAt args.prevLogIndex = some prev)
    (mismatch : prev.term ≠ args.prevLogTerm) :
    rf.appendEntries args = some (rf.becomeFollowerLocked args.term,
      { term := rf.currentTerm, conflictTerm := prev.term,
        conflictIndex := rf.log.firstFor prev.term }) := by
  obtain ⟨above, below⟩ := RaftLog.entryAt_bounds found
  simp only [appendEntries, rf.becomeFollowerLocked_log current, not_lt.mpr current,
    not_le.mpr below, not_lt.mpr above, found, mismatch, if_false, ne_eq, not_false_iff, if_true,
    Option.bind_eq_bind, Option.bind_some]
  rfl

end Raft

/-- On a log in order, `firstFor` gives the least index of an entry of the term, the
dummy entry counted, and 0 if there is none.  So where a request mismatches, every entry
from the reported index on up to the one before the new entries has the reported term. -/
theorem firstFor_of_sorted (rl : RaftLog Command)
    (sorted : (rl.tailLog.map LogEntry.term).Pairwise (· ≤ ·)) :
    (∀ term,
      ((∃ index entry, rl.entryAt index = some entry ∧ entry.term = term) →
        IsLeast {index | ∃ entry, rl.entryAt index = some entry ∧ entry.term = term}
          (rl.firstFor term)) ∧
      ((∀ index entry, rl.entryAt index = some entry → entry.term ≠ term) →
        rl.firstFor term = invalidIndex)) ∧
    ∀ (n : Nat) (rf : Raft n Command) (args : AppendEntriesArgs n Command)
      (prev : LogEntry Command), rf.log = rl → rf.currentTerm ≤ args.term →
      rl.entryAt args.prevLogIndex = some prev → prev.term ≠ args.prevLogTerm →
      ∃ next reply, rf.appendEntries args = some (next, reply) ∧ reply.success = false ∧
        reply.conflictTerm = prev.term ∧ rl.snapLastIdx ≤ reply.conflictIndex ∧
        reply.conflictIndex ≤ args.prevLogIndex ∧
        ∀ index, reply.conflictIndex ≤ index → index ≤ args.prevLogIndex →
          ∃ entry, rl.entryAt index = some entry ∧ entry.term = reply.conflictTerm := by
  have sorted := List.pairwise_map.mp sorted
  refine ⟨fun term => ⟨?_, RaftLog.firstFor_eq_invalidIndex sorted⟩, ?_⟩
  · rintro ⟨index, entry, found, own⟩
    exact RaftLog.firstFor_isLeast sorted found own
  · rintro n rf args prev rfl current found mismatch
    obtain ⟨⟨first, atFirst, sameTerm⟩, least⟩ := RaftLog.firstFor_isLeast sorted found rfl
    refine ⟨_, _, Raft.appendEntries_mismatch current found mismatch, rfl, rfl,
      (RaftLog.entryAt_bounds atFirst).1, least ⟨prev, found, rfl⟩, ?_⟩
    intro index after before
    exact RaftLog.term_eq_of_between sorted atFirst found sameTerm after before

/-- A follower whose log is compacted at index 4; the dummy entry begins the run of
term 2. -/
def compactedFollower : Raft 3 Nat :=
  { Raft.make 0 (makePersister 3 Nat) with
    currentTerm := 5
    log := newLog 4 2 [] [⟨2, true, some 10⟩, ⟨2, true, some 11⟩, ⟨5, true, some 12⟩] }

theorem firstFor_of_sorted_compactedFollower :
    (compactedFollower.log.tailLog.map LogEntry.term).Pairwise (· ≤ ·) ∧
    compactedFollower.log.firstFor 5 = 7 ∧ compactedFollower.log.firstFor 3 = invalidIndex ∧
    ∃ next reply,
      compactedFollower.appendEntries ⟨6, 1, 6, 3, [], 0⟩ = some (next, reply) ∧
      reply.conflictIndex = 4 ∧ reply.conflictIndex ≤ 6 := by
  have sorted : (compactedFollower.log.tailLog.map LogEntry.term).Pairwise (· ≤ ·) := by decide
  obtain ⟨next, reply, handled, _, _, _, bounded, _⟩ :=
    (firstFor_of_sorted compactedFollower.log sorted).2 3 compactedFollower ⟨6, 1, 6, 3, [], 0⟩
      ⟨2, true, some 11⟩ rfl (by decide) rfl (by decide)
  refine ⟨sorted, rfl, rfl, next, reply, handled, ?_, bounded⟩
  cases handled
  rfl

def Packet.Ordered (packet : Packet n Command) : Prop :=
  match packet.body with
  | .appendRequest args => args.Ordered
  | .snapshotRequest args => args.Ordered
  | _ => True

namespace Cluster

/-- The event installs no snapshot in front of a tail that follows another entry. -/
def keepsTerms (cluster : Cluster n Command) : Event n Command → Bool
  | .deliver index =>
      match cluster.net[index]? with
      | none => true
      | some packet =>
          match packet.body with
          | .snapshotRequest args => !(cluster.servers packet.peer).splices args
          | _ => true
  | _ => true

structure Ordered (cluster : Cluster n Command) : Prop where
  started : ∀ server, 0 < (cluster.servers server).currentTerm
  logs : ∀ server, (cluster.servers server).log.Ordered (cluster.servers server).currentTerm
  packets : ∀ packet ∈ cluster.net, packet.Ordered

variable {cluster next : Cluster n Command} {ballots : Ballots (Fin n)} {event : Event n Command}

theorem Ordered.packet_of_arises (ordered : cluster.Ordered) {packet : Packet n Command}
    (arises : cluster.Arises packet) : packet.Ordered := by
  cases arises with
  | kept member => exact ordered.packets packet member
  | replicated _ _ request => exact Raft.ordered_of_replicate_append (ordered.logs _) request
  | shipped _ _ request => exact Raft.ordered_of_replicate_snapshot (ordered.logs _) request
  | voted | appended | installed | asked => trivial

/-- A request that a server handles is one that was sent. -/
theorem Ordered.appends (ordered : cluster.Ordered) {server : Fin n}
    {args : AppendEntriesArgs n Command}
    (receives : cluster.Receives event server (.appendEntries args)) : args.Ordered := by
  obtain ⟨index, packet, _, found, body, _⟩ := receives
  have sent := ordered.packets packet (List.mem_of_getElem? found)
  simpa only [Packet.Ordered, body] using sent

theorem Ordered.installs (ordered : cluster.Ordered) (kept : cluster.keepsTerms event = true)
    {server : Fin n} {args : InstallSnapshotArgs n}
    (receives : cluster.Receives event server (.installSnapshot args)) :
    args.Ordered ∧ (cluster.servers server).splices args = false := by
  obtain ⟨index, packet, rfl, found, body, rfl⟩ := receives
  have sent := ordered.packets packet (List.mem_of_getElem? found)
  simp only [keepsTerms, found, body, Bool.not_eq_true'] at kept
  simp only [Packet.Ordered, body] at sent
  exact ⟨sent, kept⟩

theorem Ordered.step (ordered : cluster.Ordered) (voting : cluster.Voting ballots)
    (kept : cluster.keepsTerms event = true) (stepped : cluster.Step event next) :
    next.Ordered := by
  have later : ∀ server,
      (cluster.servers server).currentTerm ≤ (next.servers server).currentTerm :=
    fun server => (voting.evolves stepped server).term_le
  refine ⟨fun server => (ordered.started server).trans_le (later server), ?_,
    fun packet member => ordered.packet_of_arises (stepped.arises packet member)⟩
  intro server
  rcases stepped.moves server with same | ⟨call, handled, _, receives⟩ | ⟨_, restarted⟩
  · rw [same]
    exact ordered.logs server
  · refine (Raft.proceeds_handle handled).log.ordered (ordered.logs server)
      (ordered.started server) (later server) ?_ ?_
    · rintro args rfl
      exact ordered.appends receives
    · rintro args rfl
      exact ordered.installs kept receives
  · rw [restarted, Raft.make_eq_of_durable (voting.durable server)]
    exact ordered.logs server

theorem ordered_initial : (initial n Command).Ordered := by
  refine ⟨fun _ => Nat.one_pos, fun _ => ⟨RaftLog.headed_newLog _ _ _ _, ?_, ?_, ?_⟩, nofun⟩
  · exact List.pairwise_singleton _ _
  · intro entry member
    rw [List.mem_singleton.mp member]
    exact Nat.zero_le _
  · intro position entry located
    cases position with
    | zero =>
        cases located
        exact ⟨fun _ => rfl, fun _ => rfl⟩
    | succ position => cases located

theorem ordered_of_reachable
    (reached : (raftSystem n Command).Reachable
      (fun cluster event => cluster.keepsTerms event = true) cluster) : cluster.Ordered := by
  have start : ∀ state, (raftSystem n Command).init state → state.Ordered := by
    rintro _ rfl
    exact ordered_initial
  refine reached.invariant start ?_
  intro state event next before ordered kept stepped
  obtain ⟨ballots, voting⟩ := voting_of_reachable before
  exact ordered.step voting kept (step_cases stepped)

end Cluster

/-- If no snapshot is installed in front of a tail that follows another entry, the
terms along every log are in order, `firstFor` finds every one of them, and no answer to
a request that mismatches carries index 0. -/
theorem terms_in_order {cluster : Cluster n Command}
    (reached : (raftSystem n Command).Reachable
      (fun cluster event => cluster.keepsTerms event = true) cluster) (server : Fin n) :
    ((cluster.servers server).log.tailLog.map LogEntry.term).Pairwise (· ≤ ·) ∧
    (∀ entry ∈ (cluster.servers server).log.tailLog,
      entry.term ≤ (cluster.servers server).currentTerm) ∧
    (∀ entry ∈ (cluster.servers server).log.tailLog, ∃ found,
      (cluster.servers server).log.entryAt
        ((cluster.servers server).log.firstFor entry.term) = some found ∧
      found.term = entry.term) ∧
    ∀ packet ∈ cluster.net, packet.peer = server → ∀ args prev,
      packet.body = .appendRequest args → (cluster.servers server).currentTerm ≤ args.term →
      (cluster.servers server).log.entryAt args.prevLogIndex = some prev →
      prev.term ≠ args.prevLogTerm → ∃ rf reply,
        (cluster.servers server).appendEntries args = some (rf, reply) ∧
        reply.success = false ∧ reply.conflictTerm = prev.term ∧ reply.conflictIndex ≠ 0 := by
  have ordered := Cluster.ordered_of_reachable reached
  have log := ordered.logs server
  refine ⟨List.pairwise_map.mpr log.sorted, log.bounded, fun _ => log.firstFor, ?_⟩
  rintro packet member rfl args prev body current found mismatch
  have sent := ordered.packets packet member
  simp only [Packet.Ordered, body] at sent
  refine ⟨_, _, Raft.appendEntries_mismatch current found mismatch, rfl, rfl, ?_⟩
  obtain ⟨above, below⟩ := RaftLog.entryAt_bounds found
  rw [RaftLog.entryAt_of_mem above below] at found
  apply log.firstFor_pos (List.mem_of_getElem? found)
  -- index 0 has term 0 at both ends, so a mismatch is at a real entry
  have proper := log.proper _ prev found
  have sentProper := sent.proper
  omega

/-- Server 0 compacts its log and server 2 installs the snapshot. -/
def installedCluster : Cluster 3 Nat :=
  (raftSystem 3 Nat).after Cluster.keepsTerms (Cluster.initial 3 Nat)
    [.electionTimeout 0, .startElection 0, .deliver 0, .deliver 0, .start 0 (some 10),
     .start 0 (some 11), .startReplication 0 2, .deliver 1, .deliver 1, .snapshot 0 1 [],
     .startReplication 0 2, .deliver 3]

theorem terms_in_order_installed :
    (installedCluster.servers 2).log.tailLog = [.dummy 2] ∧
    ((installedCluster.servers 0).log.tailLog.map LogEntry.term).Pairwise (· ≤ ·) :=
  ⟨rfl, (terms_in_order ⟨_, rfl, System.run_after Cluster.keepsTerms _ _⟩ 0).1⟩

/-- Without the condition: server 0 has three entries of term 2 that nobody else has
when it installs a snapshot whose last entry is of term 3. -/
theorem terms_out_of_order :
    ((raftSystem 3 Nat).execute (fun _ _ => true) (Cluster.initial 3 Nat)
      [.electionTimeout 0, .startElection 0, .deliver 0, .deliver 0, .start 0 (some 10),
       .start 0 (some 11), .start 0 (some 12), .electionTimeout 1, .startElection 0, .deliver 2,
       .deliver 2, .start 1 (some 13), .startReplication 1 3, .deliver 3, .deliver 3,
       .snapshot 1 1 [], .startReplication 1 3, .deliver 3]).map
      (fun cluster => ((cluster.servers 0).log.tailLog.map LogEntry.term,
        (cluster.servers 0).log.firstFor 2)) =
    some ([3, 2, 2], 0) := by
  rfl

end MultiRaft
