import MultiRaft.Node.Sections
import MultiRaft.Raft.WholeLog

/-!
# Two requests of one leader in either order

`HandleAppendEntries` cuts the log right after `PrevLogIndex` before it appends.  Two
requests that end at the same index therefore leave the same log in either order.
A request that was sent before the leader's log grew, and is handled after one that
was sent later, takes away again what the later one had brought.
-/

namespace MultiRaft

variable {n : Nat} {Command : Type}

/-- The request carries the whole log of its leader after `prevLogIndex`. -/
structure AppendEntriesArgs.SentFrom (args : AppendEntriesArgs n Command)
    (log : List (LogEntry Command)) : Prop where
  within : args.prevLogIndex ≤ log.length
  prevTerm : args.prevLogTerm = lastTerm (log.take args.prevLogIndex)
  entries : args.entries = log.drop args.prevLogIndex

namespace Node

variable {node next : Node n Command} {req : AppendEntriesArgs n Command}

/-- The node handles the request and answers with success. -/
def Accepts (node : Node n Command) (req : AppendEntriesArgs n Command)
    (next : Node n Command) : Prop :=
  ∃ resp, node.handleAppendEntries req = some (next, resp) ∧ resp.success = true

theorem Accepts.log (accepts : node.Accepts req next) :
    node.log.appendFrom req.prevLogIndex req.entries = some next.log := by
  obtain ⟨resp, handled, success⟩ := accepts
  rcases handleAppendEntries_cases handled with
    ⟨_, _, failed⟩ | ⟨_, _, failed⟩ | ⟨current, prev, log, _, _, written, rfl, _⟩
  · exact nomatch failed.symm.trans success
  · exact nomatch failed.symm.trans success
  · rw [node.becomeFollowerLocked_log current] at written
    exact written

/-- What `startReplication` sends. -/
theorem sentFrom_of_replicate {log snap : List (LogEntry Command)} {peer : Fin n}
    (represents : node.log.Represents log snap)
    (trusted : lastTerm snap = lastTerm (log.take snap.length))
    (made : node.replicate peer = some (.append req)) : req.SentFrom log := by
  unfold replicate at made
  split at made
  · cases made
  · obtain ⟨prev, found, rest⟩ := Option.bind_eq_some_iff.mp made
    obtain ⟨entries, read, result⟩ := Option.bind_eq_some_iff.mp rest
    cases result
    obtain ⟨term, above, within⟩ := represents.entryAt_term trusted found
    rw [represents.tail above] at read
    cases read
    exact ⟨within, term, rfl⟩

end Node

namespace AppendEntriesArgs

variable {args other : AppendEntriesArgs n Command} {log : List (LogEntry Command)}

theorem SentFrom.length (sent : args.SentFrom log) :
    args.prevLogIndex + args.entries.length = log.length := by
  have within := sent.within
  rw [sent.entries, List.length_drop]
  omega

/-- Of two requests from one log, the one that starts later is a part of the other. -/
theorem SentFrom.drop_entries (sent : args.SentFrom log) (sentOther : other.SentFrom log)
    (after : args.prevLogIndex ≤ other.prevLogIndex) :
    args.entries.drop (other.prevLogIndex - args.prevLogIndex) = other.entries := by
  rw [sent.entries, sentOther.entries, List.drop_drop]
  congr 1
  omega

end AppendEntriesArgs

namespace RaftLog

variable {rl first second : RaftLog Command} {args other : AppendEntriesArgs n Command}
  {log : List (LogEntry Command)}

/-- The request that starts later adds nothing to the other one, whichever comes first. -/
theorem appendFrom_both (sent : args.SentFrom log) (sentOther : other.SentFrom log)
    (after : args.prevLogIndex ≤ other.prevLogIndex)
    (alone : rl.appendFrom args.prevLogIndex args.entries = some first)
    (before : rl.appendFrom other.prevLogIndex other.entries = some second) :
    first.appendFrom other.prevLogIndex other.entries = some first ∧
      second.appendFrom args.prevLogIndex args.entries = some first := by
  constructor
  · rw [← sent.drop_entries sentOther after]
    refine appendFrom_again alone after ?_
    rw [sent.length]
    exact sentOther.within
  · rw [appendFrom_forgets before after]
    exact alone

/-- Requests from one log leave the same log in either order. -/
theorem appendFrom_comm {firstLast secondLast : RaftLog Command} (sent : args.SentFrom log)
    (sentOther : other.SentFrom log)
    (alone : rl.appendFrom args.prevLogIndex args.entries = some first)
    (thenOther : first.appendFrom other.prevLogIndex other.entries = some firstLast)
    (otherAlone : rl.appendFrom other.prevLogIndex other.entries = some second)
    (thenThis : second.appendFrom args.prevLogIndex args.entries = some secondLast) :
    secondLast = firstLast := by
  rcases Nat.le_total args.prevLogIndex other.prevLogIndex with after | after
  · obtain ⟨again, forgets⟩ := appendFrom_both sent sentOther after alone otherAlone
    rw [again] at thenOther
    rw [forgets] at thenThis
    exact Option.some.inj (thenThis.symm.trans thenOther)
  · obtain ⟨again, forgets⟩ := appendFrom_both sentOther sent after otherAlone alone
    rw [again] at thenThis
    rw [forgets] at thenOther
    exact Option.some.inj (thenThis.symm.trans thenOther)

/-- A request leaves alone every entry that agrees with the log it was sent from. -/
theorem entryAt_of_sentFrom (sent : args.SentFrom log)
    (appended : rl.appendFrom args.prevLogIndex args.entries = some first) {position : Nat}
    {entry : LogEntry Command} (agrees : log[position]? = some entry)
    (found : rl.entryAt (position + 1) = some entry) :
    first.entryAt (position + 1) = some entry := by
  rcases Nat.lt_or_ge position args.prevLogIndex with kept | carried
  · rw [entryAt_appendFrom_of_le appended kept]
    exact found
  · have stands := entryAt_appendFrom appended (position - args.prevLogIndex)
    rw [sent.entries, List.getElem?_drop, Nat.add_sub_cancel' carried, agrees] at stands
    rw [← stands]
    congr 1
    omega

end RaftLog

/-- Two requests of a leader, the second sent when `added` had been appended to its
log, and a node that accepts them in either order.  The order makes no difference,
and the first one removes nothing that agrees with the leader's log when it comes
late, if and only if nothing was appended in between. -/
theorem requests_commute {node afterA afterAB afterB afterBA : Node n Command}
    {a b : AppendEntriesArgs n Command} {log added : List (LogEntry Command)}
    (sentA : a.SentFrom log) (sentB : b.SentFrom (log ++ added))
    (first : node.Accepts a afterA) (thenB : afterA.Accepts b afterAB)
    (second : node.Accepts b afterB) (thenA : afterB.Accepts a afterBA) :
    (afterBA.log = afterAB.log ↔ added = []) ∧
    ((∀ position entry, (log ++ added)[position]? = some entry →
        afterB.log.entryAt (position + 1) = some entry →
        afterBA.log.entryAt (position + 1) = some entry) ↔ added = []) := by
  obtain ⟨_, reaches, sizeAB⟩ := RaftLog.appendFrom_bounds thenB.log
  obtain ⟨_, _, sizeBA⟩ := RaftLog.appendFrom_bounds thenA.log
  obtain ⟨_, _, sizeA⟩ := RaftLog.appendFrom_bounds first.log
  have lengthA := sentA.length
  have lengthB := sentB.length
  rw [List.length_append] at lengthB
  refine ⟨⟨?_, ?_⟩, ⟨?_, ?_⟩⟩
  · -- each order leaves the log that the last request ends with
    intro same
    rw [same, sizeAB] at sizeBA
    exact List.length_eq_zero_iff.mp (by omega)
  · rintro rfl
    rw [List.append_nil] at sentB
    exact RaftLog.appendFrom_comm sentA sentB first.log thenB.log second.log thenA.log
  · intro keeps
    cases added with
    | nil => rfl
    | cons entry rest =>
        have agrees : (log ++ entry :: rest)[log.length]? = some entry := by simp
        have brought := RaftLog.entryAt_appendFrom second.log (log.length - b.prevLogIndex)
        rw [sentB.entries, List.getElem?_drop, Nat.add_sub_cancel' (by omega), agrees,
          show b.prevLogIndex + 1 + (log.length - b.prevLogIndex) = log.length + 1 by omega]
          at brought
        have bounds := (RaftLog.entryAt_bounds (keeps _ entry agrees brought)).2
        omega
  · rintro rfl position entry agrees found
    rw [List.append_nil] at agrees
    exact RaftLog.entryAt_of_sentFrom sentA thenA.log agrees found

/-- The leader of term 2, whose log has the given commands. -/
def leaderWith (commands : List Nat) : Node 2 Nat :=
  { Node.newNode 0 (RaftStorage.empty 2 Nat) 4 with
    role := .leader
    currentTerm := 2
    log := newLog 0 0 [] (commands.map fun command => ⟨2, true, some command⟩)
    nextIndex := fun _ => 1 }

/-- What the leader sends then to a follower that has the first `prev` entries. -/
def requestWith (prev : Nat) (commands : List Nat) : AppendEntriesArgs 2 Nat :=
  { term := 2, leaderId := 0, prevLogIndex := prev, prevLogTerm := if prev = 0 then 0 else 2,
    entries := (commands.map fun command => ⟨2, true, some command⟩).drop prev, leaderCommit := 0 }

theorem replicate_leaderWith (commands : List Nat) :
    (leaderWith commands).replicate 1 = some (.append (requestWith 0 commands)) := by
  cases commands <;> rfl

/-- A new follower after the requests. -/
def followerAfter (requests : List (AppendEntriesArgs 2 Nat)) : Node 2 Nat :=
  requests.foldl (fun node req => ((node.handleAppendEntries req).map (·.1)).getD node)
    (Node.newNode 1 (RaftStorage.empty 2 Nat) 4)

/-- The whole log and its last entry alone, sent to a follower that lacks this one. -/
theorem requests_commute_overlap :
    (followerAfter [requestWith 0 [10], requestWith 1 [10, 11], requestWith 0 [10, 11]]).log =
    (followerAfter [requestWith 0 [10], requestWith 0 [10, 11], requestWith 1 [10, 11]]).log := by
  have sentWhole : (requestWith 0 [10, 11]).SentFrom [⟨2, true, some 10⟩, ⟨2, true, some 11⟩] :=
    ⟨by decide, rfl, rfl⟩
  have sentLast : (requestWith 1 [10, 11]).SentFrom
      ([⟨2, true, some 10⟩, ⟨2, true, some 11⟩] ++ []) := ⟨by decide, rfl, rfl⟩
  exact (requests_commute sentWhole sentLast
    (show (followerAfter [requestWith 0 [10]]).Accepts _ _ from ⟨_, rfl, rfl⟩) ⟨_, rfl, rfl⟩
    ⟨_, rfl, rfl⟩ ⟨_, rfl, rfl⟩).1.mpr rfl

/-- The leader sends its log of one entry and then that of two.  The follower accepts
both in either order, and loses the second entry if the first request comes last. -/
theorem delayed_request_removes :
    (leaderWith [10]).replicate 1 = some (.append (requestWith 0 [10])) ∧
    (leaderWith [10, 11]).replicate 1 = some (.append (requestWith 0 [10, 11])) ∧
    (followerAfter []).Accepts (requestWith 0 [10]) (followerAfter [requestWith 0 [10]]) ∧
    (followerAfter [requestWith 0 [10]]).Accepts (requestWith 0 [10, 11])
      (followerAfter [requestWith 0 [10], requestWith 0 [10, 11]]) ∧
    (followerAfter []).Accepts (requestWith 0 [10, 11]) (followerAfter [requestWith 0 [10, 11]]) ∧
    (followerAfter [requestWith 0 [10, 11]]).Accepts (requestWith 0 [10])
      (followerAfter [requestWith 0 [10, 11], requestWith 0 [10]]) ∧
    (followerAfter [requestWith 0 [10], requestWith 0 [10, 11]]).log.last = (2, 2) ∧
    (followerAfter [requestWith 0 [10, 11], requestWith 0 [10]]).log.last = (1, 2) :=
  ⟨replicate_leaderWith _, replicate_leaderWith _, ⟨_, rfl, rfl⟩, ⟨_, rfl, rfl⟩, ⟨_, rfl, rfl⟩,
    ⟨_, rfl, rfl⟩, rfl, rfl⟩

end MultiRaft
