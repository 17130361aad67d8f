import MultiRaft.Messages
import MultiRaft.Lib.System
import Mathlib.Data.List.Sort
import Mathlib.Data.List.FinRange

/-!
# One labrpc Raft server

Every function below is one critical section of the program: it runs with
`rf.mu` held.  A panic is `none`; the process then stops, and only what the
`Persister` holds survives.  Timers, logging and the condition variable of the
apply loop decide when a section runs, never what it does, and are left to the
scheduler.
-/

namespace MultiRaft

/-- The values that `persistLocked` encodes, in their order. -/
structure Persisted (n : Nat) (Command : Type) where
  currentTerm : Nat
  votedFor : Option (Fin n)
  snapLastIdx : Nat
  snapLastTerm : Nat
  tailLog : List (LogEntry Command)
  deriving DecidableEq, Repr

/-- `none` is the empty `raftstate` of a server that never persisted. -/
structure Persister (n : Nat) (Command : Type) where
  raftstate : Option (Persisted n Command)
  snapshot : Bytes
  deriving DecidableEq, Repr

def makePersister (n : Nat) (Command : Type) : Persister n Command :=
  { raftstate := none, snapshot := [] }

/-- Where the goroutine `applicationTicker` stands: before its first critical
section, sending what it collected there, or before its second one. -/
inductive Ticker (Command : Type) where
  | waiting
  | sendEntries (entries : List (LogEntry Command)) (sent : Nat)
  | sendSnapshot
  | snapshotSent
  deriving DecidableEq, Repr

/-- `votedFor = none` is the program's `-1`.  `applyCh` lists the messages sent
on the channel since the server was made. -/
structure Raft (n : Nat) (Command : Type) where
  me : Fin n
  persister : Persister n Command
  role : Role
  currentTerm : Nat
  votedFor : Option (Fin n)
  log : RaftLog Command
  nextIndex : Fin n → Nat
  matchIndex : Fin n → Nat
  commitIndex : Nat
  lastApplied : Nat
  snapPending : Bool
  ticker : Ticker Command
  applyCh : List (ApplyMsg Command)

/-- A request that `startReplication` hands to a goroutine. -/
inductive Replicate (n : Nat) (Command : Type) where
  | append (args : AppendEntriesArgs n Command)
  | snapshot (args : InstallSnapshotArgs n)

/-- The critical sections of a running server, with the arguments they are
entered with.  For one server alone, its environment may choose any of them. -/
inductive Call (n : Nat) (Command : Type) where
  | electionTimeout
  | requestVote (args : RequestVoteArgs n)
  | voteReply (term votes : Nat) (reply : RequestVoteReply)
  | appendEntries (args : AppendEntriesArgs n Command)
  | startReplication (term : Nat)
  | appendReply (peer : Fin n) (args : AppendEntriesArgs n Command) (reply : AppendEntriesReply)
  | installSnapshot (args : InstallSnapshotArgs n)
  | installReply (peer : Fin n) (args : InstallSnapshotArgs n) (reply : InstallSnapshotReply)
  | start (command : Option Command)
  | snapshot (index : Nat) (snapshot : Bytes)
  | collect
  | send
  | finish

namespace Raft

variable {n : Nat} {Command : Type}

def persisted (rf : Raft n Command) : Persisted n Command :=
  { currentTerm := rf.currentTerm, votedFor := rf.votedFor,
    snapLastIdx := rf.log.snapLastIdx, snapLastTerm := rf.log.snapLastTerm,
    tailLog := rf.log.tailLog }

def persistLocked (rf : Raft n Command) : Raft n Command :=
  { rf with persister := { raftstate := some rf.persisted, snapshot := rf.log.snapshot } }

def readPersist (rf : Raft n Command) : Raft n Command :=
  match rf.persister.raftstate with
  | none => rf
  | some state =>
      let rf := { rf with
        currentTerm := state.currentTerm
        votedFor := state.votedFor
        log := { snapLastIdx := state.snapLastIdx, snapLastTerm := state.snapLastTerm,
                 snapshot := rf.persister.snapshot, tailLog := state.tailLog } }
      if rf.log.snapLastIdx > rf.commitIndex then
        { rf with commitIndex := rf.log.snapLastIdx, lastApplied := rf.log.snapLastIdx }
      else rf

def make (me : Fin n) (persister : Persister n Command) : Raft n Command :=
  readPersist
    { me, persister, role := .follower, currentTerm := 1, votedFor := none,
      log := newLog invalidIndex invalidTerm [] [],
      nextIndex := fun _ => 0, matchIndex := fun _ => 0,
      commitIndex := 0, lastApplied := 0, snapPending := false,
      ticker := .waiting, applyCh := [] }

def becomeFollowerLocked (rf : Raft n Command) (term : Nat) : Raft n Command :=
  if term < rf.currentTerm then rf
  else
    let next := { rf with
      role := .follower
      votedFor := if term > rf.currentTerm then none else rf.votedFor
      currentTerm := term }
    if rf.currentTerm ≠ term then next.persistLocked else next

def becomeCandidateLocked (rf : Raft n Command) : Raft n Command :=
  if rf.role = .leader then rf
  else persistLocked { rf with
    currentTerm := rf.currentTerm + 1, role := .candidate, votedFor := some rf.me }

def becomeLeaderLocked (rf : Raft n Command) : Raft n Command :=
  if rf.role ≠ .candidate then rf
  else { rf with
    role := .leader, nextIndex := fun _ => rf.log.size, matchIndex := fun _ => 0 }

def contextLostLocked (rf : Raft n Command) (role : Role) (term : Nat) : Bool :=
  !(rf.currentTerm == term && rf.role == role)

/-- Index, term and whether the server is the leader, as `Start` returns them. -/
def start (rf : Raft n Command) (command : Option Command) :
    Raft n Command × Nat × Nat × Bool :=
  if rf.role ≠ .leader then (rf, 0, 0, false)
  else
    let rf := persistLocked { rf with
      log := rf.log.append { term := rf.currentTerm, commandValid := true, command } }
    (rf, rf.log.size - 1, rf.currentTerm, true)

def isMoreUpToDateLocked (rf : Raft n Command) (candidateIndex candidateTerm : Nat) : Bool :=
  let (lastIndex, lastTerm) := rf.log.last
  if lastTerm ≠ candidateTerm then lastTerm > candidateTerm
  else lastIndex > candidateIndex

/-- `reply.Term` is read before the term is aligned. -/
def requestVote (rf : Raft n Command) (args : RequestVoteArgs n) :
    Raft n Command × RequestVoteReply :=
  let reject : RequestVoteReply := { term := rf.currentTerm, voteGranted := false }
  if args.term < rf.currentTerm then (rf, reject)
  else
    let rf := if args.term > rf.currentTerm then rf.becomeFollowerLocked args.term else rf
    if rf.votedFor ≠ none then (rf, reject)
    else if rf.isMoreUpToDateLocked args.lastLogIndex args.lastLogTerm then (rf, reject)
    else (persistLocked { rf with votedFor := some args.candidateId },
      { reject with voteGranted := true })

/-- The requests of `startElection`, one for every other peer. -/
def voteRequests (rf : Raft n Command) : List (Fin n × RequestVoteArgs n) :=
  let (lastIdx, lastTerm) := rf.log.last
  ((List.finRange n).filter (· ≠ rf.me)).map fun peer =>
    (peer, { term := rf.currentTerm, candidateId := rf.me,
             lastLogIndex := lastIdx, lastLogTerm := lastTerm })

/-- The reply part of `askVoteFromPeer`; `votes` is the variable its closure
shares with the other peers of the same election. -/
def voteReply (rf : Raft n Command) (term votes : Nat) (reply : RequestVoteReply) :
    Raft n Command × Nat :=
  if reply.term > rf.currentTerm then (rf.becomeFollowerLocked reply.term, votes)
  else if rf.contextLostLocked .candidate term then (rf, votes)
  else if reply.voteGranted then
    if votes + 1 > n / 2 then (rf.becomeLeaderLocked, votes + 1) else (rf, votes + 1)
  else (rf, votes)

def appendEntries (rf : Raft n Command) (args : AppendEntriesArgs n Command) :
    Option (Raft n Command × AppendEntriesReply) :=
  let reply : AppendEntriesReply := { term := rf.currentTerm }
  if args.term < rf.currentTerm then some (rf, reply)
  else
    let rf := rf.becomeFollowerLocked args.term
    if args.prevLogIndex ≥ rf.log.size then
      some (rf, { reply with conflictTerm := invalidTerm, conflictIndex := rf.log.size })
    else if args.prevLogIndex < rf.log.snapLastIdx then
      some (rf, { reply with conflictTerm := rf.log.snapLastTerm,
                             conflictIndex := rf.log.snapLastIdx })
    else do
      let prev ← rf.log.entryAt args.prevLogIndex
      if prev.term ≠ args.prevLogTerm then
        return (rf, { reply with conflictTerm := prev.term,
                                 conflictIndex := rf.log.firstFor prev.term })
      else
        let log ← rf.log.appendFrom args.prevLogIndex args.entries
        let rf := persistLocked { rf with log }
        return ({ rf with commitIndex :=
            if args.leaderCommit > rf.commitIndex then args.leaderCommit else rf.commitIndex },
          { reply with success := true })

def getMajorityIndexLocked (rf : Raft n Command) : Option Nat :=
  ((List.ofFn rf.matchIndex).insertionSort (· ≤ ·))[(n - 1) / 2]?

/-- Where `replicateToPeer` probes next after a rejection; a late reply never
moves `nextIndex` forward. -/
def nextProbe (rf : Raft n Command) (peer : Fin n) (reply : AppendEntriesReply) : Nat :=
  let prevIndex := rf.nextIndex peer
  let probe :=
    if reply.conflictTerm = invalidTerm then reply.conflictIndex
    else
      let firstIndex := rf.log.firstFor reply.conflictTerm
      if firstIndex ≠ invalidIndex then firstIndex else reply.conflictIndex
  if probe > prevIndex then prevIndex else probe

/-- The reply part of `replicateToPeer`.  The entry before `nextIndex` is read
for a log line, and reading it may panic. -/
def appendReply (rf : Raft n Command) (peer : Fin n) (args : AppendEntriesArgs n Command)
    (reply : AppendEntriesReply) : Option (Raft n Command) :=
  if reply.term > rf.currentTerm then some (rf.becomeFollowerLocked reply.term)
  else if rf.contextLostLocked .leader args.term then some rf
  else if !reply.success then do
    let next := rf.nextProbe peer reply
    -- `nextPrevIndex >= rf.log.snapLastIdx` for `nextPrevIndex = next - 1`
    if next ≥ rf.log.snapLastIdx + 1 then
      let _ ← rf.log.entryAt (next - 1)
    return { rf with nextIndex := Function.update rf.nextIndex peer next }
  else do
    let matched := args.prevLogIndex + args.entries.length
    let rf := { rf with
      matchIndex := Function.update rf.matchIndex peer matched
      nextIndex := Function.update rf.nextIndex peer (matched + 1) }
    let majorityMatched ← rf.getMajorityIndexLocked
    if majorityMatched > rf.commitIndex then
      let entry ← rf.log.entryAt majorityMatched
      if entry.term = rf.currentTerm then return { rf with commitIndex := majorityMatched }
      else return rf
    else return rf

/-- What `startReplication` sends to one other peer; `prevIdx` is
`nextIndex - 1`. -/
def replicate (rf : Raft n Command) (peer : Fin n) : Option (Replicate n Command) :=
  if rf.nextIndex peer < rf.log.snapLastIdx + 1 then
    some (.snapshot
      { term := rf.currentTerm, leaderId := rf.me,
        lastIncludedIndex := rf.log.snapLastIdx, lastIncludedTerm := rf.log.snapLastTerm,
        snapshot := rf.log.snapshot })
  else do
    let prevIdx := rf.nextIndex peer - 1
    let prev ← rf.log.entryAt prevIdx
    let entries ← rf.log.tail (prevIdx + 1)
    return .append
      { term := rf.currentTerm, leaderId := rf.me, prevLogIndex := prevIdx,
        prevLogTerm := prev.term, entries, leaderCommit := rf.commitIndex }

def startReplication (rf : Raft n Command) (term : Nat) :
    Option (Raft n Command × List (Fin n × Replicate n Command)) :=
  if rf.contextLostLocked .leader term then some (rf, [])
  else do
    let rf := { rf with
      matchIndex := Function.update rf.matchIndex rf.me (rf.log.size - 1)
      nextIndex := Function.update rf.nextIndex rf.me rf.log.size }
    let requests ← ((List.finRange n).filter (· ≠ rf.me)).mapM fun peer =>
      (rf.replicate peer).map (peer, ·)
    return (rf, requests)

def snapshot (rf : Raft n Command) (index : Nat) (snapshot : Bytes) : Option (Raft n Command) :=
  if index > rf.commitIndex then some rf
  else if index ≤ rf.log.snapLastIdx then some rf
  else do
    let log ← rf.log.doSnapshot index snapshot
    return persistLocked { rf with log }

def installSnapshot (rf : Raft n Command) (args : InstallSnapshotArgs n) :
    Option (Raft n Command × InstallSnapshotReply) :=
  let reply : InstallSnapshotReply := { term := rf.currentTerm }
  if args.term < rf.currentTerm then some (rf, reply)
  else
    let rf := rf.becomeFollowerLocked args.term
    if rf.log.snapLastIdx ≥ args.lastIncludedIndex then some (rf, reply)
    else do
      let log ← rf.log.installSnapshot args.lastIncludedIndex args.lastIncludedTerm args.snapshot
      return ({ persistLocked { rf with log } with snapPending := true }, reply)

/-- The reply part of `installToPeer`. -/
def installReply (rf : Raft n Command) (peer : Fin n) (args : InstallSnapshotArgs n)
    (reply : InstallSnapshotReply) : Raft n Command :=
  if reply.term > rf.currentTerm then rf.becomeFollowerLocked reply.term
  else if rf.contextLostLocked .leader args.term then rf
  else if args.lastIncludedIndex > rf.matchIndex peer then
    { rf with
      matchIndex := Function.update rf.matchIndex peer args.lastIncludedIndex
      nextIndex := Function.update rf.nextIndex peer (args.lastIncludedIndex + 1) }
  else rf

/-- First critical section of `applicationTicker`: decide what to send. -/
def collect (rf : Raft n Command) : Option (Raft n Command) :=
  match rf.ticker with
  | .waiting =>
      if rf.snapPending then some { rf with ticker := .sendSnapshot }
      else do
        let lastApplied :=
          if rf.lastApplied < rf.log.snapLastIdx then rf.log.snapLastIdx else rf.lastApplied
        let last := if rf.commitIndex ≥ rf.log.size then rf.log.size - 1 else rf.commitIndex
        let entries ← (List.range' (lastApplied + 1) (last - lastApplied)).mapM rf.log.entryAt
        return { rf with lastApplied, ticker := .sendEntries entries 0 }
  | _ => none

/-- One send on `applyCh`.  It runs without the lock and reads `lastApplied` or
the snapshot as they are at that moment. -/
def send (rf : Raft n Command) : Option (Raft n Command × ApplyMsg Command) :=
  match rf.ticker with
  | .sendEntries entries sent => do
      let entry ← entries[sent]?
      let msg : ApplyMsg Command :=
        { commandValid := entry.commandValid, command := entry.command,
          commandIndex := rf.lastApplied + 1 + sent }
      return ({ rf with ticker := .sendEntries entries (sent + 1),
                        applyCh := rf.applyCh ++ [msg] }, msg)
  | .sendSnapshot =>
      let msg : ApplyMsg Command :=
        { snapshotValid := true, snapshot := rf.log.snapshot,
          snapshotIndex := rf.log.snapLastIdx, snapshotTerm := rf.log.snapLastTerm }
      some ({ rf with ticker := .snapshotSent, applyCh := rf.applyCh ++ [msg] }, msg)
  | _ => none

/-- Second critical section of `applicationTicker`: book what was sent. -/
def finish (rf : Raft n Command) : Option (Raft n Command) :=
  match rf.ticker with
  | .sendEntries entries sent =>
      if sent = entries.length then
        some { rf with lastApplied := rf.lastApplied + entries.length, ticker := .waiting }
      else none
  | .snapshotSent =>
      some { rf with
        lastApplied := rf.log.snapLastIdx
        commitIndex :=
          if rf.commitIndex < rf.log.snapLastIdx then rf.log.snapLastIdx else rf.commitIndex
        snapPending := false
        ticker := .waiting }
  | _ => none

def handle (rf : Raft n Command) : Call n Command → Option (Raft n Command)
  | .electionTimeout => if rf.role = .leader then none else some rf.becomeCandidateLocked
  | .requestVote args => some (rf.requestVote args).1
  | .voteReply term votes reply => some (rf.voteReply term votes reply).1
  | .appendEntries args => (rf.appendEntries args).map (·.1)
  | .startReplication term => (rf.startReplication term).map (·.1)
  | .appendReply peer args reply => rf.appendReply peer args reply
  | .installSnapshot args => (rf.installSnapshot args).map (·.1)
  | .installReply peer args reply => some (rf.installReply peer args reply)
  | .start command => some (rf.start command).1
  | .snapshot index bytes => rf.snapshot index bytes
  | .collect => rf.collect
  | .send => rf.send.map (·.1)
  | .finish => rf.finish

end Raft

/-- One server whose environment may call anything at any time. -/
def serverSystem (n : Nat) (Command : Type) : System (Raft n Command) (Call n Command) where
  init rf := ∃ me persister, rf = Raft.make me persister
  step := Raft.handle

end MultiRaft
