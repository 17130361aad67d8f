import MultiRaft.Messages
import MultiRaft.Lib.System
import Mathlib.Data.List.FinRange

/-!
# One `Node`

The second Raft of the repository: the protocol of `Raft` over a `Transport`, a
`RaftStorage` with two records and an `applyCh` it never blocks on.  Every
function is one critical section; `none` is a panic, or a goroutine that has to
wait.
-/

namespace MultiRaft

/-- What `serializeLog` encodes. -/
structure SerializedLog (Command : Type) where
  snapLastIdx : Nat
  snapLastTerm : Nat
  tailLog : List (LogEntry Command)
  deriving DecidableEq, Repr

structure RaftState (n : Nat) (Command : Type) where
  currentTerm : Nat
  votedFor : Option (Fin n)
  log : SerializedLog Command
  deriving DecidableEq, Repr

structure Snapshot where
  index : Nat
  term : Nat
  data : Bytes
  deriving DecidableEq, Repr

/-- The two records of a `RaftStorage`; `none` is `ErrNotFound`.  `failures`
says which of the coming `Save` calls return an error and leave their record
as it was; calls beyond the list succeed. -/
structure RaftStorage (n : Nat) (Command : Type) where
  raftState : Option (RaftState n Command)
  snapshot : Option Snapshot
  failures : List Bool
  deriving DecidableEq, Repr

namespace RaftStorage

variable {n : Nat} {Command : Type}

def empty (n : Nat) (Command : Type) : RaftStorage n Command :=
  { raftState := none, snapshot := none, failures := [] }

def saveRaftState (storage : RaftStorage n Command) (state : RaftState n Command) :
    RaftStorage n Command :=
  match storage.failures with
  | true :: rest => { storage with failures := rest }
  | false :: rest => { storage with raftState := some state, failures := rest }
  | [] => { storage with raftState := some state }

def saveSnapshot (storage : RaftStorage n Command) (snapshot : Snapshot) :
    RaftStorage n Command :=
  match storage.failures with
  | true :: rest => { storage with failures := rest }
  | false :: rest => { storage with snapshot := some snapshot, failures := rest }
  | [] => { storage with snapshot := some snapshot }

end RaftStorage

/-- A Go channel with one consumer, seen from a sender that never blocks.
`waiting` says that the consumer is blocked in a receive; `received` lists what
it got so far. -/
structure ApplyCh (Command : Type) where
  capacity : Nat
  buffer : List (ApplyMsg Command)
  waiting : Bool
  received : List (ApplyMsg Command)
  deriving DecidableEq, Repr

namespace ApplyCh

variable {Command : Type}

def make (capacity : Nat) : ApplyCh Command :=
  { capacity, buffer := [], waiting := false, received := [] }

/-- Whether a send would go through at once. -/
def ready (ch : ApplyCh Command) : Bool :=
  ch.waiting || ch.buffer.length < ch.capacity

/-- `select { case ch <- msg: default: }`. -/
def trySend (ch : ApplyCh Command) (msg : ApplyMsg Command) : ApplyCh Command :=
  if ch.waiting then { ch with waiting := false, received := ch.received ++ [msg] }
  else if ch.buffer.length < ch.capacity then { ch with buffer := ch.buffer ++ [msg] }
  else ch

/-- The consumer enters a receive. -/
def receive (ch : ApplyCh Command) : ApplyCh Command :=
  match ch.buffer with
  | msg :: rest => { ch with buffer := rest, received := ch.received ++ [msg] }
  | [] => { ch with waiting := true }

/-- The consumer leaves a receive that got nothing. -/
def giveUp (ch : ApplyCh Command) : ApplyCh Command :=
  { ch with waiting := false }

end ApplyCh

/-- `msgs` is what `applicationTicker` still has to hand over; the ticker is at
its critical section when there is nothing left. -/
structure Node (n : Nat) (Command : Type) where
  storage : RaftStorage n Command
  me : Fin n
  role : Role
  currentTerm : Nat
  votedFor : Option (Fin n)
  log : RaftLog Command
  nextIndex : Fin n → Nat
  matchIndex : Fin n → Nat
  commitIndex : Nat
  lastApplied : Nat
  applyCh : ApplyCh Command
  snapPending : Bool
  msgs : List (ApplyMsg Command)

/-- The critical sections of a running node and the moves of its consumer, with
their arguments, and the end of one process and start of the next. -/
inductive NodeCall (n : Nat) (Command : Type) where
  | electionTimeout
  | requestVote (req : RequestVoteArgs n)
  | checkVote (term : Nat) (resp : RequestVoteReply)
  | promote (term : Nat)
  | appendEntries (req : AppendEntriesArgs n Command)
  | startReplication (term : Nat)
  | appendReply (peer : Fin n) (args : AppendEntriesArgs n Command) (resp : AppendEntriesReply)
  | installSnapshot (req : InstallSnapshotArgs n)
  | installReply (peer : Fin n) (term : Nat) (resp : InstallSnapshotReply)
  | start (command : Option Command)
  | snapshot (index : Nat) (snapshot : Bytes)
  | collect
  | send
  | receive
  | giveUp
  | restart (capacity : Nat)
  deriving DecidableEq

/-- A request that `startReplication` hands to a goroutine. -/
inductive NodeReplicate (n : Nat) (Command : Type) where
  | append (args : AppendEntriesArgs n Command)
  | snapshot (args : InstallSnapshotArgs n)

namespace Node

variable {n : Nat} {Command : Type}

def serializeLog (node : Node n Command) : SerializedLog Command :=
  { snapLastIdx := node.log.snapLastIdx, snapLastTerm := node.log.snapLastTerm,
    tailLog := node.log.tailLog }

/-- The errors of the two `Save` calls are ignored. -/
def persistLocked (node : Node n Command) : Node n Command :=
  let storage := node.storage.saveRaftState
    { currentTerm := node.currentTerm, votedFor := node.votedFor, log := node.serializeLog }
  let storage := storage.saveSnapshot
    { index := node.log.snapLastIdx, term := node.log.snapLastTerm, data := node.log.snapshot }
  { node with storage }

def deserializeLog (data : SerializedLog Command) : RaftLog Command :=
  { snapLastIdx := data.snapLastIdx, snapLastTerm := data.snapLastTerm, snapshot := [],
    tailLog := data.tailLog }

def loadFromStorage (node : Node n Command) : Node n Command :=
  let node := match node.storage.raftState with
    | some state => { node with
        currentTerm := state.currentTerm
        votedFor := state.votedFor
        log := deserializeLog state.log }
    | none => node
  match node.storage.snapshot with
  | some snapshot =>
      let node := { node with log := newLog snapshot.index snapshot.term snapshot.data [] }
      if snapshot.index > node.commitIndex then
        { node with commitIndex := snapshot.index, lastApplied := snapshot.index }
      else node
  | none => node

def newNode (me : Fin n) (storage : RaftStorage n Command) (capacity : Nat) : Node n Command :=
  loadFromStorage
    { storage, me, role := .follower, currentTerm := 1, votedFor := none,
      log := newLog invalidIndex invalidTerm [] [],
      nextIndex := fun _ => 0, matchIndex := fun _ => 0,
      commitIndex := 0, lastApplied := 0, applyCh := ApplyCh.make capacity,
      snapPending := false, msgs := [] }

def becomeFollowerLocked (node : Node n Command) (term : Nat) : Node n Command :=
  if term < node.currentTerm then node
  else
    let next := { node with
      role := .follower
      votedFor := if term > node.currentTerm then none else node.votedFor
      currentTerm := term }
    if node.currentTerm ≠ term then next.persistLocked else next

def becomeCandidateLocked (node : Node n Command) : Node n Command :=
  if node.role = .leader then node
  else persistLocked { node with
    currentTerm := node.currentTerm + 1, role := .candidate, votedFor := some node.me }

def becomeLeaderLocked (node : Node n Command) : Node n Command :=
  if node.role ≠ .candidate then node
  else { node with
    role := .leader, nextIndex := fun _ => node.log.size, matchIndex := fun _ => 0 }

def contextLostLocked (node : Node n Command) (role : Role) (term : Nat) : Bool :=
  !(node.currentTerm == term && node.role == role)

def isMoreUpToDateLocked (node : Node n Command) (candidateIndex candidateTerm : Nat) : Bool :=
  let (lastIndex, lastTerm) := node.log.last
  if lastTerm ≠ candidateTerm then lastTerm > candidateTerm
  else lastIndex > candidateIndex

/-- Index, term and whether the node leads, as `Start` returns them. -/
def start (node : Node n Command) (command : Option Command) :
    Node n Command × Nat × Nat × Bool :=
  if node.role ≠ .leader then (node, 0, 0, false)
  else
    let node := persistLocked { node with
      log := node.log.append { term := node.currentTerm, commandValid := true, command } }
    (node, node.log.size - 1, node.currentTerm, true)

def snapshot (node : Node n Command) (index : Nat) (snapshot : Bytes) :
    Option (Node n Command) :=
  if index > node.commitIndex then some node
  else if index ≤ node.log.snapLastIdx then some node
  else do
    let log ← node.log.doSnapshot index snapshot
    return persistLocked { node with log }

/-- Unlike the labrpc `Raft`, a vote is granted again to the candidate that
already has it. -/
def handleRequestVote (node : Node n Command) (req : RequestVoteArgs n) :
    Node n Command × RequestVoteReply :=
  if req.term < node.currentTerm then
    (node, { term := node.currentTerm, voteGranted := false })
  else
    let node := if req.term > node.currentTerm then node.becomeFollowerLocked req.term else node
    let refuse : RequestVoteReply := { term := node.currentTerm, voteGranted := false }
    if node.votedFor ≠ none ∧ node.votedFor ≠ some req.candidateId then (node, refuse)
    else if node.isMoreUpToDateLocked req.lastLogIndex req.lastLogTerm then (node, refuse)
    else (persistLocked { node with votedFor := some req.candidateId },
      { refuse with voteGranted := true })

def handleAppendEntries (node : Node n Command) (req : AppendEntriesArgs n Command) :
    Option (Node n Command × AppendEntriesReply) :=
  let resp : AppendEntriesReply := { term := node.currentTerm }
  if req.term < node.currentTerm then some (node, resp)
  else
    let node := node.becomeFollowerLocked req.term
    if req.prevLogIndex ≥ node.log.size then
      some (node, { resp with conflictIndex := node.log.size, conflictTerm := invalidTerm })
    else if req.prevLogIndex < node.log.snapLastIdx then
      some (node, { resp with conflictIndex := node.log.snapLastIdx,
                              conflictTerm := node.log.snapLastTerm })
    else do
      let prev ← node.log.entryAt req.prevLogIndex
      if prev.term ≠ req.prevLogTerm then
        return (node, { resp with conflictTerm := prev.term,
                                  conflictIndex := node.log.firstFor prev.term })
      else
        let log ← node.log.appendFrom req.prevLogIndex req.entries
        let node := persistLocked { node with log }
        return ({ node with commitIndex :=
            if req.leaderCommit > node.commitIndex then
              if req.leaderCommit > node.log.last.1 then node.log.last.1 else req.leaderCommit
            else node.commitIndex },
          { resp with success := true })

def handleInstallSnapshot (node : Node n Command) (req : InstallSnapshotArgs n) :
    Option (Node n Command × InstallSnapshotReply) :=
  if req.term < node.currentTerm then some (node, { term := node.currentTerm })
  else
    let node := node.becomeFollowerLocked req.term
    if node.log.snapLastIdx ≥ req.lastIncludedIndex then
      some (node, { term := node.currentTerm })
    else do
      let log ← node.log.installSnapshot req.lastIncludedIndex req.lastIncludedTerm req.snapshot
      let node := { persistLocked { node with log } with snapPending := true }
      return ({ node with commitIndex :=
          if req.lastIncludedIndex > node.commitIndex then req.lastIncludedIndex
          else node.commitIndex },
        { term := node.currentTerm })

/-- The requests of `startElection`, one for every other peer. -/
def voteRequests (node : Node n Command) : List (Fin n × RequestVoteArgs n) :=
  let (lastIdx, lastTerm) := node.log.last
  ((List.finRange n).filter (· ≠ node.me)).map fun peer =>
    (peer, { term := node.currentTerm, candidateId := node.me,
             lastLogIndex := lastIdx, lastLogTerm := lastTerm })

/-- The first critical section of a vote goroutine after its call returned.  The
flag says that the goroutine goes on to count the vote. -/
def checkVote (node : Node n Command) (term : Nat) (resp : RequestVoteReply) :
    Node n Command × Bool :=
  if resp.term > node.currentTerm then (node.becomeFollowerLocked resp.term, false)
  else if node.contextLostLocked .candidate term then (node, false)
  else (node, resp.voteGranted)

/-- The critical section of a vote goroutine that found `votes` to be enough. -/
def promote (node : Node n Command) (term : Nat) : Node n Command :=
  if node.role = .candidate ∧ node.currentTerm = term then node.becomeLeaderLocked else node

def replicate (node : Node n Command) (peer : Fin n) : Option (NodeReplicate n Command) :=
  if node.nextIndex peer < node.log.snapLastIdx + 1 then
    some (.snapshot
      { term := node.currentTerm, leaderId := node.me,
        lastIncludedIndex := node.log.snapLastIdx, lastIncludedTerm := node.log.snapLastTerm,
        snapshot := node.log.snapshot })
  else do
    let prevIdx := node.nextIndex peer - 1
    let prev ← node.log.entryAt prevIdx
    let entries ← node.log.tail (prevIdx + 1)
    return .append
      { term := node.currentTerm, leaderId := node.me, prevLogIndex := prevIdx,
        prevLogTerm := prev.term, entries, leaderCommit := node.commitIndex }

def startReplication (node : Node n Command) (term : Nat) :
    Option (Node n Command × List (Fin n × NodeReplicate n Command)) :=
  if node.contextLostLocked .leader term then some (node, [])
  else do
    let node := { node with
      matchIndex := Function.update node.matchIndex node.me (node.log.size - 1)
      nextIndex := Function.update node.nextIndex node.me node.log.size }
    let requests ← ((List.finRange n).filter (· ≠ node.me)).mapM fun peer =>
      (node.replicate peer).map (peer, ·)
    return (node, requests)

/-- The inner loop of the sort in `updateCommitIndexLocked`: `index` stands for
`tmpIndexes[i]`, and is exchanged with every later smaller one. -/
def exchangePass (index : Nat) : List Nat → Nat × List Nat
  | [] => (index, [])
  | later :: rest =>
      if index > later then
        let (least, others) := exchangePass later rest
        (least, index :: others)
      else
        let (least, others) := exchangePass index rest
        (least, later :: others)

/-- The outer loop, for at most `rounds` positions. -/
def exchangeSort : Nat → List Nat → List Nat
  | rounds + 1, index :: rest =>
      let (least, others) := exchangePass index rest
      least :: exchangeSort rounds others
  | _, indexes => indexes

def updateCommitIndexLocked (node : Node n Command) : Option (Node n Command) := do
  let majorityIdx ← (exchangeSort (n - 1) (List.ofFn node.matchIndex))[(n - 1) / 2]?
  if majorityIdx > node.commitIndex then
    if majorityIdx ≥ node.log.snapLastIdx then
      let entry ← node.log.entryAt majorityIdx
      if entry.term = node.currentTerm then return { node with commitIndex := majorityIdx }
      else return node
    else return node
  else return node

/-- `nextIndex[peer]` after a rejection: never above what was probed, and never
below the first entry that is still in the log. -/
def nextProbe (node : Node n Command) (prevIdx : Nat) (resp : AppendEntriesReply) : Nat :=
  let probe :=
    if resp.conflictTerm = invalidTerm then resp.conflictIndex
    else
      let firstIdx := node.log.firstFor resp.conflictTerm
      if firstIdx ≠ invalidIndex then firstIdx else resp.conflictIndex
  let probe := if probe > prevIdx + 1 then prevIdx + 1 else probe
  if probe < node.log.snapLastIdx + 1 then node.log.snapLastIdx + 1 else probe

/-- The part of `sendAppendEntries` after the call returned. -/
def appendReply (node : Node n Command) (peer : Fin n) (args : AppendEntriesArgs n Command)
    (resp : AppendEntriesReply) : Option (Node n Command) :=
  if resp.term > node.currentTerm then some (node.becomeFollowerLocked resp.term)
  else if node.contextLostLocked .leader args.term then some node
  else if !resp.success then
    some { node with nextIndex :=
      Function.update node.nextIndex peer (node.nextProbe args.prevLogIndex resp) }
  else
    let matched := args.prevLogIndex + args.entries.length
    updateCommitIndexLocked { node with
      matchIndex := Function.update node.matchIndex peer matched
      nextIndex := Function.update node.nextIndex peer (matched + 1) }

/-- The part of `sendInstallSnapshot` after the call returned: the match point is
the leader's present snapshot, not the one that was sent. -/
def installReply (node : Node n Command) (peer : Fin n) (term : Nat)
    (resp : InstallSnapshotReply) : Node n Command :=
  if resp.term > node.currentTerm then node.becomeFollowerLocked resp.term
  else if node.contextLostLocked .leader term then node
  else { node with
    matchIndex := Function.update node.matchIndex peer node.log.snapLastIdx
    nextIndex := Function.update node.nextIndex peer (node.log.snapLastIdx + 1) }

/-- The critical section of `applicationTicker`: note what to hand over and
advance `lastApplied`. -/
def collect (node : Node n Command) : Option (Node n Command) :=
  match node.msgs with
  | [] =>
      if node.commitIndex ≤ node.lastApplied ∧ node.snapPending = false then none
      else do
        let lastApplied := if node.snapPending then node.log.snapLastIdx else node.lastApplied
        let snapshots := if node.snapPending then
          [{ snapshotValid := true, snapshot := node.log.snapshot,
             snapshotTerm := node.log.snapLastTerm, snapshotIndex := node.log.snapLastIdx }]
          else []
        let commands ← (List.range' (lastApplied + 1) (node.commitIndex - lastApplied)).mapM
          fun index => (node.log.entryAt index).map fun entry =>
            { commandValid := true, command := entry.command, commandIndex := index }
        return { node with
          snapPending := false
          lastApplied := max lastApplied node.commitIndex
          msgs := snapshots ++ commands }
  | _ => none

/-- One round of the hand-over loop. -/
def send (node : Node n Command) : Option (Node n Command) :=
  match node.msgs with
  | msg :: rest => some { node with msgs := rest, applyCh := node.applyCh.trySend msg }
  | [] => none

def handle (node : Node n Command) : NodeCall n Command → Option (Node n Command)
  | .electionTimeout => if node.role = .leader then none else some node.becomeCandidateLocked
  | .requestVote req => some (node.handleRequestVote req).1
  | .checkVote term resp => some (node.checkVote term resp).1
  | .promote term => some (node.promote term)
  | .appendEntries req => (node.handleAppendEntries req).map (·.1)
  | .startReplication term => (node.startReplication term).map (·.1)
  | .appendReply peer args resp => node.appendReply peer args resp
  | .installSnapshot req => (node.handleInstallSnapshot req).map (·.1)
  | .installReply peer term resp => some (node.installReply peer term resp)
  | .start command => some (node.start command).1
  | .snapshot index bytes => node.snapshot index bytes
  | .collect => node.collect
  | .send => node.send
  | .receive => some { node with applyCh := node.applyCh.receive }
  | .giveUp => some { node with applyCh := node.applyCh.giveUp }
  | .restart capacity => some (newNode node.me node.storage capacity)

end Node

/-- One node whose environment may call anything at any time. -/
def nodeSystem (n : Nat) (Command : Type) : System (Node n Command) (NodeCall n Command) where
  init node := ∃ me capacity, node = Node.newNode me (RaftStorage.empty n Command) capacity
  step := Node.handle

end MultiRaft
