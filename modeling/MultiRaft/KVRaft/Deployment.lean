import MultiRaft.KVRaft.Cluster
import MultiRaft.Raft.Delivery

/-!
# A kvraft cluster on labrpc Raft servers

Here nothing is assumed of Raft: every `KVServer` has its own `Raft`, calls `Start` on it and
gets its commands from the `applyCh` of it.  The servers run with `maxraftstate = -1`, so no
snapshot is ever taken.  `applyCh` is unbuffered: `applyTask` handles a message when it is
sent.
-/

namespace MultiRaft.KVRaft

/-- What a handler passes to `Start`.  Raft never looks at a command; the number of the call
only tells two commands apart. -/
structure Proposal where
  op : Op
  rpc : Nat
  deriving DecidableEq

structure Deployment (n : Nat) where
  raft : Cluster n Proposal
  servers : Fin n → KVServer
  rpcs : List (Rpc n)
  clerks : Nat → Clerk

/-- A step inside Raft, or one of the service and its clients. -/
inductive DeploymentEvent (n : Nat) where
  | network (event : Event n Proposal)
  | service (event : KVEvent n)

/-- An entry of a Raft log as the service sees it.  Every entry has a command. -/
def ofLogEntry (entry : LogEntry Proposal) : Entry :=
  match entry.command with
  | some proposal => { term := entry.term, op := proposal.op, rpc := proposal.rpc }
  | none => { term := entry.term, op := { key := "", opType := .get }, rpc := 0 }

/-- What a service sees of a Raft server that never took a snapshot. -/
def peerOf {n : Nat} (rf : Raft n Proposal) : RaftPeer where
  term := rf.currentTerm
  leading := rf.role = .leader
  log := rf.log.entries.map ofLogEntry
  applied := rf.applyCh.length
  snapshot := none

namespace Deployment

variable {n : Nat}

def peer (deployment : Deployment n) (server : Fin n) : RaftPeer :=
  peerOf (deployment.raft.servers server)

/-- The cluster over an assumed Raft that stands for the deployment, given the history that
only the assumed Raft keeps. -/
def view (deployment : Deployment n) (agreed : List Entry) (placed : List (Nat × Entry))
    (led : List Nat) : KVCluster n where
  peers := deployment.peer
  servers := deployment.servers
  rpcs := deployment.rpcs
  clerks := deployment.clerks
  agreed := agreed
  placed := placed
  led := led

/-- Clerks and handlers take the same steps over either Raft, where they do not call it. -/
def handle (deployment : Deployment n) (event : KVEvent n) : Option (Deployment n) :=
  ((deployment.view [] [] []).step event).map fun next =>
    { deployment with servers := next.servers, rpcs := next.rpcs, clerks := next.clerks }

/-- A handler calls `Start`. -/
def start (deployment : Deployment n) (id : Nat) : Option (Deployment n) := do
  let rpc ← deployment.rpcs[id]?
  let op ← rpc.args.op
  if rpc.phase ≠ .checked then none
  else
    let (rf, index, term, isLeader) :=
      (deployment.raft.servers rpc.server).start (some { op, rpc := id })
    let phase := if isLeader then .started index term
      else .replied .errWrongLeader "" (deployment.peer rpc.server).applied none
    return { deployment with
      raft := deployment.raft.setServer rpc.server rf
      rpcs := deployment.rpcs.set id { rpc with phase } }

/-- `applicationTicker` sends a message and `applyTask` handles it. -/
def apply (deployment : Deployment n) (server : Fin n) : Option (Deployment n) := do
  let (_, message) ← (deployment.raft.servers server).send
  let raft ← deployment.raft.send server
  if message.commandValid then
    let proposal ← message.command
    let kv ← (deployment.servers server).applyCommand message.commandIndex proposal.op
      ((deployment.raft.servers server).role = .leader)
    return { deployment with raft, servers := Function.update deployment.servers server kv }
  -- nobody takes a snapshot, so none arrives
  else none

/-- The process stops, and `StartKVServer` with its `Make` runs again. -/
def restart (deployment : Deployment n) (server : Fin n) : Deployment n :=
  let next := (deployment.view [] [] []).restart server
  { deployment with
    raft := deployment.raft.restart server, servers := next.servers, rpcs := next.rpcs }

/-- What Raft does by itself. -/
def network (deployment : Deployment n) (event : Event n Proposal) : Option (Deployment n) :=
  match event with
  | .start .. | .snapshot .. | .send .. | .restart .. => none
  | event => (deployment.raft.step event).map fun raft => { deployment with raft }

def step (deployment : Deployment n) : DeploymentEvent n → Option (Deployment n)
  | .network event => deployment.network event
  | .service (.raft ..) => none
  | .service (.install ..) => none
  | .service (.start id) => deployment.start id
  | .service (.apply server snapshot) => if snapshot then none else deployment.apply server
  | .service (.restart server) => some (deployment.restart server)
  | .service event => deployment.handle event

def initial (n : Nat) : Deployment n where
  raft := .initial n Proposal
  servers _ := .start none
  rpcs := []
  clerks _ := { seqId := 0, pending := none }

end Deployment

/-- What the servers see after one of them has changed. -/
theorem Deployment.update_peer {n : Nat} (deployment next : Deployment n) (server : Fin n)
    (others : ∀ other, other ≠ server → next.raft.servers other = deployment.raft.servers other) :
    Function.update deployment.peer server (peerOf (next.raft.servers server)) = next.peer := by
  funext other
  by_cases here : other = server
  · subst here
    exact Function.update_self ..
  · rw [Function.update_of_ne here, Deployment.peer, Deployment.peer, others other here]

theorem ofLogEntry_eq {entry : LogEntry Proposal} {proposal : Proposal}
    (command : entry.command = some proposal) :
    ofLogEntry entry = { term := entry.term, op := proposal.op, rpc := proposal.rpc } := by
  rw [ofLogEntry, command]

/-- The entry is valid, and some `Start` put it at the position. -/
def Started (placed : List (Nat × Entry)) (position : Nat) (entry : LogEntry Proposal) : Prop :=
  entry.commandValid = true ∧ entry.command.isSome = true ∧ (position, ofLogEntry entry) ∈ placed

theorem Started.mono {placed more : List (Nat × Entry)} {position : Nat}
    {entry : LogEntry Proposal} (started : Started placed position entry)
    (kept : placed ⊆ more) : Started more position entry :=
  ⟨started.1, started.2.1, kept started.2.2⟩

end MultiRaft.KVRaft

namespace MultiRaft

variable {n : Nat} {Command : Type}

/-- `appendFrom` on a log that was never compacted. -/
theorem RaftLog.entries_appendFrom {rl next : RaftLog Command} {prev : Nat}
    {entries : List (LogEntry Command)} (whole : rl.snapLastIdx = 0)
    (written : rl.appendFrom prev entries = some next) :
    next.entries = rl.entries.take prev ++ entries := by
  obtain ⟨i, inRange, result⟩ := Option.bind_eq_some_iff.mp written
  cases result
  obtain ⟨above, below, rfl⟩ := idx_eq_some.mp inRange
  rw [whole, Nat.sub_zero]
  rw [RaftLog.size, whole] at below
  simp only [RaftLog.entries]
  cases shape : rl.tailLog with
  | nil =>
      rw [shape] at below
      simp at below
  | cons dummy rest => rfl

namespace Cluster

variable {cluster next : Cluster n KVRaft.Proposal} {event : Event n KVRaft.Proposal}
  {history : History n KVRaft.Proposal} {placed : List (Nat × KVRaft.Entry)}

/-- Every entry of a log or on its way was put at its position by some `Start`. -/
structure Placed (cluster : Cluster n KVRaft.Proposal) (placed : List (Nat × KVRaft.Entry)) :
    Prop where
  logs : ∀ (server : Fin n) (position : Nat) (entry : LogEntry KVRaft.Proposal),
    (cluster.servers server).log.entries[position]? = some entry →
      KVRaft.Started placed position entry
  packets : ∀ packet ∈ cluster.net, ∀ args, packet.body = .appendRequest args →
    ∀ (position : Nat) (entry : LogEntry KVRaft.Proposal), args.entries[position]? = some entry →
      KVRaft.Started placed (args.prevLogIndex + position) entry

theorem Placed.mono (all : cluster.Placed placed) {more : List (Nat × KVRaft.Entry)}
    (kept : placed ⊆ more) : cluster.Placed more where
  logs server position entry found := (all.logs server position entry found).mono kept
  packets packet member args body position entry found :=
    (all.packets packet member args body position entry found).mono kept

/-- A leader sends entries of its log. -/
theorem Placed.replicate (all : cluster.Placed placed) (refines : cluster.Refines True history)
    (uncompacted : cluster.Uncompacted) {leader peer : Fin n}
    {args : AppendEntriesArgs n KVRaft.Proposal}
    (request : (cluster.servers leader).replicate peer = some (.append args))
    {position : Nat} {entry : LogEntry KVRaft.Proposal}
    (found : args.entries[position]? = some entry) :
    KVRaft.Started placed (args.prevLogIndex + position) entry := by
  have represents := (refines.servers leader).log
  have whole := (uncompacted.servers leader).snapLastIdx
  rcases Raft.replicate_cases request with other | ⟨prevIdx, prev, entries, -, read, isArgs⟩
  · cases other
  · cases isArgs
    have covered : (history.snap leader).length ≤ prevIdx := by
      rw [← represents.snapLastIdx, whole]
      exact Nat.zero_le _
    rw [represents.tail covered] at read
    cases read
    rw [List.getElem?_drop] at found
    refine all.logs leader _ entry ?_
    rwa [represents.entries whole]

/-- A server that appends nothing of its own has entries that were on their way or in its log. -/
theorem Placed.handle (all : cluster.Placed placed) (uncompacted : cluster.Uncompacted)
    {server : Fin n} {call : Call n KVRaft.Proposal}
    (moves : cluster.Moves next event server call) (allowed : event.uncompacted = true)
    (passive : ∀ command, event ≠ .start server command) {position : Nat}
    {entry : LogEntry KVRaft.Proposal}
    (found : (next.servers server).log.entries[position]? = some entry) :
    KVRaft.Started placed position entry := by
  have whole := (uncompacted.servers server).snapLastIdx
  have receives := moves.receives
  have asks := moves.asks
  cases (Raft.proceeds_handle moves.handled).log with
  | kept log =>
      rw [log] at found
      exact all.logs server position entry found
  | append => exact absurd asks (passive _)
  | adopt _ _ _ prevFound _ written =>
      obtain ⟨index, packet, -, inNet, body, -⟩ := receives
      have within := (RaftLog.entryAt_bounds prevFound).2
      rw [RaftLog.size, whole, Nat.zero_add] at within
      rw [RaftLog.entries_appendFrom whole written, List.getElem?_append, List.length_take,
        RaftLog.entries, List.length_drop, min_eq_left (by omega)] at found
      split at found
      · rename_i before
        rw [List.getElem?_take_of_lt before] at found
        exact all.logs server position entry found
      · rename_i beyond
        have sent := all.packets packet (List.mem_of_getElem? inNet) _ body _ entry found
        rwa [Nat.add_sub_cancel' (not_lt.mp beyond)] at sent
  | install _ _ _ newer =>
      obtain ⟨index, packet, -, inNet, body, -⟩ := receives
      rw [uncompacted.packets packet (List.mem_of_getElem? inNet) _ body] at newer
      exact absurd newer (Nat.not_lt_zero _)
  | compact =>
      obtain rfl : event = _ := asks
      cases allowed

/-- Nothing but `Start` puts a new entry anywhere. -/
theorem Placed.step (all : cluster.Placed placed) (refines : cluster.Refines True history)
    (uncompacted : cluster.Uncompacted) (stepped : cluster.Step event next)
    (allowed : event.uncompacted = true)
    (passive : ∀ server command, event ≠ .start server command) : next.Placed placed := by
  refine ⟨?_, ?_⟩
  · intro server position entry found
    rcases stepped.mover with same | ⟨mover, call, moves⟩ | ⟨mover, -, rfl⟩
    · rw [same] at found
      exact all.logs server position entry found
    · by_cases here : server = mover
      · subst here
        exact all.handle uncompacted moves allowed (passive server) found
      · rw [moves.others server here] at found
        exact all.logs server position entry found
    · refine all.logs server position entry ?_
      by_cases here : server = mover
      · subst here
        rwa [restart, setServer_servers_self,
          Raft.make_eq_of_durable (refines.voting.durable server)] at found
      · rwa [restart, setServer_servers_of_ne cluster _ here] at found
  · intro packet member args body position entry found
    cases stepped.arises packet member with
    | kept old => exact all.packets packet old args body position entry found
    | replicated _ leads request =>
        cases body
        exact all.replicate refines uncompacted request found
    | voted | appended | installed | asked | shipped => cases body

end Cluster

end MultiRaft
