import MultiRaft.KVRaft.Server
import MultiRaft.Lib.System
import Mathlib.Data.List.Basic

/-!
# A kvraft cluster over an assumed Raft

Raft appears by what it guarantees: all servers apply one agreed sequence, each
server in order and from its own log; the log of a server that leads changes only
by `Start` as long as its term lasts, and no term has two leaderships.  Between
these points the scheduler moves terms, leaders and uncommitted entries freely.

A handler is a goroutine: it stands between two of its critical sections in one
of the phases below.  The scheduler also decides when requests arrive, which
answers come back and when `ClientRequestTimeout` has passed.
-/

namespace MultiRaft.KVRaft

/-- An entry of a log, with the remote call whose `Start` made it. -/
structure Entry where
  term : Nat
  op : Op
  rpc : Nat
  deriving DecidableEq, Repr

/-- Raft at one server; `applied` is the index of the last message it delivered,
`snapshot` what its persister holds. -/
structure RaftPeer where
  term : Nat
  leading : Bool
  log : List Entry
  applied : Nat
  snapshot : Option Image

inductive Args where
  | get (args : GetArgs)
  | putAppend (args : PutAppendArgs)
  deriving DecidableEq, Repr

/-- Where a handler stands.  `term` is the second result of `Start`, which the
code drops.  `applied` is how far the server had applied when it answered, and
`cleanup` the index whose channel is still to be removed. -/
inductive Phase where
  | requested
  | checked
  | started (index term : Nat)
  | waiting (index term channel : Nat)
  | replied (err : Err) (value : String) (applied : Nat) (cleanup : Option Nat)
  | dead
  deriving DecidableEq, Repr

structure Rpc (n : Nat) where
  server : Fin n
  args : Args
  phase : Phase

/-- A `Clerk` with its next sequence number and the write it repeats. -/
structure Clerk where
  seqId : Nat
  pending : Option PutAppendArgs

/-- `placed` lists everything that `Start` ever put at a position of a log, and
`led` the terms that had a leader. -/
structure KVCluster (n : Nat) where
  peers : Fin n → RaftPeer
  servers : Fin n → KVServer
  rpcs : List (Rpc n)
  clerks : Nat → Clerk
  agreed : List Entry
  placed : List (Nat × Entry)
  led : List Nat

inductive KVEvent (n : Nat) where
  | raft (server : Fin n) (term : Nat) (leading : Bool) (log : List Entry)
  | write (clientId : Nat) (key value op : String)
  | send (clientId : Nat) (server : Fin n)
  | read (server : Fin n) (key : String)
  | check (rpc : Nat)
  | start (rpc : Nat)
  | register (rpc : Nat)
  | receive (rpc : Nat)
  | timeout (rpc : Nat)
  | cleanup (rpc : Nat)
  | acknowledge (rpc : Nat)
  | apply (server : Fin n) (snapshot : Bool)
  | install (server source : Fin n)
  | restart (server : Fin n)

/-- The command that a handler passes to `Start`. -/
def Args.op : Args → Option Op
  | .get args => some { key := args.key, opType := .get }
  | .putAppend args => do
      let opType ← getOperationType args.op
      return { key := args.key, value := args.value, opType,
               clientId := args.clientId, seqId := args.seqId }

namespace KVCluster

variable {n : Nat}

def setServer (cluster : KVCluster n) (server : Fin n) (kv : KVServer) : KVCluster n :=
  { cluster with servers := Function.update cluster.servers server kv }

def setPeer (cluster : KVCluster n) (server : Fin n) (peer : RaftPeer) : KVCluster n :=
  { cluster with peers := Function.update cluster.peers server peer }

def setPhase (cluster : KVCluster n) (id : Nat) (rpc : Rpc n) (phase : Phase) : KVCluster n :=
  { cluster with rpcs := cluster.rpcs.set id { rpc with phase } }

def setClerk (cluster : KVCluster n) (clientId : Nat) (clerk : Clerk) : KVCluster n :=
  { cluster with clerks := Function.update cluster.clerks clientId clerk }

/-- What Raft guarantees of a change at one server. -/
def raftAllows (cluster : KVCluster n) (server : Fin n) (term : Nat) (leading : Bool)
    (log : List Entry) : Bool :=
  let peer := cluster.peers server
  peer.term ≤ term &&
  -- what was applied is in the log and stays there
  peer.applied ≤ log.length && log.take peer.applied == cluster.agreed.take peer.applied &&
  -- every entry was put at its position by some `Start`
  (log.zipIdx.all fun entry => cluster.placed.contains (entry.2, entry.1)) &&
  -- a leadership goes on with its log, or begins in a term that had none
  (!leading || (peer.leading && term == peer.term && log == peer.log) ||
    !cluster.led.contains term)

def raft (cluster : KVCluster n) (server : Fin n) (term : Nat) (leading : Bool)
    (log : List Entry) : Option (KVCluster n) :=
  if cluster.raftAllows server term leading log then
    some { cluster.setPeer server { cluster.peers server with term, leading, log } with
      led := if leading then term :: cluster.led else cluster.led }
  else none

/-- The first server to apply at an index settles what the others apply there. -/
def settle (agreed : List Entry) (position : Nat) (entry : Entry) : Option (List Entry) :=
  match agreed[position]? with
  | none => some (agreed ++ [entry])
  | some other => if other = entry then some agreed else none

/-- Raft delivers the next entry of the server's log and `applyTask` handles it;
`snapshot` says whether the state has grown to `maxraftstate`. -/
def apply (cluster : KVCluster n) (server : Fin n) (snapshot : Bool) :
    Option (KVCluster n) := do
  let peer := cluster.peers server
  let entry ← peer.log[peer.applied]?
  let agreed ← settle cluster.agreed peer.applied entry
  let kv ← (cluster.servers server).applyCommand (peer.applied + 1) entry.op peer.leading
  let peer := { peer with
    applied := peer.applied + 1
    snapshot := if snapshot then some (kv.makeSnapshot (peer.applied + 1)) else peer.snapshot }
  return { (cluster.setServer server kv).setPeer server peer with agreed }

/-- Raft delivers a snapshot that another server made, ahead of what this one
has applied. -/
def install (cluster : KVCluster n) (server source : Fin n) : Option (KVCluster n) := do
  let peer := cluster.peers server
  let image ← (cluster.peers source).snapshot
  if peer.applied < image.index ∧ image.index ≤ peer.log.length ∧
      peer.log.take image.index = cluster.agreed.take image.index then
    return (cluster.setServer server ((cluster.servers server).applySnapshot image)).setPeer server
      { peer with applied := image.index, snapshot := some image }
  else none

/-- The process stops, with its handlers, and `StartKVServer` runs again. -/
def restart (cluster : KVCluster n) (server : Fin n) : KVCluster n :=
  let peer := cluster.peers server
  let applied := match peer.snapshot with
    | none => 0
    | some image => image.index
  { (cluster.setServer server (.start peer.snapshot)).setPeer server
      { peer with leading := false, applied } with
    rpcs := cluster.rpcs.map fun rpc =>
      if rpc.server = server then
        match rpc.phase with
        | .replied err value applied _ => { rpc with phase := .replied err value applied none }
        | _ => { rpc with phase := .dead }
      else rpc }

/-- `Clerk.PutAppend` begins. -/
def write (cluster : KVCluster n) (clientId : Nat) (key value op : String) :
    Option (KVCluster n) :=
  let clerk := cluster.clerks clientId
  match clerk.pending with
  | some _ => none
  | none => some (cluster.setClerk clientId
      { clerk with pending := some { key, value, op, clientId, seqId := clerk.seqId } })

/-- One round of the loop in `Clerk.PutAppend`. -/
def send (cluster : KVCluster n) (clientId : Nat) (server : Fin n) : Option (KVCluster n) := do
  let args ← (cluster.clerks clientId).pending
  return { cluster with
    rpcs := cluster.rpcs ++ [{ server, args := .putAppend args, phase := .requested }] }

def read (cluster : KVCluster n) (server : Fin n) (key : String) : KVCluster n :=
  { cluster with rpcs := cluster.rpcs ++ [{ server, args := .get { key }, phase := .checked }] }

/-- The clerk gets an answer that ends its loop. -/
def acknowledge (cluster : KVCluster n) (id : Nat) : Option (KVCluster n) := do
  let rpc ← cluster.rpcs[id]?
  match rpc.args, rpc.phase with
  | .putAppend args, .replied err _ _ _ =>
      let clerk := cluster.clerks args.clientId
      if clerk.pending = some args ∧ err ≠ .errWrongLeader ∧ err ≠ .errTimeout then
        return cluster.setClerk args.clientId { seqId := clerk.seqId + 1, pending := none }
      else none
  | _, _ => none

/-- The first section of `PutAppend`: a duplicate is answered at once. -/
def check (cluster : KVCluster n) (id : Nat) : Option (KVCluster n) := do
  let rpc ← cluster.rpcs[id]?
  match rpc.args, rpc.phase with
  | .putAppend args, .requested =>
      let replica := (cluster.servers rpc.server).replica
      if replica.requestDuplicated args.clientId args.seqId then
        return cluster.setPhase id rpc (.replied (replica.lastReply args.clientId).err ""
          (cluster.peers rpc.server).applied none)
      else return cluster.setPhase id rpc .checked
  | _, _ => none

def start (cluster : KVCluster n) (id : Nat) : Option (KVCluster n) := do
  let rpc ← cluster.rpcs[id]?
  let op ← rpc.args.op
  let peer := cluster.peers rpc.server
  if rpc.phase ≠ .checked then none
  else if !peer.leading then
    return cluster.setPhase id rpc (.replied .errWrongLeader "" peer.applied none)
  else
    let entry : Entry := { term := peer.term, op, rpc := id }
    let peer' := { peer with log := peer.log ++ [entry] }
    return { (cluster.setPeer rpc.server peer').setPhase id rpc
        (.started (peer.log.length + 1) peer.term) with
      placed := cluster.placed ++ [(peer.log.length, entry)] }

def register (cluster : KVCluster n) (id : Nat) : Option (KVCluster n) := do
  let rpc ← cluster.rpcs[id]?
  match rpc.phase with
  | .started index term =>
      let (kv, channel) := (cluster.servers rpc.server).getNotifyChannel index
      return (cluster.setServer rpc.server kv).setPhase id rpc (.waiting index term channel)
  | _ => none

/-- `PutAppend` takes only the error of the result. -/
def receive (cluster : KVCluster n) (id : Nat) : Option (KVCluster n) := do
  let rpc ← cluster.rpcs[id]?
  match rpc.phase with
  | .waiting index _ channel =>
      let kv := cluster.servers rpc.server
      let result ← kv.buffers channel
      let value := match rpc.args with
        | .get _ => result.value
        | .putAppend _ => ""
      return (cluster.setServer rpc.server
        { kv with buffers := Function.update kv.buffers channel none }).setPhase id rpc
          (.replied result.err value (cluster.peers rpc.server).applied (some index))
  | _ => none

def timeout (cluster : KVCluster n) (id : Nat) : Option (KVCluster n) := do
  let rpc ← cluster.rpcs[id]?
  match rpc.phase with
  | .waiting index _ _ =>
      return cluster.setPhase id rpc
        (.replied .errTimeout "" (cluster.peers rpc.server).applied (some index))
  | _ => none

def cleanup (cluster : KVCluster n) (id : Nat) : Option (KVCluster n) := do
  let rpc ← cluster.rpcs[id]?
  match rpc.phase with
  | .replied err value applied (some index) =>
      return (cluster.setServer rpc.server
        ((cluster.servers rpc.server).removeNotifyChannel index)).setPhase id rpc
          (.replied err value applied none)
  | _ => none

def step (cluster : KVCluster n) : KVEvent n → Option (KVCluster n)
  | .raft server term leading log => cluster.raft server term leading log
  | .write clientId key value op => cluster.write clientId key value op
  | .send clientId server => cluster.send clientId server
  | .read server key => some (cluster.read server key)
  | .check rpc => cluster.check rpc
  | .start rpc => cluster.start rpc
  | .register rpc => cluster.register rpc
  | .receive rpc => cluster.receive rpc
  | .timeout rpc => cluster.timeout rpc
  | .cleanup rpc => cluster.cleanup rpc
  | .acknowledge rpc => cluster.acknowledge rpc
  | .apply server snapshot => cluster.apply server snapshot
  | .install server source => cluster.install server source
  | .restart server => some (cluster.restart server)

def initial (n : Nat) : KVCluster n where
  peers _ := { term := 0, leading := false, log := [], applied := 0, snapshot := none }
  servers _ := .start none
  rpcs := []
  clerks _ := { seqId := 0, pending := none }
  agreed := []
  placed := []
  led := []

end KVCluster

def kvSystem (n : Nat) : System (KVCluster n) (KVEvent n) where
  init cluster := cluster = KVCluster.initial n
  step := KVCluster.step

end MultiRaft.KVRaft
