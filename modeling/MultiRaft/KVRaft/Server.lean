import Mathlib.Logic.Function.Basic

/-!
# One KVServer

The state machine, the duplicate table and the apply loop of `kvraft`.  Every
function is one critical section under `kv.mu`.  A Go map is a function to
`Option`, a pointer that is never written through is its value, and an image of
`makeSnapshot` is the pair of values it encodes.
-/

namespace MultiRaft.KVRaft

inductive Err where
  | ok
  | errNoKey
  | errWrongLeader
  | errTimeout
  deriving DecidableEq, Repr

inductive OperationType where
  | get
  | put
  | append
  deriving DecidableEq, Repr

structure PutAppendArgs where
  key : String
  value : String
  op : String
  clientId : Nat
  seqId : Nat
  deriving DecidableEq, Repr

structure GetArgs where
  key : String
  deriving DecidableEq, Repr

structure Op where
  key : String
  value : String := ""
  opType : OperationType
  clientId : Nat := 0
  seqId : Nat := 0
  deriving DecidableEq, Repr

structure OpReply where
  value : String
  err : Err
  deriving DecidableEq, Repr

/-- It panics on anything but the two words a `Clerk` sends. -/
def getOperationType (v : String) : Option OperationType :=
  if v = "Put" then some .put
  else if v = "Append" then some .append
  else none

structure LastOperationInfo where
  seqId : Nat
  reply : OpReply
  deriving DecidableEq, Repr

structure MemoryKVStateMachine where
  kv : String → Option String

namespace MemoryKVStateMachine

def new : MemoryKVStateMachine := { kv := fun _ => none }

def get (mkv : MemoryKVStateMachine) (key : String) : String × Err :=
  match mkv.kv key with
  | some value => (value, .ok)
  | none => ("", .errNoKey)

def put (mkv : MemoryKVStateMachine) (key value : String) : MemoryKVStateMachine × Err :=
  ({ kv := Function.update mkv.kv key (some value) }, .ok)

def append (mkv : MemoryKVStateMachine) (key value : String) : MemoryKVStateMachine × Err :=
  ({ kv := Function.update mkv.kv key (some ((mkv.kv key).getD "" ++ value)) }, .ok)

end MemoryKVStateMachine

abbrev DuplicateTable := Nat → Option LastOperationInfo

/-- What the commands applied so far amount to; `makeSnapshot` encodes it. -/
structure Replica where
  stateMachine : MemoryKVStateMachine
  duplicateTable : DuplicateTable

namespace Replica

def new : Replica := { stateMachine := .new, duplicateTable := fun _ => none }

def requestDuplicated (replica : Replica) (clientId seqId : Nat) : Bool :=
  match replica.duplicateTable clientId with
  | some info => decide (seqId ≤ info.seqId)
  | none => false

def applyToStateMachine (replica : Replica) (op : Op) : Replica × OpReply :=
  match op.opType with
  | .get =>
      let (value, err) := replica.stateMachine.get op.key
      (replica, { value, err })
  | .put =>
      let (stateMachine, err) := replica.stateMachine.put op.key op.value
      ({ replica with stateMachine }, { value := "", err })
  | .append =>
      let (stateMachine, err) := replica.stateMachine.append op.key op.value
      ({ replica with stateMachine }, { value := "", err })

/-- `duplicateTable[clientId].Reply`; it is read only where the entry exists. -/
def lastReply (replica : Replica) (clientId : Nat) : OpReply :=
  match replica.duplicateTable clientId with
  | some info => info.reply
  | none => { value := "", err := .ok }

/-- The part of `applyTask` between taking a command and answering it. -/
def apply (replica : Replica) (op : Op) : Replica × OpReply :=
  if op.opType ≠ .get ∧ replica.requestDuplicated op.clientId op.seqId then
    (replica, replica.lastReply op.clientId)
  else
    let (replica, opReply) := replica.applyToStateMachine op
    if op.opType ≠ .get then
      let info : LastOperationInfo := { seqId := op.seqId, reply := opReply }
      let table := Function.update replica.duplicateTable op.clientId (some info)
      ({ replica with duplicateTable := table }, opReply)
    else (replica, opReply)

/-- The replica after a sequence of commands. -/
def replay (ops : List Op) : Replica :=
  ops.foldl (fun replica op => (replica.apply op).1) .new

end Replica

/-- A snapshot that Raft keeps or delivers. -/
structure Image where
  index : Nat
  replica : Replica

/-- `notifyChans` maps an index to a channel; `buffers` holds what lies in the
one slot of each channel, also of one that the map has lost. -/
structure KVServer where
  lastApplied : Nat
  replica : Replica
  notifyChans : Nat → Option Nat
  buffers : Nat → Option OpReply
  nextChan : Nat

namespace KVServer

/-- `restoreFromSnapshot` brings the replica back, but not `lastApplied`. -/
def start (snapshot : Option Image) : KVServer :=
  { lastApplied := 0
    replica := match snapshot with
      | none => .new
      | some image => image.replica
    notifyChans := fun _ => none, buffers := fun _ => none, nextChan := 0 }

def getNotifyChannel (kv : KVServer) (index : Nat) : KVServer × Nat :=
  match kv.notifyChans index with
  | some channel => (kv, channel)
  | none =>
      ({ kv with
        notifyChans := Function.update kv.notifyChans index (some kv.nextChan)
        buffers := Function.update kv.buffers kv.nextChan none
        nextChan := kv.nextChan + 1 }, kv.nextChan)

def removeNotifyChannel (kv : KVServer) (index : Nat) : KVServer :=
  { kv with notifyChans := Function.update kv.notifyChans index none }

/-- `applyTask` on a command.  The send blocks while the slot is taken, with the
lock held. -/
def applyCommand (kv : KVServer) (index : Nat) (op : Op) (isLeader : Bool) : Option KVServer :=
  if index ≤ kv.lastApplied then some kv
  else
    let (replica, opReply) := kv.replica.apply op
    let kv := { kv with lastApplied := index, replica }
    if isLeader then
      let (kv, notifyCh) := kv.getNotifyChannel index
      match kv.buffers notifyCh with
      | some _ => none
      | none => some { kv with buffers := Function.update kv.buffers notifyCh (some opReply) }
    else some kv

/-- `applyTask` on a snapshot. -/
def applySnapshot (kv : KVServer) (image : Image) : KVServer :=
  { kv with replica := image.replica, lastApplied := image.index }

def makeSnapshot (kv : KVServer) (index : Nat) : Image :=
  { index, replica := kv.replica }

end KVServer

end MultiRaft.KVRaft
