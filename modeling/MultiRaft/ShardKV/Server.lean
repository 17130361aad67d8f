import MultiRaft.KVRaft.Server
import MultiRaft.ShardCtrler.StateMachine

/-!
# One shardkv group

The state that a group's command log builds, and what its tasks and remote calls
read from it.  A Go map from shard ids, met in some order by `range`, is a list;
a map that is only read by key is a function to `Option`.
-/

namespace MultiRaft.Shardkv

open ShardCtrler (Config Shard nShards defaultConfig)
open KVRaft (Op OperationType)

inductive Err where
  | ok
  | errNoKey
  | errWrongGroup
  | errWrongLeader
  | errTimeout
  | errWrongConfig
  | errNotReady
  deriving DecidableEq, Repr

structure OpReply where
  value : String
  err : Err
  deriving DecidableEq, Repr

structure LastOperationInfo where
  seqId : Nat
  reply : OpReply
  deriving DecidableEq, Repr

inductive ShardStatus where
  | normal
  | moveIn
  | moveOut
  | gc
  deriving DecidableEq, Repr

abbrev DuplicateTable := Nat → Option LastOperationInfo

structure ShardOperationArgs where
  configNum : Nat
  shardIds : List Shard
  deriving DecidableEq, Repr

structure ShardOperationReply where
  err : Err
  configNum : Nat
  shardData : List (Shard × (String → Option String))
  duplicateTable : DuplicateTable

inductive RaftCommand where
  | clientOperation (op : Op)
  | configChange (config : Config)
  | shardMigration (data : ShardOperationReply)
  | shardGC (args : ShardOperationArgs)

/-- The first byte of the key, by the number of shards. -/
def key2shard (key : String) : Shard :=
  ⟨((key.toByteArray.data[0]?).map UInt8.toNat).getD 0 % nShards, Nat.mod_lt _ (by decide)⟩

structure MemoryKVStateMachine where
  kv : String → Option String
  status : ShardStatus

namespace MemoryKVStateMachine

def new : MemoryKVStateMachine := { kv := fun _ => none, status := .normal }

def get (mkv : MemoryKVStateMachine) (key : String) : String × Err :=
  match mkv.kv key with
  | some value => (value, .ok)
  | none => ("", .errNoKey)

def put (mkv : MemoryKVStateMachine) (key value : String) : MemoryKVStateMachine × Err :=
  ({ mkv with kv := Function.update mkv.kv key (some value) }, .ok)

def append (mkv : MemoryKVStateMachine) (key value : String) : MemoryKVStateMachine × Err :=
  ({ mkv with kv := Function.update mkv.kv key (some ((mkv.kv key).getD "" ++ value)) }, .ok)

/-- `for k, v := range shardData { shard.KV[k] = v }`. -/
def merge (mkv : MemoryKVStateMachine) (data : String → Option String) :
    MemoryKVStateMachine :=
  { mkv with kv := fun key => (data key).or (mkv.kv key) }

end MemoryKVStateMachine

structure ShardKV where
  gid : Int
  shards : Shard → MemoryKVStateMachine
  duplicateTable : DuplicateTable
  currentConfig : Config
  prevConfig : Config

namespace ShardKV

/-- `StartServer` without a snapshot. -/
def startServer (gid : Int) : ShardKV :=
  { gid, shards := fun _ => .new, duplicateTable := fun _ => none,
    currentConfig := defaultConfig, prevConfig := defaultConfig }

def matchGroup (kv : ShardKV) (key : String) : Bool :=
  let shard := key2shard key
  let shardStatus := (kv.shards shard).status
  decide (kv.currentConfig.shards shard = kv.gid ∧
    (shardStatus = .normal ∨ shardStatus = .gc))

def requestDuplicated (kv : ShardKV) (clientId seqId : Nat) : Bool :=
  match kv.duplicateTable clientId with
  | some info => decide (seqId ≤ info.seqId)
  | none => false

/-- `duplicateTable[clientId].Reply`; it is read only where the entry exists. -/
def lastReply (kv : ShardKV) (clientId : Nat) : OpReply :=
  match kv.duplicateTable clientId with
  | some info => info.reply
  | none => { value := "", err := .ok }

def setShard (kv : ShardKV) (shard : Shard) (mkv : MemoryKVStateMachine) : ShardKV :=
  { kv with shards := Function.update kv.shards shard mkv }

def applyToStateMachine (kv : ShardKV) (op : Op) (shardId : Shard) : ShardKV × OpReply :=
  match op.opType with
  | .get =>
      let (value, err) := (kv.shards shardId).get op.key
      (kv, { value, err })
  | .put =>
      let (mkv, err) := (kv.shards shardId).put op.key op.value
      (kv.setShard shardId mkv, { value := "", err })
  | .append =>
      let (mkv, err) := (kv.shards shardId).append op.key op.value
      (kv.setShard shardId mkv, { value := "", err })

def applyClientOperation (kv : ShardKV) (op : Op) : ShardKV × OpReply :=
  if kv.matchGroup op.key then
    if op.opType ≠ .get ∧ kv.requestDuplicated op.clientId op.seqId then
      (kv, kv.lastReply op.clientId)
    else
      let (kv, opReply) := kv.applyToStateMachine op (key2shard op.key)
      if op.opType ≠ .get then
        let info : LastOperationInfo := { seqId := op.seqId, reply := opReply }
        let table := Function.update kv.duplicateTable op.clientId (some info)
        ({ kv with duplicateTable := table }, opReply)
      else (kv, opReply)
  else (kv, { value := "", err := .errWrongGroup })

/-- What a new configuration makes of the status of a shard.  A shard that comes
from group 0 or goes there is not handed over. -/
def newStatus (kv : ShardKV) (newConfig : Config) (shard : Shard) : ShardStatus :=
  let status := (kv.shards shard).status
  let status :=
    if kv.currentConfig.shards shard ≠ kv.gid ∧ newConfig.shards shard = kv.gid then
      if kv.currentConfig.shards shard ≠ 0 then .moveIn else status
    else status
  if kv.currentConfig.shards shard = kv.gid ∧ newConfig.shards shard ≠ kv.gid then
    if newConfig.shards shard ≠ 0 then .moveOut else status
  else status

def applyNewConfig (kv : ShardKV) (newConfig : Config) : ShardKV × OpReply :=
  if kv.currentConfig.num + 1 = newConfig.num then
    ({ kv with
      shards := fun shard => { kv.shards shard with status := kv.newStatus newConfig shard }
      prevConfig := kv.currentConfig
      currentConfig := newConfig }, { value := "", err := .ok })
  else (kv, { value := "", err := .errWrongConfig })

/-- The first loop of `applyShardMigration`, which stops at a shard in another state. -/
def migrateShards (kv : ShardKV) : List (Shard × (String → Option String)) → ShardKV
  | [] => kv
  | (shardId, shardData) :: rest =>
      let shard := kv.shards shardId
      if shard.status = .moveIn then
        (kv.setShard shardId { shard.merge shardData with status := .gc }).migrateShards rest
      else kv

def mergeDuplicates (old data : DuplicateTable) : DuplicateTable := fun clientId =>
  match old clientId, data clientId with
  | table, none => table
  | none, some dupTable => some dupTable
  | some table, some dupTable => if table.seqId < dupTable.seqId then some dupTable else some table

def applyShardMigration (kv : ShardKV) (shardDataReply : ShardOperationReply) :
    ShardKV × OpReply :=
  let opReply : OpReply := { value := "", err := .errWrongConfig }
  if shardDataReply.configNum = kv.currentConfig.num then
    let moved := kv.migrateShards shardDataReply.shardData
    let table := mergeDuplicates moved.duplicateTable shardDataReply.duplicateTable
    ({ moved with duplicateTable := table }, opReply)
  else (kv, opReply)

/-- The loop of `applyShardGC`, which stops at a shard in another state. -/
def collectShards (kv : ShardKV) : List Shard → ShardKV
  | [] => kv
  | shardId :: rest =>
      let shard := kv.shards shardId
      match shard.status with
      | .gc => (kv.setShard shardId { shard with status := .normal }).collectShards rest
      | .moveOut => (kv.setShard shardId .new).collectShards rest
      | _ => kv

def applyShardGC (kv : ShardKV) (shardsInfo : ShardOperationArgs) : ShardKV × OpReply :=
  let opReply : OpReply := { value := "", err := .ok }
  if shardsInfo.configNum = kv.currentConfig.num then
    (kv.collectShards shardsInfo.shardIds, opReply)
  else (kv, opReply)

/-- `applyTask` on a command. -/
def apply (kv : ShardKV) : RaftCommand → ShardKV × OpReply
  | .clientOperation op => kv.applyClientOperation op
  | .configChange config => kv.applyNewConfig config
  | .shardMigration data => kv.applyShardMigration data
  | .shardGC args => kv.applyShardGC args

/-- `fetchConfigTask` waits until the last change is over. -/
def needFetch (kv : ShardKV) : Bool :=
  decide (∀ shard, (kv.shards shard).status = .normal)

/-- `getShardByStatus(status)[gid]`, in one order of the ids. -/
def getShardByStatus (kv : ShardKV) (status : ShardStatus) (gid : Int) : List Shard :=
  (List.finRange nShards).filter fun shard =>
    decide ((kv.shards shard).status = status ∧ kv.prevConfig.shards shard = gid ∧ gid ≠ 0)

/-- The servers that the migration and the GC task call for a gid. -/
def prevServers (kv : ShardKV) (gid : Int) : List String :=
  (kv.prevConfig.groups.lookup gid).getD []

/-- `GetShardsData` at a server that believes it leads. -/
def getShardsData (kv : ShardKV) (args : ShardOperationArgs) : ShardOperationReply :=
  if kv.currentConfig.num < args.configNum then
    { err := .errNotReady, configNum := 0, shardData := [], duplicateTable := fun _ => none }
  else
    { err := .ok, configNum := args.configNum
      shardData := args.shardIds.map fun shardId => (shardId, (kv.shards shardId).kv)
      duplicateTable := kv.duplicateTable }

/-- `DeleteShardsData` answers at once when the group is past the configuration;
otherwise it puts the request into its own log. -/
def deleteShardsData (kv : ShardKV) (args : ShardOperationArgs) : Option RaftCommand :=
  if kv.currentConfig.num > args.configNum then none else some (.shardGC args)

end ShardKV

end MultiRaft.Shardkv
