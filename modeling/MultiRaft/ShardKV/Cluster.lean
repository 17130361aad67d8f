import MultiRaft.ShardKV.Server
import MultiRaft.Lib.Journal
import MultiRaft.Lib.System

/-!
# The controller and all groups

Raft is assumed: a group is one command log, and the journal lists the commands
of all groups in the order in which they are applied.  A server that reads its
state may lag behind its group, so tasks and remote calls read the state of a group
at any earlier time; calls may be lost, delayed and repeated at will.
-/

namespace MultiRaft.Shardkv

open ShardCtrler (Config Shard Groups CtrlerStateMachine)
open KVRaft (Op)

structure ShardCluster where
  ctrler : CtrlerStateMachine
  journal : List (Int × RaftCommand)

inductive ShardEvent where
  | join (groups : Groups)
  | leave (gids : List Int)
  | move (shard : Shard) (gid : Int)
  | client (gid : Int) (time : Nat) (op : Op)
  | fetchConfig (gid : Int) (time : Nat)
  | migrate (gid : Int) (time : Nat) (source : Int) (sourceTime : Nat) (shardIds : List Shard)
  | delete (gid : Int) (time : Nat) (source : Int) (sourceTime : Nat) (shardIds : List Shard)
  | collect (gid : Int) (time : Nat) (source : Int) (answered : Nat) (shardIds : List Shard)

/-- The handlers `Get` and `PutAppend` pass an operation on to Raft. -/
def ShardKV.accepts (kv : ShardKV) (op : Op) : Bool :=
  kv.matchGroup op.key && (op.opType == .get || !kv.requestDuplicated op.clientId op.seqId)

/-- A task calls the servers of a gid for the shards in a state, listed in any order. -/
def ShardKV.calls (kv : ShardKV) (status : ShardStatus) (gid : Int) (shardIds : List Shard) :
    Bool :=
  decide (kv.prevServers gid ≠ [] ∧ shardIds ≠ [] ∧
    shardIds.Perm (kv.getShardByStatus status gid))

namespace ShardCluster

/-- A group after the first `time` commands of the journal. -/
def group (cluster : ShardCluster) (gid : Int) (time : Nat) : ShardKV :=
  Journal.stateAt ShardKV.startServer (fun command kv => (kv.apply command).1) cluster.journal
    gid time

def now (cluster : ShardCluster) : Nat := cluster.journal.length

/-- The arguments of a call that a task makes for the configuration it is in. -/
def request (cluster : ShardCluster) (gid : Int) (time : Nat) (shardIds : List Shard) :
    ShardOperationArgs :=
  { configNum := (cluster.group gid time).currentConfig.num, shardIds }

/-- A group applies a command; only positive gids have servers. -/
def commit (cluster : ShardCluster) (gid : Int) (command : RaftCommand) : Option ShardCluster :=
  if 0 < gid then some { cluster with journal := cluster.journal ++ [(gid, command)] }
  else none

def join (cluster : ShardCluster) (groups : Groups) : Option ShardCluster :=
  if ∀ gid ∈ groups.keys, 0 < gid then
    (cluster.ctrler.join groups).map fun ctrler => { cluster with ctrler }
  else none

def leave (cluster : ShardCluster) (gids : List Int) : ShardCluster :=
  { cluster with ctrler := cluster.ctrler.leave gids }

def move (cluster : ShardCluster) (shard : Shard) (gid : Int) : Option ShardCluster :=
  if gid ∈ cluster.ctrler.lastConfig.groups.keys then
    some { cluster with ctrler := cluster.ctrler.move shard gid }
  else none

def client (cluster : ShardCluster) (gid : Int) (time : Nat) (op : Op) : Option ShardCluster :=
  if time ≤ cluster.now ∧ (cluster.group gid time).accepts op then
    cluster.commit gid (.clientOperation op)
  else none

def fetchConfig (cluster : ShardCluster) (gid : Int) (time : Nat) : Option ShardCluster :=
  let kv := cluster.group gid time
  let newConfig := cluster.ctrler.query (kv.currentConfig.num + 1)
  if time ≤ cluster.now ∧ kv.needFetch ∧ newConfig.num = kv.currentConfig.num + 1 then
    cluster.commit gid (.configChange newConfig)
  else none

/-- `shardMigrationTask` of `gid` calls `GetShardsData` at `source`. -/
def migrate (cluster : ShardCluster) (gid : Int) (time : Nat) (source : Int) (sourceTime : Nat)
    (shardIds : List Shard) : Option ShardCluster :=
  let reply := (cluster.group source sourceTime).getShardsData
    (cluster.request gid time shardIds)
  if time ≤ cluster.now ∧ sourceTime ≤ cluster.now ∧
      (cluster.group gid time).calls .moveIn source shardIds ∧ reply.err = .ok then
    cluster.commit gid (.shardMigration reply)
  else none

/-- `shardGCTask` of `gid` calls `DeleteShardsData` at `source`. -/
def delete (cluster : ShardCluster) (gid : Int) (time : Nat) (source : Int) (sourceTime : Nat)
    (shardIds : List Shard) : Option ShardCluster :=
  if time ≤ cluster.now ∧ sourceTime ≤ cluster.now ∧
      (cluster.group gid time).calls .gc source shardIds then
    ((cluster.group source sourceTime).deleteShardsData
      (cluster.request gid time shardIds)).bind (cluster.commit source)
  else none

/-- `DeleteShardsData` at `source` has answered OK: the group was past the configuration,
or it has applied the request. -/
def deleted (cluster : ShardCluster) (source : Int) (answered : Nat) (args : ShardOperationArgs) :
    Bool :=
  ((cluster.group source answered).deleteShardsData args).isNone ||
    match cluster.journal[answered]? with
    | some (gid, .shardGC other) => decide (gid = source ∧ other = args)
    | _ => false

/-- `shardGCTask` of `gid` goes on after an OK of `source`. -/
def collect (cluster : ShardCluster) (gid : Int) (time : Nat) (source : Int) (answered : Nat)
    (shardIds : List Shard) : Option ShardCluster :=
  let args := cluster.request gid time shardIds
  if time ≤ cluster.now ∧ answered ≤ cluster.now ∧
      (cluster.group gid time).calls .gc source shardIds ∧ cluster.deleted source answered args then
    cluster.commit gid (.shardGC args)
  else none

def step (cluster : ShardCluster) : ShardEvent → Option ShardCluster
  | .join groups => cluster.join groups
  | .leave gids => some (cluster.leave gids)
  | .move shard gid => cluster.move shard gid
  | .client gid time op => cluster.client gid time op
  | .fetchConfig gid time => cluster.fetchConfig gid time
  | .migrate gid time source sourceTime shardIds =>
      cluster.migrate gid time source sourceTime shardIds
  | .delete gid time source sourceTime shardIds =>
      cluster.delete gid time source sourceTime shardIds
  | .collect gid time source answered shardIds =>
      cluster.collect gid time source answered shardIds

def initial : ShardCluster := { ctrler := .new, journal := [] }

end ShardCluster

def shardSystem : System ShardCluster ShardEvent where
  init cluster := cluster = .initial
  step := ShardCluster.step

end MultiRaft.Shardkv
