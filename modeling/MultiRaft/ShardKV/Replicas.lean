import MultiRaft.ShardKV.Batches
import MultiRaft.Lib.Enumeration

/-!
# Replicas that range over maps in orders of their own

Go ranges over a map in any order, and every replica of a group in another one.  Since
a migration or GC command always finds a whole batch in one state, the order does not
matter, and the replicas of a group stay identical.
-/

namespace MultiRaft.Shardkv

open ShardCtrler (Config Shard)

/-- The orders in which one replica meets the entries of the maps in a reply. -/
structure Ranges where
  shardData : List (Shard × List (String × String))
  duplicateTable : List (Nat × LastOperationInfo)

structure Ranges.Of (ranges : Ranges) (data : ShardOperationReply) : Prop where
  shardData : ∃ order, order.Perm data.shardData ∧
    List.Forall₂ (fun ranged entry => ranged.1 = entry.1 ∧ Enumerates ranged.2 entry.2)
      ranges.shardData order
  duplicateTable : Enumerates ranges.duplicateTable data.duplicateTable

namespace ShardKV

variable {kv : ShardKV} {source target : Int}

/-- The first loop of `applyShardMigration` and the loop in it, in given orders. -/
def rangeShards (kv : ShardKV) : List (Shard × List (String × String)) → ShardKV
  | [] => kv
  | (shardId, shardData) :: rest =>
      let shard := kv.shards shardId
      if shard.status = .moveIn then
        let content := updateEach (fun v _ => some v) shard.kv shardData
        (kv.setShard shardId { kv := content, status := .gc }).rangeShards rest
      else kv

/-- The body of the second loop of `applyShardMigration`. -/
def copyDuplicate (dupTable : LastOperationInfo) : Option LastOperationInfo →
    Option LastOperationInfo
  | none => some dupTable
  | some table => if table.seqId < dupTable.seqId then some dupTable else some table

/-- `applyShardMigration` at a replica that meets the entries in given orders. -/
def rangeShardMigration (kv : ShardKV) (configNum : Nat) (ranges : Ranges) : ShardKV × OpReply :=
  let opReply : OpReply := { value := "", err := .errWrongConfig }
  if configNum = kv.currentConfig.num then
    let moved := kv.rangeShards ranges.shardData
    let table := updateEach copyDuplicate moved.duplicateTable ranges.duplicateTable
    ({ moved with duplicateTable := table }, opReply)
  else (kv, opReply)

/-- What a replica may make of a command. -/
inductive Applies (kv : ShardKV) : RaftCommand → ShardKV × OpReply → Prop
  | clientOperation (op : KVRaft.Op) :
      Applies kv (.clientOperation op) (kv.applyClientOperation op)
  | configChange (config : Config) : Applies kv (.configChange config) (kv.applyNewConfig config)
  | shardMigration (data : ShardOperationReply) (ranges : Ranges) (of : ranges.Of data) :
      Applies kv (.shardMigration data) (kv.rangeShardMigration data.configNum ranges)
  | shardGC (args : ShardOperationArgs) (shardIds : List Shard)
      (order : shardIds.Perm args.shardIds) :
      Applies kv (.shardGC args) (kv.applyShardGC { args with shardIds })

theorem rangeShards_eq {ranged : List (Shard × List (String × String))}
    {order : List (Shard × (String → Option String))}
    (same : List.Forall₂ (fun ranged entry => ranged.1 = entry.1 ∧ Enumerates ranged.2 entry.2)
      ranged order) : kv.rangeShards ranged = kv.migrateShards order := by
  induction same generalizing kv with
  | nil => rfl
  | @cons ranged entry _ _ head _ inductionHypothesis =>
      obtain ⟨shardId, entries⟩ := ranged
      obtain ⟨_, content⟩ := entry
      obtain ⟨rfl, enumerates⟩ := head
      have stored : updateEach (fun v _ => some v) (kv.shards shardId).kv entries =
          ((kv.shards shardId).merge content).kv := by
        rw [updateEach_of_enumerates enumerates]
        funext key
        simp only [MemoryKVStateMachine.merge]
        cases content key <;> rfl
      simp only [rangeShards, migrateShards, stored, inductionHypothesis]

theorem copyDuplicates_eq {entries : List (Nat × LastOperationInfo)} {old data : DuplicateTable}
    (enumerates : Enumerates entries data) :
    updateEach copyDuplicate old entries = mergeDuplicates old data := by
  rw [updateEach_of_enumerates enumerates]
  funext clientId
  unfold mergeDuplicates copyDuplicate
  cases old clientId <;> cases data clientId <;> rfl

theorem migrateShards_eq_with (kv : ShardKV)
    (shardData : List (Shard × (String → Option String))) :
    kv.migrateShards shardData = { kv with shards := (kv.migrateShards shardData).shards } := by
  obtain ⟨gid, current, prev⟩ := migrateShards_frame kv shardData
  have table := migrateShards_table kv shardData
  generalize kv.migrateShards shardData = moved at *
  cases moved
  subst gid current prev table
  rfl

theorem collectShards_eq_with (kv : ShardKV) (shardIds : List Shard) :
    kv.collectShards shardIds = { kv with shards := (kv.collectShards shardIds).shards } := by
  obtain ⟨gid, current, prev, table⟩ := collectShards_frame kv shardIds
  generalize kv.collectShards shardIds = collected at *
  cases collected
  subst gid current prev table
  rfl

/-- A batch is migrated in any order with the same result. -/
theorem Batch.migrateShards_perm {order shardData : List (Shard × (String → Option String))}
    (batch : kv.Batch source target (shardData.map Prod.fst)) (together : kv.Together)
    (perm : order.Perm shardData) : kv.migrateShards order = kv.migrateShards shardData := by
  have keys := perm.map Prod.fst
  obtain ⟨status, uniform⟩ := batch.uniform together
  have alike : ∀ shardId ∈ order.map Prod.fst, (kv.shards shardId).status = status :=
    fun shardId named => uniform shardId (keys.mem_iff.mp named)
  by_cases waiting : status = .moveIn
  · subst waiting
    rw [migrateShards_eq_with kv order, migrateShards_eq_with kv shardData]
    congr 1
    funext shard
    by_cases named : shard ∈ shardData.map Prod.fst
    · obtain ⟨⟨_, content⟩, carried, rfl⟩ := List.mem_map.mp named
      rw [migrateShards_of_all kv batch.nodup uniform carried,
        migrateShards_of_all kv (keys.nodup_iff.mpr batch.nodup) alike (perm.mem_iff.mpr carried)]
    · rw [migrateShards_of_not_mem kv named,
        migrateShards_of_not_mem kv (keys.mem_iff.not.mpr named)]
  · rw [migrateShards_of_none kv fun shardId named => (uniform shardId named).trans_ne waiting,
      migrateShards_of_none kv fun shardId named => (alike shardId named).trans_ne waiting]

/-- A batch is collected in any order with the same result. -/
theorem Batch.collectShards_perm {order shardIds : List Shard}
    (batch : kv.Batch source target shardIds) (together : kv.Together)
    (perm : order.Perm shardIds) : kv.collectShards order = kv.collectShards shardIds := by
  rcases batch.all_or_none together with all | none
  · rw [collectShards_eq_with kv order, collectShards_eq_with kv shardIds]
    congr 1
    funext shard
    by_cases named : shard ∈ shardIds
    · rw [collectShards_of_all kv batch.nodup all named,
        collectShards_of_all kv (perm.nodup_iff.mpr batch.nodup)
          (fun shardId listed => all shardId (perm.mem_iff.mp listed)) (perm.mem_iff.mpr named)]
    · rw [collectShards_of_not_mem kv named,
        collectShards_of_not_mem kv (perm.mem_iff.not.mpr named)]
  · rw [collectShards_of_none kv none,
      collectShards_of_none kv fun shardId named => none shardId (perm.mem_iff.mp named)]

end ShardKV

namespace ShardCluster

variable {cluster : ShardCluster} {gid : Int} {time : Nat}

/-- What one replica of a group has made of the first commands of the journal. -/
inductive ReplicaAt (cluster : ShardCluster) (gid : Int) : Nat → ShardKV → Prop
  | start : ReplicaAt cluster gid 0 (.startServer gid)
  | own {time : Nat} {command : RaftCommand} {kv : ShardKV} {result : ShardKV × OpReply}
      (before : ReplicaAt cluster gid time kv)
      (applied : cluster.journal[time]? = some (gid, command))
      (applies : kv.Applies command result) : ReplicaAt cluster gid (time + 1) result.1
  | other {time : Nat} {agent : Int} {command : RaftCommand} {kv : ShardKV}
      (before : ReplicaAt cluster gid time kv)
      (applied : cluster.journal[time]? = some (agent, command)) (away : agent ≠ gid) :
      ReplicaAt cluster gid (time + 1) kv

theorem Legal.applies_eq (legal : cluster.Legal) {command : RaftCommand}
    {result : ShardKV × OpReply} (applied : cluster.journal[time]? = some (gid, command))
    (applies : (cluster.group gid time).Applies command result) :
    result = (cluster.group gid time).apply command := by
  have together := legal.together gid time
  cases applies with
  | clientOperation op => rfl
  | configChange config => rfl
  | shardMigration data ranges of =>
      obtain ⟨order, perm, same⟩ := of.shardData
      simp only [ShardKV.apply, ShardKV.rangeShardMigration, ShardKV.applyShardMigration,
        ShardKV.rangeShards_eq same, ShardKV.copyDuplicates_eq of.duplicateTable]
      by_cases current : data.configNum = (cluster.group gid time).currentConfig.num
      · obtain ⟨source, batch⟩ := legal.migrates_batch applied current
        rw [batch.migrateShards_perm together perm]
      · rw [if_neg current, if_neg current]
  | shardGC args shardIds order =>
      simp only [ShardKV.apply, ShardKV.applyShardGC]
      by_cases current : args.configNum = (cluster.group gid time).currentConfig.num
      · obtain ⟨source, target, -, batch⟩ := legal.collects_batch applied current
        rw [batch.collectShards_perm together order]
      · rw [if_neg current, if_neg current]

theorem Legal.replica_eq (legal : cluster.Legal) {kv : ShardKV}
    (replica : cluster.ReplicaAt gid time kv) : kv = cluster.group gid time := by
  induction replica with
  | start => rfl
  | own before applied applies inductionHypothesis =>
      subst inductionHypothesis
      rw [group_succ applied, legal.applies_eq applied applies]
  | other before applied away inductionHypothesis =>
      rw [inductionHypothesis]
      exact (Journal.stateAt_succ_other applied away).symm

end ShardCluster

/-- The shards of a migration or GC command for the current configuration are all in the
state it is about, or none is; so replicas that range over the maps and ids in different
orders stay identical. -/
theorem replicas_identical {cluster : ShardCluster}
    (reached : shardSystem.Reachable System.anyStep cluster) (gid : Int) (time : Nat) :
    (∀ data, cluster.journal[time]? = some (gid, .shardMigration data) →
      data.configNum = (cluster.group gid time).currentConfig.num →
      (∀ entry ∈ data.shardData, cluster.status gid time entry.1 = .moveIn) ∨
        ∀ entry ∈ data.shardData, cluster.status gid time entry.1 ≠ .moveIn) ∧
    (∀ args, cluster.journal[time]? = some (gid, .shardGC args) →
      args.configNum = (cluster.group gid time).currentConfig.num →
      (∀ shard ∈ args.shardIds, cluster.status gid time shard = .gc) ∨
      (∀ shard ∈ args.shardIds, cluster.status gid time shard = .moveOut) ∨
        ∀ shard ∈ args.shardIds,
          cluster.status gid time shard ≠ .gc ∧ cluster.status gid time shard ≠ .moveOut) ∧
    (∀ command result, cluster.journal[time]? = some (gid, command) →
      (cluster.group gid time).Applies command result →
      result = (cluster.group gid time).apply command) ∧
    ∀ kv, cluster.ReplicaAt gid time kv → kv = cluster.group gid time := by
  have legal := ShardCluster.legal_of_reachable reached
  have together := legal.together gid time
  refine ⟨?_, ?_, fun _ _ => legal.applies_eq, fun _ => legal.replica_eq⟩
  · intro data applied current
    obtain ⟨source, batch⟩ := legal.migrates_batch applied current
    obtain ⟨status, uniform⟩ := batch.uniform together
    have here : ∀ entry ∈ data.shardData, cluster.status gid time entry.1 = status :=
      fun entry carried => uniform entry.1 (List.mem_map_of_mem carried)
    by_cases waiting : status = .moveIn
    · exact .inl fun entry carried => (here entry carried).trans waiting
    · exact .inr fun entry carried => (here entry carried).trans_ne waiting
  · intro args applied current
    obtain ⟨source, target, -, batch⟩ := legal.collects_batch applied current
    obtain ⟨status, uniform⟩ := batch.uniform together
    by_cases collecting : status = .gc
    · exact .inl fun shard named => (uniform shard named).trans collecting
    by_cases leaving : status = .moveOut
    · exact .inr (.inl fun shard named => (uniform shard named).trans leaving)
    · exact .inr (.inr fun shard named =>
        ⟨(uniform shard named).trans_ne collecting, (uniform shard named).trans_ne leaving⟩)

/-- Group 1 clears the shards that it has given to group 2 in the reverse order. -/
theorem replicas_identical_reversed :
    (∀ shard ∈ firstHalf, handedOverCluster.status 1 6 shard = .moveOut) ∧
    (handedOverCluster.group 1 6).applyShardGC { configNum := 2, shardIds := firstHalf.reverse } =
      (handedOverCluster.group 1 6).applyShardGC { configNum := 2, shardIds := firstHalf } := by
  have reached : shardSystem.Reachable System.anyStep handedOverCluster :=
    ⟨.initial, rfl,
      (System.run_after ShardCluster.keepsGroups _ _).mono fun _ _ _ => trivial⟩
  have applied : handedOverCluster.journal[6]? =
      some (1, .shardGC { configNum := 2, shardIds := firstHalf }) := rfl
  obtain ⟨-, collected, any_order, -⟩ := replicas_identical reached 1 6
  have leaving : handedOverCluster.status 1 6 (key2shard "x") = .moveOut := rfl
  refine ⟨?_, any_order _ _ applied (.shardGC _ _ (List.reverse_perm _))⟩
  rcases collected _ applied rfl with all | all | none
  · exact absurd (leaving.symm.trans (all _ (by decide))) (by decide)
  · exact all
  · exact absurd leaving (none _ (by decide)).2

end MultiRaft.Shardkv
