import MultiRaft.ShardKV.Batches

/-!
# Commands that come again

The tasks propose a migration or GC command again and again until they see its effect.
Once a group has applied it, every later application finds the group in another
configuration, or the shards of the batch past the state that the command is about.
-/

namespace MultiRaft.Shardkv

open ShardCtrler (Config Shard)

/-- The commands that hand shards over. -/
def RaftCommand.movesShards : RaftCommand → Bool
  | .shardMigration _ => true
  | .shardGC _ => true
  | _ => false

namespace ShardKV

variable {kv : ShardKV} {data : ShardOperationReply} {args : ShardOperationArgs}

theorem shards_of_migration (current : data.configNum = kv.currentConfig.num) :
    (kv.apply (.shardMigration data)).1.shards = (kv.migrateShards data.shardData).shards := by
  rw [apply, applyShardMigration, if_pos current]

theorem apply_of_gc (current : args.configNum = kv.currentConfig.num) :
    (kv.apply (.shardGC args)).1 = kv.collectShards args.shardIds := by
  rw [apply, applyShardGC, if_pos current]

/-- Neither command takes anything from the duplicate table. -/
theorem table_of_movesShards {command : RaftCommand} (moves : command.movesShards = true)
    {clientId : Nat} {info : LastOperationInfo} (known : kv.duplicateTable clientId = some info) :
    ∃ kept, (kv.apply command).1.duplicateTable clientId = some kept ∧
      info.seqId ≤ kept.seqId := by
  cases command with
  | clientOperation op => cases moves
  | configChange config => cases moves
  | shardMigration data =>
      by_cases current : data.configNum = kv.currentConfig.num
      · rw [apply, duplicateTable_of_migration current]
        exact mergeDuplicates_cases _ _ (.inl known)
      · rw [apply, applyShardMigration, if_neg current]
        exact ⟨info, known, Nat.le_refl _⟩
  | shardGC args =>
      obtain ⟨-, -, -, table⟩ := collectShards_frame kv args.shardIds
      have same : (kv.apply (.shardGC args)).1.duplicateTable = kv.duplicateTable := by
        by_cases current : args.configNum = kv.currentConfig.num
        · rw [apply_of_gc current, table]
        · rw [apply, applyShardGC, if_neg current]
      rw [same]
      exact ⟨info, known, Nat.le_refl _⟩

end ShardKV

namespace ShardCluster

variable {cluster : ShardCluster} {gid : Int} {time later : Nat} {shard : Shard}
  {data : ShardOperationReply} {args : ShardOperationArgs}

theorem Legal.migration_in_time (legal : cluster.Legal)
    (applied : cluster.journal[time]? = some (gid, .shardMigration data)) :
    data.configNum ≤ cluster.num gid time := by
  cases legal.proposed time gid _ applied with
  | migration read source sourceRead shardIds earlier sourceEarlier calls reached =>
      rw [ShardKV.getShardsData_of_reached reached]
      exact cluster.num_mono gid earlier

/-- The group that has given a batch away reached the configuration before the receiver
took the batch in. -/
theorem Legal.gc_in_time (legal : cluster.Legal)
    (applied : cluster.journal[time]? = some (gid, .shardGC args)) :
    args.configNum ≤ cluster.num gid time := by
  cases legal.proposed time gid _ applied with
  | gc requester read source shardIds earlier calls addressed =>
      rcases addressed with rfl | rfl
      · exact cluster.num_mono gid earlier
      · have called := calls
        simp only [ShardKV.calls, decide_eq_true_eq] at called
        obtain ⟨shard, named⟩ := List.exists_mem_of_ne_nil _ called.2.1
        obtain ⟨collecting, origin⟩ := ShardKV.mem_getShardByStatus calls named
        have shaped := (legal.shaped requester read shard).incoming (.inr collecting)
        rw [legal.owner_eq, legal.prev_owner_eq, group_gid] at shaped
        rw [legal.prev_owner_eq] at origin
        change cluster.num requester read ≤ cluster.num gid time
        cases here : cluster.num requester read with
        | zero => exact Nat.zero_le _
        | succ number =>
            rw [here, Nat.add_sub_cancel] at shaped origin
            have passed : (cluster.group requester read).Passed (number + 1) shard :=
              .inr ⟨here, by simp [collecting]⟩
            obtain ⟨moment, before, takes⟩ :=
              legal.exists_takes shaped.1 shaped.2.2 shaped.2.1 passed
            obtain ⟨sourceRead, seen, far, -⟩ := legal.takes_from_owner takes
            rw [origin] at far
            exact Nat.le_trans far (cluster.num_mono gid (by omega))

theorem Legal.not_moveIn_after_migration (legal : cluster.Legal)
    (applied : cluster.journal[time]? = some (gid, .shardMigration data))
    (current : data.configNum = cluster.num gid time) (named : shard ∈ data.shardData.map Prod.fst) :
    cluster.status gid (time + 1) shard ≠ .moveIn := by
  obtain ⟨source, batch⟩ := legal.migrates_batch applied current
  obtain ⟨status, uniform⟩ := batch.uniform (legal.together gid time)
  rw [ShardCluster.status, group_succ applied, ShardKV.shards_of_migration current]
  by_cases waiting : status = .moveIn
  · subst waiting
    obtain ⟨⟨_, content⟩, carried, rfl⟩ := List.mem_map.mp named
    rw [ShardKV.migrateShards_of_all _ batch.nodup uniform carried]
    simp
  · rw [ShardKV.migrateShards_of_none _ fun shardId listed =>
      (uniform shardId listed).trans_ne waiting]
    exact (uniform shard named).trans_ne waiting

/-- A GC command never meets a shard that still waits for its data. -/
theorem Legal.not_moveIn_at_gc (legal : cluster.Legal)
    (applied : cluster.journal[time]? = some (gid, .shardGC args))
    (current : args.configNum = cluster.num gid time) (named : shard ∈ args.shardIds) :
    cluster.status gid time shard ≠ .moveIn := by
  cases legal.proposed time gid _ applied with
  | gc requester read source shardIds earlier calls addressed =>
      obtain ⟨collecting, origin⟩ := ShardKV.mem_getShardByStatus calls named
      have same : cluster.num requester read = cluster.num gid time := current
      rcases addressed with rfl | rfl
      · have passed : (cluster.group gid read).Passed (cluster.num gid time) shard :=
          .inr ⟨same, by simp [collecting]⟩
        rcases passed_iff.mp (passed_mono earlier passed) with beyond | ⟨-, status⟩
        · exact absurd beyond (Nat.lt_irrefl _)
        · exact status
      · intro waiting
        have shaped := (legal.shaped gid time shard).incoming (.inl waiting)
        rw [legal.prev_owner_eq, same, ← legal.prev_owner_eq gid] at origin
        rw [origin, group_gid] at shaped
        exact shaped.2.2 rfl

theorem Legal.normal_after_gc (legal : cluster.Legal)
    (applied : cluster.journal[time]? = some (gid, .shardGC args))
    (current : args.configNum = cluster.num gid time) (named : shard ∈ args.shardIds) :
    cluster.status gid (time + 1) shard = .normal := by
  obtain ⟨source, target, -, batch⟩ := legal.collects_batch applied current
  rw [ShardCluster.status, group_succ applied, ShardKV.apply_of_gc current]
  rcases batch.all_or_none (legal.together gid time) with all | none
  · rw [ShardKV.collectShards_of_all _ batch.nodup all named]
    exact MemoryKVStateMachine.collected_status (all shard named)
  · rw [ShardKV.collectShards_of_none _ none]
    have waiting := legal.not_moveIn_at_gc applied current named
    obtain ⟨notGc, notMoveOut⟩ := none shard named
    simp only [ShardCluster.status] at waiting
    cases status : ((cluster.group gid time).shards shard).status <;> simp_all

/-- A group that is still in a configuration has not left it in between. -/
theorem num_between {number : Nat} (reached : number ≤ cluster.num gid time) (after : time < later)
    (still : number = cluster.num gid later) :
    number = cluster.num gid time ∧ number = cluster.num gid (time + 1) := by
  have early : cluster.num gid time ≤ cluster.num gid (time + 1) := cluster.num_mono gid (by omega)
  have late : cluster.num gid (time + 1) ≤ cluster.num gid later := cluster.num_mono gid after
  omega

theorem Legal.migration_again (legal : cluster.Legal)
    (applied : cluster.journal[time]? = some (gid, .shardMigration data)) (after : time < later)
    (current : data.configNum = cluster.num gid later) :
    (cluster.group gid later).migrateShards data.shardData = cluster.group gid later := by
  obtain ⟨here, next⟩ := num_between (legal.migration_in_time applied) after current
  apply ShardKV.migrateShards_of_none
  intro shardId named
  have passed : (cluster.group gid (time + 1)).Passed (cluster.num gid later) shardId :=
    .inr ⟨next.symm.trans current, legal.not_moveIn_after_migration applied here named⟩
  rcases passed_iff.mp (passed_mono after passed) with beyond | ⟨-, status⟩
  · exact absurd beyond (Nat.lt_irrefl _)
  · exact status

theorem Legal.gc_again (legal : cluster.Legal)
    (applied : cluster.journal[time]? = some (gid, .shardGC args)) (after : time < later)
    (current : args.configNum = cluster.num gid later) :
    (cluster.group gid later).collectShards args.shardIds = cluster.group gid later := by
  obtain ⟨here, next⟩ := num_between (legal.gc_in_time applied) after current
  apply ShardKV.collectShards_of_none
  intro shardId named
  have normal := legal.normal_after_gc applied here named
  have still : cluster.status gid later shardId = .normal := by
    rcases advances_or_later cluster gid shardId (show time + 1 ≤ later from after) with
      beyond | ⟨-, advances⟩
    · omega
    · rw [normal] at advances
      exact advances
  simp only [ShardCluster.status] at still
  simp [still]

theorem Legal.shards_again (legal : cluster.Legal) {command : RaftCommand}
    (applied : cluster.journal[time]? = some (gid, command)) (moves : command.movesShards = true)
    (after : time < later) :
    ((cluster.group gid later).apply command).1.shards = (cluster.group gid later).shards := by
  cases command with
  | clientOperation op => cases moves
  | configChange config => cases moves
  | shardMigration data =>
      by_cases current : data.configNum = (cluster.group gid later).currentConfig.num
      · rw [ShardKV.shards_of_migration current, legal.migration_again applied after current]
      · rw [ShardKV.apply, ShardKV.applyShardMigration, if_neg current]
  | shardGC args =>
      by_cases current : args.configNum = (cluster.group gid later).currentConfig.num
      · rw [ShardKV.apply_of_gc current, legal.gc_again applied after current]
      · rw [ShardKV.apply, ShardKV.applyShardGC, if_neg current]

end ShardCluster

/-- A migration or GC command that a group has applied once changes no shard when it is
applied again, at whatever later time, and lowers no number in the duplicate table. -/
theorem repeated_command_harmless {cluster : ShardCluster}
    (reached : shardSystem.Reachable System.anyStep cluster) {gid : Int} {time later : Nat}
    {command : RaftCommand} (applied : cluster.journal[time]? = some (gid, command))
    (moves : command.movesShards = true) (after : time < later) :
    (∀ shard,
      (((cluster.group gid later).apply command).1.shards shard).kv =
        ((cluster.group gid later).shards shard).kv ∧
      (((cluster.group gid later).apply command).1.shards shard).status =
        ((cluster.group gid later).shards shard).status) ∧
    ∀ clientId info, (cluster.group gid later).duplicateTable clientId = some info →
      ∃ kept, ((cluster.group gid later).apply command).1.duplicateTable clientId = some kept ∧
        info.seqId ≤ kept.seqId := by
  have legal := ShardCluster.legal_of_reachable reached
  refine ⟨?_, fun _ _ => ShardKV.table_of_movesShards moves⟩
  intro shard
  rw [legal.shards_again applied moves after]
  exact ⟨rfl, rfl⟩

/-- Group 2 writes to a shard that it has taken in, and the migration comes again. -/
def overwrittenCluster : ShardCluster :=
  shardSystem.after (fun _ _ => true) handedOverCluster
    [.client 2 8 { key := "x", value := "w", opType := .put, clientId := 7, seqId := 1 }]

theorem repeated_command_harmless_resent :
    ((overwrittenCluster.group 2 9).shards (key2shard "x")).kv "x" = some "w" ∧
    ∃ data, overwrittenCluster.journal[5]? = some (2, .shardMigration data) ∧
      (((overwrittenCluster.group 2 9).apply (.shardMigration data)).1.shards (key2shard "x")).kv "x" =
        some "w" := by
  have front : shardSystem.Run System.anyStep .initial handedOverCluster :=
    (System.run_after ShardCluster.keepsGroups _ _).mono fun _ _ _ => trivial
  have back : shardSystem.Run System.anyStep handedOverCluster overwrittenCluster :=
    (System.run_after (fun _ _ => true) _ _).mono fun _ _ _ => trivial
  have written : ((overwrittenCluster.group 2 9).shards (key2shard "x")).kv "x" = some "w" := rfl
  obtain ⟨data, applied⟩ :
      ∃ data, overwrittenCluster.journal[5]? = some (2, .shardMigration data) := ⟨_, rfl⟩
  obtain ⟨unchanged, -⟩ :=
    repeated_command_harmless ⟨.initial, rfl, front.trans back⟩ applied rfl (show 5 < 9 by decide)
  refine ⟨written, data, applied, ?_⟩
  rw [(unchanged _).1]
  exact written

end MultiRaft.Shardkv
