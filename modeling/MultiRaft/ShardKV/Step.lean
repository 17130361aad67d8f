import MultiRaft.ShardKV.Cluster

/-!
# What one command does to a group
-/

namespace MultiRaft.Shardkv

open ShardCtrler (Config Shard)
open KVRaft (Op)

namespace ShardKV

@[simp] theorem setShard_self (kv : ShardKV) (shard : Shard) (mkv : MemoryKVStateMachine) :
    (kv.setShard shard mkv).shards shard = mkv := by
  simp [setShard]

@[simp] theorem setShard_of_ne (kv : ShardKV) {shard other : Shard} (mkv : MemoryKVStateMachine)
    (away : other ≠ shard) : (kv.setShard shard mkv).shards other = kv.shards other := by
  simp [setShard, away]

/-- What a command makes of one shard, apart from a change of configuration. -/
inductive ShardStep (kv : ShardKV) (command : RaftCommand) (shard : Shard) :
    MemoryKVStateMachine → Prop
  | same : ShardStep kv command shard (kv.shards shard)
  | client (op : Op) (mkv : MemoryKVStateMachine) (is : command = .clientOperation op)
      (serves : kv.matchGroup op.key = true) (here : key2shard op.key = shard)
      (status : mkv.status = (kv.shards shard).status) : ShardStep kv command shard mkv
  | migrated (data : ShardOperationReply) (content : String → Option String)
      (is : command = .shardMigration data) (current : data.configNum = kv.currentConfig.num)
      (carried : (shard, content) ∈ data.shardData)
      (status : (kv.shards shard).status = .moveIn) :
      ShardStep kv command shard { (kv.shards shard).merge content with status := .gc }
  | settled (args : ShardOperationArgs) (is : command = .shardGC args)
      (current : args.configNum = kv.currentConfig.num) (named : shard ∈ args.shardIds)
      (status : (kv.shards shard).status = .gc) :
      ShardStep kv command shard { kv.shards shard with status := .normal }
  | cleared (args : ShardOperationArgs) (is : command = .shardGC args)
      (current : args.configNum = kv.currentConfig.num) (named : shard ∈ args.shardIds)
      (status : (kv.shards shard).status = .moveOut) : ShardStep kv command shard .new

/-- A group that goes on to the next configuration. -/
structure Reconfigures (kv : ShardKV) (config : Config) (next : ShardKV) : Prop where
  gid : next.gid = kv.gid
  num : config.num = kv.currentConfig.num + 1
  current : next.currentConfig = config
  prev : next.prevConfig = kv.currentConfig
  shards : ∀ shard, next.shards shard =
    { kv.shards shard with status := kv.newStatus config shard }

/-- A group that stays in its configuration. -/
structure Stays (kv : ShardKV) (command : RaftCommand) (next : ShardKV) : Prop where
  gid : next.gid = kv.gid
  current : next.currentConfig = kv.currentConfig
  prev : next.prevConfig = kv.prevConfig
  shards : ∀ shard, kv.ShardStep command shard (next.shards shard)

theorem Stays.refl (kv : ShardKV) (command : RaftCommand) : kv.Stays command kv :=
  ⟨rfl, rfl, rfl, fun _ => .same⟩

theorem applyToStateMachine_stays (kv : ShardKV) {op : Op}
    (serves : kv.matchGroup op.key = true) :
    kv.Stays (.clientOperation op) (kv.applyToStateMachine op (key2shard op.key)).1 := by
  have written : ∀ mkv : MemoryKVStateMachine,
      mkv.status = (kv.shards (key2shard op.key)).status →
      kv.Stays (.clientOperation op) (kv.setShard (key2shard op.key) mkv) := by
    intro mkv status
    refine ⟨rfl, rfl, rfl, fun shard => ?_⟩
    by_cases here : shard = key2shard op.key
    · subst here
      rw [setShard_self]
      exact .client op mkv rfl serves rfl status
    · rw [setShard_of_ne _ _ here]
      exact .same
  unfold applyToStateMachine
  cases op.opType with
  | get => exact .refl kv _
  | put => exact written _ rfl
  | append => exact written _ rfl

theorem applyClientOperation_stays (kv : ShardKV) (op : Op) :
    kv.Stays (.clientOperation op) (kv.applyClientOperation op).1 := by
  unfold applyClientOperation
  split
  · rename_i serves
    split
    · exact .refl kv _
    · have stays := applyToStateMachine_stays kv serves
      dsimp only
      split
      · exact ⟨stays.gid, stays.current, stays.prev, stays.shards⟩
      · exact stays
  · exact .refl kv _

theorem migrateShards_frame (kv : ShardKV) (shardData : List (Shard × (String → Option String))) :
    (kv.migrateShards shardData).gid = kv.gid ∧
      (kv.migrateShards shardData).currentConfig = kv.currentConfig ∧
      (kv.migrateShards shardData).prevConfig = kv.prevConfig := by
  induction shardData generalizing kv with
  | nil => exact ⟨rfl, rfl, rfl⟩
  | cons entry rest inductionHypothesis =>
      unfold migrateShards
      dsimp only
      split
      · exact inductionHypothesis _
      · exact ⟨rfl, rfl, rfl⟩

theorem migrateShards_table (kv : ShardKV) (shardData : List (Shard × (String → Option String))) :
    (kv.migrateShards shardData).duplicateTable = kv.duplicateTable := by
  induction shardData generalizing kv with
  | nil => rfl
  | cons entry rest inductionHypothesis =>
      unfold migrateShards
      dsimp only
      split
      · exact inductionHypothesis _
      · rfl

theorem duplicateTable_of_migration {kv : ShardKV} {data : ShardOperationReply}
    (current : data.configNum = kv.currentConfig.num) :
    (kv.applyShardMigration data).1.duplicateTable =
      mergeDuplicates kv.duplicateTable data.duplicateTable := by
  rw [applyShardMigration, if_pos current]
  dsimp only
  rw [migrateShards_table]

/-- The loop takes a shard in once, with the first data it meets for it. -/
theorem migrateShards_shard (kv : ShardKV) (shardData : List (Shard × (String → Option String)))
    (shard : Shard) :
    (kv.migrateShards shardData).shards shard = kv.shards shard ∨
      ((kv.shards shard).status = .moveIn ∧ ∃ content, (shard, content) ∈ shardData ∧
        (kv.migrateShards shardData).shards shard =
          { (kv.shards shard).merge content with status := .gc }) := by
  induction shardData generalizing kv with
  | nil => exact .inl rfl
  | cons entry rest inductionHypothesis =>
      obtain ⟨shardId, content⟩ := entry
      unfold migrateShards
      dsimp only
      split
      · rename_i moving
        rcases inductionHypothesis (kv.setShard shardId
          { (kv.shards shardId).merge content with status := .gc }) with same | ⟨status, taken⟩
        · rw [same]
          by_cases here : shard = shardId
          · subst here
            exact .inr ⟨moving, content, List.mem_cons_self, setShard_self _ _ _⟩
          · exact .inl (setShard_of_ne _ _ here)
        · by_cases here : shard = shardId
          · subst here
            simp at status
          · rw [setShard_of_ne _ _ here] at status taken
            obtain ⟨later, carried, result⟩ := taken
            exact .inr ⟨status, later, List.mem_cons_of_mem _ carried, result⟩
      · exact .inl rfl

theorem collectShards_frame (kv : ShardKV) (shardIds : List Shard) :
    (kv.collectShards shardIds).gid = kv.gid ∧
      (kv.collectShards shardIds).currentConfig = kv.currentConfig ∧
      (kv.collectShards shardIds).prevConfig = kv.prevConfig ∧
      (kv.collectShards shardIds).duplicateTable = kv.duplicateTable := by
  induction shardIds generalizing kv with
  | nil => exact ⟨rfl, rfl, rfl, rfl⟩
  | cons shardId rest inductionHypothesis =>
      unfold collectShards
      dsimp only
      split
      · exact inductionHypothesis _
      · exact inductionHypothesis _
      · exact ⟨rfl, rfl, rfl, rfl⟩

theorem collectShards_of_normal (kv : ShardKV) (shardIds : List Shard) {shard : Shard}
    (normal : (kv.shards shard).status = .normal) :
    (kv.collectShards shardIds).shards shard = kv.shards shard := by
  induction shardIds generalizing kv with
  | nil => rfl
  | cons shardId rest inductionHypothesis =>
      unfold collectShards
      dsimp only
      split
      all_goals
        rename_i status
        try rfl
      all_goals
        have away : shard ≠ shardId := by
          rintro rfl
          simp [normal] at status
        rw [inductionHypothesis, setShard_of_ne _ _ away]
        rw [setShard_of_ne _ _ away]
        exact normal

/-- The loop deals with a shard once: it is Normal afterwards. -/
theorem collectShards_shard (kv : ShardKV) (shardIds : List Shard) (shard : Shard) :
    (kv.collectShards shardIds).shards shard = kv.shards shard ∨
      (shard ∈ shardIds ∧ (((kv.shards shard).status = .gc ∧
        (kv.collectShards shardIds).shards shard = { kv.shards shard with status := .normal }) ∨
      ((kv.shards shard).status = .moveOut ∧
        (kv.collectShards shardIds).shards shard = .new))) := by
  induction shardIds generalizing kv with
  | nil => exact .inl rfl
  | cons shardId rest inductionHypothesis =>
      -- another shard is dealt with in the rest of the loop
      have elsewhere : ∀ mkv, shard ≠ shardId →
          ((kv.setShard shardId mkv).collectShards rest).shards shard = kv.shards shard ∨
          (shard ∈ shardId :: rest ∧ (((kv.shards shard).status = .gc ∧
            ((kv.setShard shardId mkv).collectShards rest).shards shard =
              { kv.shards shard with status := .normal }) ∨
          ((kv.shards shard).status = .moveOut ∧
            ((kv.setShard shardId mkv).collectShards rest).shards shard = .new))) := by
        intro mkv away
        have later := inductionHypothesis (kv.setShard shardId mkv)
        rw [setShard_of_ne _ _ away] at later
        exact later.imp_right fun ⟨named, result⟩ => ⟨List.mem_cons_of_mem _ named, result⟩
      by_cases here : shard = shardId
      · subst here
        unfold collectShards
        dsimp only
        split
        · rename_i status
          rw [collectShards_of_normal _ _ (by simp), setShard_self]
          exact .inr ⟨List.mem_cons_self, .inl ⟨status, rfl⟩⟩
        · rename_i status
          rw [collectShards_of_normal _ _ (by simp [MemoryKVStateMachine.new]), setShard_self]
          exact .inr ⟨List.mem_cons_self, .inr ⟨status, rfl⟩⟩
        · exact .inl rfl
      · unfold collectShards
        dsimp only
        split
        · exact elsewhere _ here
        · exact elsewhere _ here
        · exact .inl rfl

theorem applyShardMigration_stays (kv : ShardKV) (data : ShardOperationReply) :
    kv.Stays (.shardMigration data) (kv.applyShardMigration data).1 := by
  unfold applyShardMigration
  dsimp only
  split
  · rename_i current
    obtain ⟨sameGid, sameCurrent, samePrev⟩ := migrateShards_frame kv data.shardData
    refine ⟨sameGid, sameCurrent, samePrev, fun shard => ?_⟩
    rcases migrateShards_shard kv data.shardData shard with same | ⟨status, content, carried, taken⟩
    · rw [same]
      exact .same
    · rw [taken]
      exact .migrated data content rfl current carried status
  · exact .refl kv _

theorem applyShardGC_stays (kv : ShardKV) (args : ShardOperationArgs) :
    kv.Stays (.shardGC args) (kv.applyShardGC args).1 := by
  unfold applyShardGC
  dsimp only
  split
  · rename_i current
    obtain ⟨sameGid, sameCurrent, samePrev, -⟩ := collectShards_frame kv args.shardIds
    refine ⟨sameGid, sameCurrent, samePrev, fun shard => ?_⟩
    rcases collectShards_shard kv args.shardIds shard with
      same | ⟨named, ⟨status, settled⟩ | ⟨status, cleared⟩⟩
    · rw [same]
      exact .same
    · rw [settled]
      exact .settled args rfl current named status
    · rw [cleared]
      exact .cleared args rfl current named status
  · exact .refl kv _

/-- A command moves the group to the next configuration, or changes single shards. -/
theorem apply_cases (kv : ShardKV) (command : RaftCommand) :
    (∃ config, command = .configChange config ∧ kv.Reconfigures config (kv.apply command).1) ∨
      kv.Stays command (kv.apply command).1 := by
  cases command with
  | clientOperation op => exact .inr (applyClientOperation_stays kv op)
  | configChange config =>
      simp only [apply, applyNewConfig]
      split
      · rename_i follows
        exact .inl ⟨config, rfl, rfl, follows.symm, rfl, rfl, fun _ => rfl⟩
      · exact .inr (.refl kv _)
  | shardMigration data => exact .inr (applyShardMigration_stays kv data)
  | shardGC args => exact .inr (applyShardGC_stays kv args)

theorem apply_gid (kv : ShardKV) (command : RaftCommand) :
    (kv.apply command).1.gid = kv.gid := by
  rcases apply_cases kv command with ⟨config, -, reconfigures⟩ | stays
  · exact reconfigures.gid
  · exact stays.gid

end ShardKV

end MultiRaft.Shardkv
