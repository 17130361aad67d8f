import MultiRaft.ShardKV.AtMostOnce

/-!
# Shards that change hands together

All shards that a configuration moves from one group to another form a batch, and at
either group the shards of a batch always have the same status.  A migration or GC
command names exactly one batch, so a loop that stops at the first shard in another
state does all of its work or none.
-/

namespace MultiRaft.Shardkv

open ShardCtrler (Config Shard nShards)

/-- A shard after `applyShardGC` has dealt with it. -/
def MemoryKVStateMachine.collected (mkv : MemoryKVStateMachine) : MemoryKVStateMachine :=
  match mkv.status with
  | .gc => { mkv with status := .normal }
  | .moveOut => .new
  | _ => mkv

theorem MemoryKVStateMachine.collected_status {mkv : MemoryKVStateMachine}
    (waiting : mkv.status = .gc ∨ mkv.status = .moveOut) : mkv.collected.status = .normal := by
  unfold collected
  rcases waiting with collecting | leaving
  · rw [collecting]
  · rw [leaving]
    rfl

namespace ShardKV

variable {kv next : ShardKV} {shard : Shard} {source target : Int} {shardIds : List Shard}

variable {shardData : List (Shard × (String → Option String))}

theorem migrateShards_of_not_mem (kv : ShardKV) (absent : shard ∉ shardData.map Prod.fst) :
    (kv.migrateShards shardData).shards shard = kv.shards shard := by
  rcases migrateShards_shard kv shardData shard with same | ⟨-, content, carried, -⟩
  · exact same
  · exact absurd (List.mem_map_of_mem carried) absent

/-- Where all shards wait for their data, all of them get it. -/
theorem migrateShards_of_all (kv : ShardKV) {content : String → Option String}
    (nodup : (shardData.map Prod.fst).Nodup)
    (waiting : ∀ shardId ∈ shardData.map Prod.fst, (kv.shards shardId).status = .moveIn)
    (carried : (shard, content) ∈ shardData) :
    (kv.migrateShards shardData).shards shard =
      { (kv.shards shard).merge content with status := .gc } := by
  induction shardData generalizing kv with
  | nil => exact absurd carried List.not_mem_nil
  | cons entry rest inductionHypothesis =>
      obtain ⟨shardId, first⟩ := entry
      simp only [List.map_cons, List.nodup_cons, List.forall_mem_cons] at nodup waiting
      rw [migrateShards, if_pos waiting.1]
      have away : ∀ other ∈ rest.map Prod.fst, other ≠ shardId := by
        rintro other listed rfl
        exact nodup.1 listed
      rcases List.mem_cons.mp carried with here | later
      · cases here
        rw [migrateShards_of_not_mem _ nodup.1, setShard_self]
      · have still := setShard_of_ne kv
          { (kv.shards shardId).merge first with status := .gc }
          (away shard (List.mem_map_of_mem later))
        rw [inductionHypothesis _ nodup.2 _ later, still]
        intro other listed
        rw [setShard_of_ne _ _ (away other listed)]
        exact waiting.2 other listed

theorem migrateShards_of_none (kv : ShardKV)
    (none : ∀ shardId ∈ shardData.map Prod.fst, (kv.shards shardId).status ≠ .moveIn) :
    kv.migrateShards shardData = kv := by
  cases shardData with
  | nil => rfl
  | cons entry rest => exact if_neg (none entry.1 List.mem_cons_self)

theorem collectShards_of_not_mem (kv : ShardKV) (absent : shard ∉ shardIds) :
    (kv.collectShards shardIds).shards shard = kv.shards shard := by
  rcases collectShards_shard kv shardIds shard with same | ⟨named, -⟩
  · exact same
  · exact absurd named absent

/-- Where all shards are to be collected, all of them are. -/
theorem collectShards_of_all (kv : ShardKV) (nodup : shardIds.Nodup)
    (waiting : ∀ shardId ∈ shardIds,
      (kv.shards shardId).status = .gc ∨ (kv.shards shardId).status = .moveOut)
    (named : shard ∈ shardIds) :
    (kv.collectShards shardIds).shards shard = (kv.shards shard).collected := by
  induction shardIds generalizing kv with
  | nil => exact absurd named List.not_mem_nil
  | cons shardId rest inductionHypothesis =>
      simp only [List.nodup_cons, List.forall_mem_cons] at nodup waiting
      have step : kv.collectShards (shardId :: rest) =
          (kv.setShard shardId (kv.shards shardId).collected).collectShards rest := by
        unfold MemoryKVStateMachine.collected
        rw [collectShards]
        rcases waiting.1 with collecting | leaving
        · simp only [collecting]
        · simp only [leaving]
      rw [step]
      have away : ∀ other ∈ rest, other ≠ shardId := by
        rintro other listed rfl
        exact nodup.1 listed
      rcases List.mem_cons.mp named with rfl | later
      · rw [collectShards_of_not_mem _ nodup.1, setShard_self]
      · rw [inductionHypothesis _ nodup.2 _ later, setShard_of_ne _ _ (away shard later)]
        intro other listed
        rw [setShard_of_ne _ _ (away other listed)]
        exact waiting.2 other listed

theorem collectShards_of_none (kv : ShardKV)
    (none : ∀ shardId ∈ shardIds,
      (kv.shards shardId).status ≠ .gc ∧ (kv.shards shardId).status ≠ .moveOut) :
    kv.collectShards shardIds = kv := by
  cases shardIds with
  | nil => rfl
  | cons shardId rest =>
      obtain ⟨notGc, notMoveOut⟩ := none shardId List.mem_cons_self
      rw [collectShards]
      split
      · contradiction
      · contradiction
      · rfl

theorem getShardsData_of_reached {args : ShardOperationArgs}
    (reached : args.configNum ≤ kv.currentConfig.num) :
    kv.getShardsData args =
      { err := .ok, configNum := args.configNum
        shardData := args.shardIds.map fun shardId => (shardId, (kv.shards shardId).kv)
        duplicateTable := kv.duplicateTable } :=
  if_neg (Nat.not_lt.mpr reached)

/-- Shards with the same owner before and the same owner now have the same status. -/
def Together (kv : ShardKV) : Prop :=
  ∀ first second, kv.prevConfig.shards first = kv.prevConfig.shards second →
    kv.currentConfig.shards first = kv.currentConfig.shards second →
    (kv.shards first).status = (kv.shards second).status

/-- The ids are those of the shards that go from one group to another. -/
structure Batch (kv : ShardKV) (source target : Int) (shardIds : List Shard) : Prop where
  nodup : shardIds.Nodup
  mem_iff : ∀ shard, shard ∈ shardIds ↔
    kv.prevConfig.shards shard = source ∧ kv.currentConfig.shards shard = target

theorem Batch.uniform (batch : kv.Batch source target shardIds) (together : kv.Together) :
    ∃ status, ∀ shard ∈ shardIds, (kv.shards shard).status = status := by
  cases shardIds with
  | nil => exact ⟨.normal, fun _ named => absurd named List.not_mem_nil⟩
  | cons shardId rest =>
      refine ⟨(kv.shards shardId).status, ?_⟩
      intro shard named
      obtain ⟨prev, current⟩ := (batch.mem_iff shard).mp named
      obtain ⟨headPrev, headCurrent⟩ := (batch.mem_iff shardId).mp List.mem_cons_self
      exact together shard shardId (prev.trans headPrev.symm) (current.trans headCurrent.symm)

/-- The loop of `applyShardGC` deals with a whole batch or with nothing of it. -/
theorem Batch.all_or_none (batch : kv.Batch source target shardIds) (together : kv.Together) :
    (∀ shard ∈ shardIds,
      (kv.shards shard).status = .gc ∨ (kv.shards shard).status = .moveOut) ∨
    ∀ shard ∈ shardIds, (kv.shards shard).status ≠ .gc ∧ (kv.shards shard).status ≠ .moveOut := by
  obtain ⟨status, uniform⟩ := batch.uniform together
  by_cases waiting : status = .gc ∨ status = .moveOut
  · left
    intro shard named
    rw [uniform shard named]
    exact waiting
  · right
    intro shard named
    rw [uniform shard named]
    exact not_or.mp waiting

/-- A batch may get another status as a whole. -/
theorem Together.replace (together : kv.Together) (batch : kv.Batch source target shardIds)
    (status : ShardStatus) (current : next.currentConfig = kv.currentConfig)
    (prev : next.prevConfig = kv.prevConfig)
    (inside : ∀ shard ∈ shardIds, (next.shards shard).status = status)
    (outside : ∀ shard, shard ∉ shardIds → next.shards shard = kv.shards shard) :
    next.Together := by
  intro first second samePrev sameCurrent
  rw [prev] at samePrev
  rw [current] at sameCurrent
  have both : first ∈ shardIds ↔ second ∈ shardIds := by
    rw [batch.mem_iff, batch.mem_iff, samePrev, sameCurrent]
  by_cases named : first ∈ shardIds
  · rw [inside first named, inside second (both.mp named)]
  · rw [outside first named, outside second (both.not.mp named)]
    exact together first second samePrev sameCurrent

/-- The migration and the GC task ask for whole batches. -/
theorem batch_of_calls {status : ShardStatus} (incoming : status = .moveIn ∨ status = .gc)
    (together : kv.Together) (shaped : ∀ shard, kv.Shaped shard)
    (calls : kv.calls status source shardIds = true) : kv.Batch source kv.gid shardIds := by
  have called := calls
  simp only [ShardKV.calls, decide_eq_true_eq] at called
  obtain ⟨-, nonempty, listed⟩ := called
  have owned : ∀ shardId ∈ shardIds, (kv.shards shardId).status = status ∧
      kv.prevConfig.shards shardId = source ∧ kv.currentConfig.shards shardId = kv.gid ∧
      source ≠ 0 := by
    intro shardId named
    obtain ⟨here, prev⟩ := mem_getShardByStatus calls named
    obtain ⟨mine, some_owner, -⟩ := (shaped shardId).incoming (by rw [here]; exact incoming)
    exact ⟨here, prev, mine, prev ▸ some_owner⟩
  constructor
  · exact listed.nodup_iff.mpr ((List.nodup_finRange nShards).filter _)
  · intro shard
    constructor
    · intro named
      exact ⟨(owned shard named).2.1, (owned shard named).2.2.1⟩
    · rintro ⟨prev, mine⟩
      obtain ⟨shardId, named⟩ := List.exists_mem_of_ne_nil _ nonempty
      obtain ⟨here, samePrev, sameMine, some_owner⟩ := owned shardId named
      have same := together shard shardId (prev.trans samePrev.symm) (mine.trans sameMine.symm)
      rw [listed.mem_iff]
      simp only [getShardByStatus, List.mem_filter, decide_eq_true_eq]
      exact ⟨List.mem_finRange shard, same.trans here, prev, some_owner⟩

theorem Reconfigures.together {config : Config} (reconfigures : kv.Reconfigures config next)
    (normal : ∀ shard, (kv.shards shard).status = .normal) : next.Together := by
  intro first second samePrev sameCurrent
  rw [reconfigures.prev] at samePrev
  rw [reconfigures.current] at sameCurrent
  rw [reconfigures.shards, reconfigures.shards]
  dsimp only
  rw [newStatus_of_normal (normal first), newStatus_of_normal (normal second), samePrev,
    sameCurrent]

/-- Only migration and GC commands change a status within a configuration. -/
theorem Stays.together {command : RaftCommand} (stays : kv.Stays command next)
    (noMigration : ∀ data, command ≠ .shardMigration data) (noGC : ∀ args, command ≠ .shardGC args)
    (together : kv.Together) : next.Together := by
  have status : ∀ shard, (next.shards shard).status = (kv.shards shard).status := by
    intro shard
    have step := stays.shards shard
    generalize next.shards shard = mkv at step
    cases step with
    | same => rfl
    | client op mkv is serves here status => exact status
    | migrated data content is => exact absurd is (noMigration data)
    | settled args is => exact absurd is (noGC args)
    | cleared args is => exact absurd is (noGC args)
  intro first second samePrev sameCurrent
  rw [stays.prev] at samePrev
  rw [stays.current] at sameCurrent
  rw [status, status]
  exact together first second samePrev sameCurrent

theorem together_of_migration {data : ShardOperationReply} (together : kv.Together)
    (batch : kv.Batch source target (data.shardData.map Prod.fst)) :
    (kv.migrateShards data.shardData).Together := by
  obtain ⟨status, uniform⟩ := batch.uniform together
  by_cases waiting : status = .moveIn
  · subst waiting
    obtain ⟨-, current, prev⟩ := migrateShards_frame kv data.shardData
    refine together.replace batch .gc current prev ?_ fun _ => migrateShards_of_not_mem kv
    intro shard named
    obtain ⟨⟨_, content⟩, carried, rfl⟩ := List.mem_map.mp named
    rw [migrateShards_of_all kv batch.nodup uniform carried]
  · rw [migrateShards_of_none kv fun shardId named => (uniform shardId named).trans_ne waiting]
    exact together

theorem together_of_collection (together : kv.Together)
    (batch : kv.Batch source target shardIds) : (kv.collectShards shardIds).Together := by
  rcases batch.all_or_none together with all | none
  · obtain ⟨-, current, prev, -⟩ := collectShards_frame kv shardIds
    refine together.replace batch .normal current prev ?_ fun _ => collectShards_of_not_mem kv
    intro shard named
    rw [collectShards_of_all kv batch.nodup all named]
    exact MemoryKVStateMachine.collected_status (all shard named)
  · rw [collectShards_of_none kv none]
    exact together

end ShardKV

namespace ShardCluster

variable {cluster : ShardCluster} {gid : Int} {time read : Nat} {shardIds : List Shard}

/-- Groups in one configuration have the same batches. -/
theorem Legal.batch_congr (legal : cluster.Legal) {other source target : Int}
    (same : cluster.num other read = cluster.num gid time)
    (batch : (cluster.group other read).Batch source target shardIds) :
    (cluster.group gid time).Batch source target shardIds := by
  refine ⟨batch.nodup, ?_⟩
  intro shard
  rw [batch.mem_iff, legal.prev_owner_eq, legal.owner_eq, legal.prev_owner_eq, legal.owner_eq,
    same]

theorem Legal.batch_of_calls (legal : cluster.Legal) {status : ShardStatus} {source : Int}
    (incoming : status = .moveIn ∨ status = .gc) (together : (cluster.group gid read).Together)
    (calls : (cluster.group gid read).calls status source shardIds = true) :
    (cluster.group gid read).Batch source gid shardIds := by
  have batch := ShardKV.batch_of_calls incoming together (legal.shaped gid read) calls
  rw [group_gid] at batch
  exact batch

/-- A migration command for the configuration that a group is in names a batch of it. -/
theorem Legal.batch_of_migration (legal : cluster.Legal)
    (together : ∀ other, ∀ read ≤ time, (cluster.group other read).Together)
    {data : ShardOperationReply}
    (applied : cluster.journal[time]? = some (gid, .shardMigration data))
    (current : data.configNum = cluster.num gid time) :
    ∃ source, (cluster.group gid time).Batch source gid (data.shardData.map Prod.fst) := by
  cases legal.proposed time gid _ applied with
  | migration read source sourceRead shardIds earlier sourceEarlier calls reached =>
      rw [ShardKV.getShardsData_of_reached reached] at current ⊢
      have keys : (shardIds.map fun shardId =>
          (shardId, ((cluster.group source sourceRead).shards shardId).kv)).map Prod.fst =
          shardIds := by
        rw [List.map_map]
        exact List.map_id _
      simp only [request, keys]
      refine ⟨source, legal.batch_congr current ?_⟩
      exact legal.batch_of_calls (.inl rfl) (together gid read earlier) calls

/-- A GC command names a batch that the group has received or given away. -/
theorem Legal.batch_of_gc (legal : cluster.Legal)
    (together : ∀ other, ∀ read ≤ time, (cluster.group other read).Together)
    {args : ShardOperationArgs}
    (applied : cluster.journal[time]? = some (gid, .shardGC args))
    (current : args.configNum = cluster.num gid time) :
    ∃ source target, (gid = target ∨ gid = source) ∧
      (cluster.group gid time).Batch source target args.shardIds := by
  cases legal.proposed time gid _ applied with
  | gc requester read source shardIds earlier calls addressed =>
      refine ⟨source, requester, addressed, legal.batch_congr current ?_⟩
      exact legal.batch_of_calls (.inr rfl) (together requester read earlier) calls

theorem Legal.together_step (legal : cluster.Legal) {command : RaftCommand}
    (together : ∀ other, ∀ read ≤ time, (cluster.group other read).Together)
    (applied : cluster.journal[time]? = some (gid, command)) :
    ((cluster.group gid time).apply command).1.Together := by
  have here := together gid time (Nat.le_refl time)
  cases command with
  | clientOperation op =>
      exact (ShardKV.applyClientOperation_stays _ op).together (by simp) (by simp) here
  | configChange config =>
      rcases ShardKV.apply_cases (cluster.group gid time) (.configChange config) with
        ⟨_, is, reconfigures⟩ | stays
      · cases is
        exact reconfigures.together (legal.idle applied reconfigures)
      · exact stays.together (by simp) (by simp) here
  | shardMigration data =>
      simp only [ShardKV.apply, ShardKV.applyShardMigration]
      split
      · rename_i current
        obtain ⟨source, batch⟩ := legal.batch_of_migration together applied current
        exact ShardKV.together_of_migration here batch
      · exact here
  | shardGC args =>
      simp only [ShardKV.apply, ShardKV.applyShardGC]
      split
      · rename_i current
        obtain ⟨source, target, -, batch⟩ := legal.batch_of_gc together applied current
        exact ShardKV.together_of_collection here batch
      · exact here

/-- Commands name batches because of what groups were like before, so the induction is
over all groups at all earlier times. -/
theorem Legal.together (legal : cluster.Legal) (gid : Int) (time : Nat) :
    (cluster.group gid time).Together := by
  induction time using Nat.strong_induction_on generalizing gid with
  | _ time inductionHypothesis =>
      cases time with
      | zero =>
          intro first second _ _
          rfl
      | succ time =>
          rcases group_succ_cases cluster gid time with still | ⟨command, applied⟩
          · rw [still]
            exact inductionHypothesis time (Nat.lt_succ_self time) gid
          · rw [group_succ applied]
            apply legal.together_step _ applied
            intro other read earlier
            exact inductionHypothesis read (Nat.lt_succ_of_le earlier) other

theorem Legal.migrates_batch (legal : cluster.Legal) {data : ShardOperationReply}
    (applied : cluster.journal[time]? = some (gid, .shardMigration data))
    (current : data.configNum = cluster.num gid time) :
    ∃ source, (cluster.group gid time).Batch source gid (data.shardData.map Prod.fst) :=
  legal.batch_of_migration (fun other read _ => legal.together other read) applied current

theorem Legal.collects_batch (legal : cluster.Legal) {args : ShardOperationArgs}
    (applied : cluster.journal[time]? = some (gid, .shardGC args))
    (current : args.configNum = cluster.num gid time) :
    ∃ source target, (gid = target ∨ gid = source) ∧
      (cluster.group gid time).Batch source target args.shardIds :=
  legal.batch_of_gc (fun other read _ => legal.together other read) applied current

end ShardCluster

end MultiRaft.Shardkv
