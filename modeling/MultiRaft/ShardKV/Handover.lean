import MultiRaft.ShardKV.Timeline
import Mathlib.Data.Nat.Find

/-!
# The hand-over of a shard

A shard that goes from one group to another is taken in from a group that has
reached the configuration, and is cleared there only after that.  So the groups that
own a shard one after the other also have it one after the other.
-/

namespace MultiRaft.Shardkv

open ShardCtrler (Config Shard)

namespace ShardKV

theorem mem_getShardByStatus {kv : ShardKV} {status : ShardStatus} {gid : Int} {shard : Shard}
    {shardIds : List Shard} (calls : kv.calls status gid shardIds = true)
    (named : shard ∈ shardIds) :
    (kv.shards shard).status = status ∧ kv.prevConfig.shards shard = gid := by
  simp only [ShardKV.calls, decide_eq_true_eq] at calls
  have listed := calls.2.2.mem_iff.mp named
  simp only [getShardByStatus, List.mem_filter, decide_eq_true_eq] at listed
  exact ⟨listed.2.1, listed.2.2.1⟩

/-- `GetShardsData` sends the shard as it is. -/
theorem content_of_getShardsData {kv : ShardKV} {args : ShardOperationArgs} {shard : Shard}
    {content : String → Option String}
    (carried : (shard, content) ∈ (kv.getShardsData args).shardData) :
    (kv.getShardsData args).configNum = args.configNum ∧ shard ∈ args.shardIds ∧
      content = (kv.shards shard).kv := by
  unfold getShardsData at carried ⊢
  split at carried
  · simp at carried
  · rename_i reached
    simp only [List.mem_map, Prod.mk.injEq] at carried
    obtain ⟨shardId, named, rfl, rfl⟩ := carried
    exact ⟨by rw [if_neg reached], named, rfl⟩

theorem table_of_getShardsData {kv : ShardKV} {args : ShardOperationArgs}
    {entry : Shard × (String → Option String)}
    (carried : entry ∈ (kv.getShardsData args).shardData) :
    (kv.getShardsData args).duplicateTable = kv.duplicateTable := by
  unfold getShardsData at carried ⊢
  split at carried
  · simp at carried
  · rename_i reached
    rw [if_neg reached]

variable {kv : ShardKV} {command : RaftCommand} {shard : Shard} {mkv : MemoryKVStateMachine}

/-- Only a migration ends MoveIn. -/
theorem ShardStep.migrated_of_moveIn (step : kv.ShardStep command shard mkv)
    (before : (kv.shards shard).status = .moveIn) (after : mkv.status ≠ .moveIn) :
    ∃ data content, command = .shardMigration data ∧ data.configNum = kv.currentConfig.num ∧
      (shard, content) ∈ data.shardData ∧
      mkv = { (kv.shards shard).merge content with status := .gc } := by
  cases step with
  | same => exact absurd before after
  | client op mkv is serves here status => exact absurd (status.trans before) after
  | migrated data content is current carried status =>
      exact ⟨data, content, is, current, carried, rfl⟩
  | settled args is current named status => simp [before] at status
  | cleared args is current named status => simp [before] at status

/-- Only a GC command ends MoveOut. -/
theorem ShardStep.cleared_of_moveOut (step : kv.ShardStep command shard mkv)
    (before : (kv.shards shard).status = .moveOut) (after : mkv.status ≠ .moveOut) :
    ∃ args, command = .shardGC args ∧ args.configNum = kv.currentConfig.num ∧
      shard ∈ args.shardIds ∧ mkv = .new := by
  cases step with
  | same => exact absurd before after
  | client op mkv is serves here status => exact absurd (status.trans before) after
  | migrated data content is current carried status => simp [before] at status
  | settled args is current named status => simp [before] at status
  | cleared args is current named status => exact ⟨args, is, current, named, rfl⟩

end ShardKV

namespace ShardCluster

variable {cluster : ShardCluster} {gid : Int} {time : Nat} {shard : Shard} {number : Nat}

/-- A group takes a shard in: a migration command of the configuration turns it from
MoveIn to GC. -/
structure Takes (cluster : ShardCluster) (time : Nat) (gid : Int) (number : Nat)
    (shard : Shard) : Prop where
  applied : ∃ data, cluster.journal[time]? = some (gid, .shardMigration data)
  num : cluster.num gid time = number
  before : cluster.status gid time shard = .moveIn
  after : cluster.status gid (time + 1) shard = .gc

/-- A group clears its copy of a shard that it has given away. -/
structure Clears (cluster : ShardCluster) (time : Nat) (gid : Int) (number : Nat)
    (shard : Shard) : Prop where
  num : cluster.num gid time = number
  before : cluster.status gid time shard = .moveOut
  after : cluster.status gid (time + 1) shard ≠ .moveOut

/-- The data that a group takes in, and the duplicate table with them, are those of the
previous owner at a time when it has reached the configuration. -/
theorem Legal.takes_from_owner (legal : cluster.Legal)
    (takes : cluster.Takes time gid (number + 1) shard) :
    ∃ read ≤ time, number + 1 ≤ cluster.num (cluster.owner number shard) read ∧
      ((cluster.group gid (time + 1)).shards shard).kv =
        (((cluster.group gid time).shards shard).merge
          ((cluster.group (cluster.owner number shard) read).shards shard).kv).kv ∧
      (cluster.group gid (time + 1)).duplicateTable =
        ShardKV.mergeDuplicates (cluster.group gid time).duplicateTable
          (cluster.group (cluster.owner number shard) read).duplicateTable := by
  obtain ⟨data, applied⟩ := takes.applied
  have after := takes.after
  simp only [ShardCluster.status, group_succ applied] at after
  rcases ShardKV.apply_cases (cluster.group gid time) (.shardMigration data) with
    ⟨config, is, -⟩ | stays
  · cases is
  obtain ⟨_, content, is, current, carried, result⟩ :=
    (stays.shards shard).migrated_of_moveIn takes.before (by simp [after])
  cases is
  have table := ShardKV.duplicateTable_of_migration current
  rw [group_succ applied, result, ShardKV.apply, table]
  cases legal.proposed time gid _ applied with
  | migration read source sourceRead shardIds earlier sourceEarlier calls reached =>
      obtain ⟨asked, named, rfl⟩ := ShardKV.content_of_getShardsData carried
      obtain ⟨-, origin⟩ := ShardKV.mem_getShardByStatus calls named
      -- the call was made in the same configuration, so it went to the previous owner
      have same : cluster.num gid read = number + 1 :=
        (asked.symm.trans current).trans takes.num
      rw [legal.prev_owner_eq, same, Nat.add_sub_cancel] at origin
      subst origin
      refine ⟨sourceRead, sourceEarlier, same ▸ reached, rfl, ?_⟩
      rw [ShardKV.table_of_getShardsData carried]

/-- A group that has a shard which another group had before has taken it in. -/
theorem Legal.exists_takes (legal : cluster.Legal)
    (mine : cluster.owner (number + 1) shard = gid) (other : cluster.owner number shard ≠ gid)
    (owned : cluster.owner number shard ≠ 0)
    (passed : (cluster.group gid time).Passed (number + 1) shard) :
    ∃ moment < time, cluster.Takes moment gid (number + 1) shard := by
  have before : ¬ (cluster.group gid 0).Passed (number + 1) shard := by
    simp [ShardKV.Passed, ShardCluster.group, ShardKV.startServer, ShardCtrler.defaultConfig]
  obtain ⟨moment, command, early, applied, lacks, comes⟩ :=
    group_change (fun kv => kv.Passed (number + 1) shard) before passed
  refine ⟨moment, early, ?_⟩
  rcases ShardKV.apply_cases (cluster.group gid moment) command with
    ⟨config, rfl, reconfigures⟩ | stays
  · -- the configuration begins with MoveIn, and ends only with all shards Normal
    have idle := legal.idle applied reconfigures shard
    obtain ⟨next, begins⟩ := legal.begins applied reconfigures shard
    rw [← group_succ applied, passed_iff] at comes
    rw [passed_iff] at lacks
    have last : cluster.num gid moment = number := by grind
    grind
  · rw [ShardKV.Passed, stays.current] at comes
    have moving : (cluster.group gid moment).currentConfig.num = number + 1 ∧
        ((cluster.group gid moment).shards shard).status = .moveIn := by
      simp only [ShardKV.Passed] at lacks
      grind
    have done : (((cluster.group gid moment).apply command).1.shards shard).status ≠ .moveIn := by
      rcases comes with beyond | ⟨-, status⟩
      · omega
      · exact status
    obtain ⟨data, content, rfl, -, -, result⟩ :=
      (stays.shards shard).migrated_of_moveIn moving.2 done
    refine ⟨⟨data, applied⟩, moving.1, moving.2, ?_⟩
    rw [ShardCluster.status, group_succ applied, result]

/-- A group clears a shard only once the next owner has it. -/
theorem Legal.passed_of_clears (legal : cluster.Legal)
    (clears : cluster.Clears time gid number shard) :
    (cluster.group (cluster.owner number shard) time).Passed number shard := by
  have after := clears.after
  rcases group_succ_cases cluster gid time with still | ⟨command, applied⟩
  · refine absurd ?_ after
    rw [ShardCluster.status, still]
    exact clears.before
  simp only [ShardCluster.status, group_succ applied] at after
  rcases ShardKV.apply_cases (cluster.group gid time) command with
    ⟨config, rfl, reconfigures⟩ | stays
  · have idle := legal.idle applied reconfigures shard
    rw [clears.before] at idle
    cases idle
  obtain ⟨args, rfl, current, named, -⟩ :=
    (stays.shards shard).cleared_of_moveOut clears.before after
  cases legal.proposed time gid _ applied with
  | gc requester read source shardIds earlier calls addressed =>
      obtain ⟨collecting, -⟩ := ShardKV.mem_getShardByStatus calls named
      have same : cluster.num requester read = number := current.trans clears.num
      have owns := ((legal.shaped requester read shard).incoming (.inr collecting)).1
      rw [legal.owner_eq, same, group_gid] at owns
      subst owns
      apply passed_mono earlier
      exact .inr ⟨same, by simp [collecting]⟩

/-- A group that has given a shard away has done so after the next owner had it. -/
theorem Legal.passed_of_released (legal : cluster.Legal)
    (mine : cluster.owner number shard = gid) (other : cluster.owner (number + 1) shard ≠ gid)
    (owned : cluster.owner (number + 1) shard ≠ 0)
    (released : (cluster.group gid time).Released (number + 1) shard) :
    (cluster.group (cluster.owner (number + 1) shard) time).Passed (number + 1) shard := by
  have before : ¬ (cluster.group gid 0).Released (number + 1) shard := by
    simp [ShardKV.Released, ShardCluster.group, ShardKV.startServer, ShardCtrler.defaultConfig]
  obtain ⟨moment, command, early, applied, lacks, comes⟩ :=
    group_change (fun kv => kv.Released (number + 1) shard) before released
  rcases ShardKV.apply_cases (cluster.group gid moment) command with
    ⟨config, rfl, reconfigures⟩ | stays
  · -- the configuration begins with MoveOut, and ends only with all shards Normal
    have idle := legal.idle applied reconfigures shard
    obtain ⟨next, begins⟩ := legal.begins applied reconfigures shard
    rw [← group_succ applied, released_iff] at comes
    rw [released_iff] at lacks
    have last : cluster.num gid moment = number := by grind
    grind
  · rw [ShardKV.Released, stays.current] at comes
    have leaving : (cluster.group gid moment).currentConfig.num = number + 1 ∧
        ((cluster.group gid moment).shards shard).status = .moveOut := by
      simp only [ShardKV.Released] at lacks
      grind
    have clears : cluster.Clears moment gid (number + 1) shard := by
      refine ⟨leaving.1, leaving.2, ?_⟩
      rw [ShardCluster.status, group_succ applied]
      rcases comes with beyond | ⟨-, status⟩
      · omega
      · exact status
    exact passed_mono (Nat.le_of_lt early) (legal.passed_of_clears clears)

/-- A shard that comes from group 0 goes to the group that had it last. -/
def Homing (cluster : ShardCluster) : Prop :=
  ∀ number shard last, last < number → cluster.owner number shard = 0 →
    0 < cluster.owner (number + 1) shard → 0 < cluster.owner last shard →
    (∀ between, last < between → between ≤ number → cluster.owner between shard ≤ 0) →
    cluster.owner last shard = cluster.owner (number + 1) shard

/-- Once a group has a shard in some configuration, all earlier owners have gone on. -/
theorem Legal.owners_past (legal : cluster.Legal) (homing : cluster.Homing)
    {earlier : Nat} (holder : 0 < cluster.owner number shard)
    (passed : (cluster.group (cluster.owner number shard) time).Passed number shard)
    (before : earlier < number) (owned : 0 < cluster.owner earlier shard) :
    earlier < cluster.num (cluster.owner earlier shard) time := by
  induction number using Nat.strong_induction_on generalizing earlier with
  | _ number inductionHypothesis =>
      obtain ⟨previous, rfl⟩ : ∃ previous, number = previous + 1 := ⟨number - 1, by omega⟩
      have reached : previous + 1 ≤ cluster.num (cluster.owner (previous + 1) shard) time := by
        rcases passed with beyond | ⟨here, -⟩
        · exact Nat.le_of_lt beyond
        · exact Nat.le_of_eq here.symm
      -- a positive owner that has gone on beyond its configuration leads further back
      have back : ∀ last, last ≤ previous → earlier ≤ last → 0 < cluster.owner last shard →
          last < cluster.num (cluster.owner last shard) time →
          earlier < cluster.num (cluster.owner earlier shard) time := by
        intro last bound after positive beyond
        rcases Nat.eq_or_lt_of_le after with rfl | strictly
        · exact beyond
        · exact inductionHypothesis last (by omega) positive (.inl beyond) strictly owned
      rcases lt_trichotomy (cluster.owner previous shard) 0 with negative | zero | positive
      · -- a group without servers never hands a shard over
        obtain ⟨moment, -, takes⟩ := legal.exists_takes rfl (by omega) (by omega) passed
        obtain ⟨read, -, far, -⟩ := legal.takes_from_owner takes
        rw [legal.num_of_nonpos (by omega)] at far
        omega
      · -- the last positive owner before the gap is the owner after it
        obtain ⟨last, bound, after, positive, gap⟩ :
            ∃ last ≤ previous, earlier ≤ last ∧ 0 < cluster.owner last shard ∧
              ∀ between, last < between → between ≤ previous →
                cluster.owner between shard ≤ 0 := by
          let positive := fun index => 0 < cluster.owner index shard
          have inside : earlier ≤ previous := Nat.le_of_lt_succ before
          have found : positive (Nat.findGreatest positive previous) :=
            Nat.findGreatest_spec inside owned
          refine ⟨Nat.findGreatest positive previous, Nat.findGreatest_le _,
            Nat.le_findGreatest inside owned, found, ?_⟩
          intro between after bound
          exact Int.not_lt.mp (Nat.findGreatest_is_greatest after bound)
        have strictly : last < previous := by
          rcases Nat.eq_or_lt_of_le bound with rfl | strictly
          · omega
          · exact strictly
        have home := homing previous shard last strictly zero holder positive gap
        exact back last bound after positive (by rw [home]; omega)
      · by_cases same : cluster.owner previous shard = cluster.owner (previous + 1) shard
        · exact back previous (Nat.le_refl _) (by omega) positive (by rw [same]; omega)
        · obtain ⟨moment, early, takes⟩ := legal.exists_takes rfl same (by omega) passed
          obtain ⟨read, seen, far, -⟩ := legal.takes_from_owner takes
          have later := cluster.num_mono (cluster.owner previous shard)
            (show read ≤ time by omega)
          exact back previous (Nat.le_refl _) (by omega) positive (by omega)

end ShardCluster

end MultiRaft.Shardkv
