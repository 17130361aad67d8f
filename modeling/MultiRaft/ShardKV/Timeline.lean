import MultiRaft.ShardKV.Proposals

/-!
# A group through its configurations

A group goes through the configurations one by one, each time with all shards
Normal, and within one configuration the status of a shard only moves on: from
MoveIn over GC to Normal, or from MoveOut to Normal.
-/

namespace MultiRaft.Shardkv

open ShardCtrler (Config Shard defaultConfig)

/-- How the status of a shard moves within one configuration. -/
def ShardStatus.Advances : ShardStatus → ShardStatus → Prop
  | .moveIn, status => status ≠ .moveOut
  | .gc, status => status = .gc ∨ status = .normal
  | .moveOut, status => status = .moveOut ∨ status = .normal
  | .normal, status => status = .normal

theorem ShardStatus.Advances.refl (status : ShardStatus) : status.Advances status := by
  cases status <;> simp [ShardStatus.Advances]

theorem ShardStatus.Advances.trans {first middle last : ShardStatus}
    (front : first.Advances middle) (back : middle.Advances last) : first.Advances last := by
  cases first <;> cases middle <;> cases last <;> simp_all [ShardStatus.Advances]

namespace ShardKV

variable {kv next : ShardKV} {command : RaftCommand} {config : Config} {shard : Shard}
  {number : Nat}

theorem ShardStep.advances {mkv : MemoryKVStateMachine} (step : kv.ShardStep command shard mkv) :
    (kv.shards shard).status.Advances mkv.status := by
  cases step with
  | same => exact .refl _
  | client op mkv is serves here status =>
      rw [status]
      exact .refl _
  | migrated data content is current carried status => simp [status, ShardStatus.Advances]
  | settled args is current named status => simp [status, ShardStatus.Advances]
  | cleared args is current named status =>
      simp [status, ShardStatus.Advances, MemoryKVStateMachine.new]

/-- What a new configuration makes of a shard at rest. -/
theorem newStatus_of_normal (normal : (kv.shards shard).status = .normal) :
    kv.newStatus config shard =
      if kv.currentConfig.shards shard ≠ kv.gid ∧ config.shards shard = kv.gid ∧
          kv.currentConfig.shards shard ≠ 0 then .moveIn
      else if kv.currentConfig.shards shard = kv.gid ∧ config.shards shard ≠ kv.gid ∧
          config.shards shard ≠ 0 then .moveOut
      else .normal := by
  unfold newStatus
  rw [normal]
  grind

/-- A status that is not Normal tells where the shard comes from or goes to. -/
structure Shaped (kv : ShardKV) (shard : Shard) : Prop where
  incoming : (kv.shards shard).status = .moveIn ∨ (kv.shards shard).status = .gc →
    kv.currentConfig.shards shard = kv.gid ∧ kv.prevConfig.shards shard ≠ 0 ∧
      kv.prevConfig.shards shard ≠ kv.gid
  outgoing : (kv.shards shard).status = .moveOut →
    kv.prevConfig.shards shard = kv.gid ∧ kv.currentConfig.shards shard ≠ 0 ∧
      kv.currentConfig.shards shard ≠ kv.gid

theorem Reconfigures.shaped (reconfigures : kv.Reconfigures config next)
    (normal : (kv.shards shard).status = .normal) : next.Shaped shard := by
  have status : (next.shards shard).status = kv.newStatus config shard := by
    rw [reconfigures.shards]
  rw [newStatus_of_normal normal] at status
  constructor
  · rw [status, reconfigures.current, reconfigures.prev, reconfigures.gid]
    grind
  · rw [status, reconfigures.current, reconfigures.prev, reconfigures.gid]
    grind

theorem Stays.shaped (stays : kv.Stays command next) (shaped : kv.Shaped shard) :
    next.Shaped shard := by
  have advances := (stays.shards shard).advances
  constructor
  · rw [stays.current, stays.prev, stays.gid]
    intro incoming
    apply shaped.incoming
    cases before : (kv.shards shard).status <;> rw [before] at advances <;>
      rcases incoming with now | now <;> rw [now] at advances <;>
      simp_all [ShardStatus.Advances]
  · rw [stays.current, stays.prev, stays.gid]
    intro outgoing
    apply shaped.outgoing
    cases before : (kv.shards shard).status <;> rw [before, outgoing] at advances <;>
      simp_all [ShardStatus.Advances]

/-- The group has the shard of this configuration, or is past the configuration. -/
def Passed (kv : ShardKV) (number : Nat) (shard : Shard) : Prop :=
  number < kv.currentConfig.num ∨
    (kv.currentConfig.num = number ∧ (kv.shards shard).status ≠ .moveIn)

/-- The group has given the shard of this configuration away, or is past the
configuration. -/
def Released (kv : ShardKV) (number : Nat) (shard : Shard) : Prop :=
  number < kv.currentConfig.num ∨
    (kv.currentConfig.num = number ∧ (kv.shards shard).status ≠ .moveOut)

end ShardKV

namespace ShardCluster

variable {cluster : ShardCluster} {gid : Int} {time first last : Nat} {shard : Shard}
  {number : Nat}

/-- The rule for what the commands of a group preserve. -/
theorem group_preserves (holds : ShardKV → Prop) (ordered : first ≤ last)
    (start : holds (cluster.group gid first))
    (step : ∀ time command, first ≤ time → time < last →
      cluster.journal[time]? = some (gid, command) → holds (cluster.group gid time) →
      holds ((cluster.group gid time).apply command).1) :
    holds (cluster.group gid last) :=
  Journal.stateAt_preserves holds ordered start step

theorem group_succ {command : RaftCommand}
    (applied : cluster.journal[time]? = some (gid, command)) :
    cluster.group gid (time + 1) = ((cluster.group gid time).apply command).1 :=
  Journal.stateAt_succ_self applied

theorem group_succ_cases (cluster : ShardCluster) (gid : Int) (time : Nat) :
    cluster.group gid (time + 1) = cluster.group gid time ∨
      ∃ command, cluster.journal[time]? = some (gid, command) :=
  (Journal.stateAt_succ cluster.journal gid time).imp_right fun ⟨command, applied, _⟩ =>
    ⟨command, applied⟩

/-- The moment at which something comes to hold of a group. -/
theorem group_change (holds : ShardKV → Prop) (before : ¬ holds (cluster.group gid 0))
    (after : holds (cluster.group gid last)) :
    ∃ time command, time < last ∧ cluster.journal[time]? = some (gid, command) ∧
      ¬ holds (cluster.group gid time) ∧ holds ((cluster.group gid time).apply command).1 := by
  obtain ⟨time, command, -, early, applied, lacks, comes⟩ :=
    Journal.exists_change holds (Nat.zero_le last) before after
  exact ⟨time, command, early, applied, lacks, comes⟩

theorem group_gid (cluster : ShardCluster) (gid : Int) (time : Nat) :
    (cluster.group gid time).gid = gid := by
  apply group_preserves (fun kv => kv.gid = gid) (Nat.zero_le time) rfl
  intro time command _ _ _ same
  exact (ShardKV.apply_gid _ command).trans same

theorem Legal.config_eq (legal : cluster.Legal) {config : Config}
    (found : cluster.ctrler.configs[number]? = some config) :
    config.num = number ∧ cluster.config number = config :=
  ⟨legal.numbered number config found, by simp [ShardCluster.config, found]⟩

theorem Legal.fetched (legal : cluster.Legal) {config : Config}
    (applied : cluster.journal[time]? = some (gid, .configChange config)) :
    ∃ read ≤ time, (∀ shard, cluster.status gid read shard = .normal) ∧
      cluster.ctrler.configs[cluster.num gid read + 1]? = some config := by
  cases legal.proposed time gid _ applied with
  | config read _ earlier idle found =>
      simp only [ShardKV.needFetch, decide_eq_true_eq] at idle
      exact ⟨read, earlier, idle, found⟩

/-- The configuration of a group is the controller's of that number, and its
previous one the controller's before. -/
theorem Legal.configs (legal : cluster.Legal) (gid : Int) (time : Nat) :
    (cluster.group gid time).currentConfig = cluster.config (cluster.num gid time) ∧
      (cluster.group gid time).prevConfig = cluster.config (cluster.num gid time - 1) := by
  have start : cluster.config 0 = defaultConfig := (legal.config_eq legal.first).2
  apply group_preserves (fun kv => kv.currentConfig = cluster.config kv.currentConfig.num ∧
    kv.prevConfig = cluster.config (kv.currentConfig.num - 1)) (Nat.zero_le time)
  · exact ⟨start.symm, start.symm⟩
  · intro time command _ _ applied same
    rcases ShardKV.apply_cases (cluster.group gid time) command with
      ⟨config, rfl, reconfigures⟩ | stays
    · obtain ⟨read, -, -, found⟩ := legal.fetched applied
      obtain ⟨numbered, here⟩ := legal.config_eq found
      rw [reconfigures.current, reconfigures.prev]
      constructor
      · rw [numbered, here]
      · rw [reconfigures.num, Nat.add_sub_cancel]
        exact same.1
    · rw [stays.current, stays.prev]
      exact same

theorem Legal.owner_eq (legal : cluster.Legal) (gid : Int) (time : Nat) (shard : Shard) :
    (cluster.group gid time).currentConfig.shards shard =
      cluster.owner (cluster.num gid time) shard := by
  rw [(legal.configs gid time).1]
  rfl

theorem Legal.prev_owner_eq (legal : cluster.Legal) (gid : Int) (time : Nat) (shard : Shard) :
    (cluster.group gid time).prevConfig.shards shard =
      cluster.owner (cluster.num gid time - 1) shard := by
  rw [(legal.configs gid time).2]
  rfl

/-- Within one configuration the status of a shard moves on; in a later one nothing
is said. -/
theorem advances_or_later (cluster : ShardCluster) (gid : Int) (shard : Shard)
    (ordered : first ≤ last) :
    cluster.num gid first < cluster.num gid last ∨
      (cluster.num gid last = cluster.num gid first ∧
        (cluster.status gid first shard).Advances (cluster.status gid last shard)) := by
  apply group_preserves (fun kv => cluster.num gid first < kv.currentConfig.num ∨
    (kv.currentConfig.num = cluster.num gid first ∧
      (cluster.status gid first shard).Advances (kv.shards shard).status)) ordered
  · exact .inr ⟨rfl, .refl _⟩
  · intro time command _ _ _ before
    rcases ShardKV.apply_cases (cluster.group gid time) command with
      ⟨config, rfl, reconfigures⟩ | stays
    · left
      rw [reconfigures.current, reconfigures.num]
      rcases before with later | ⟨same, -⟩ <;> omega
    · rw [stays.current]
      exact before.imp_right fun ⟨same, advances⟩ =>
        ⟨same, advances.trans (stays.shards shard).advances⟩

theorem num_mono (cluster : ShardCluster) (gid : Int) (ordered : first ≤ last) :
    cluster.num gid first ≤ cluster.num gid last := by
  rcases advances_or_later cluster gid ⟨0, by decide⟩ ordered with later | ⟨same, -⟩ <;> omega

theorem passed_iff : (cluster.group gid time).Passed number shard ↔
    number < cluster.num gid time ∨
      (cluster.num gid time = number ∧ cluster.status gid time shard ≠ .moveIn) := Iff.rfl

theorem released_iff : (cluster.group gid time).Released number shard ↔
    number < cluster.num gid time ∨
      (cluster.num gid time = number ∧ cluster.status gid time shard ≠ .moveOut) := Iff.rfl

theorem passed_mono (ordered : first ≤ last)
    (passed : (cluster.group gid first).Passed number shard) :
    (cluster.group gid last).Passed number shard := by
  rcases advances_or_later cluster gid shard ordered with later | ⟨same, advances⟩
  · left
    rcases passed with beyond | ⟨here, -⟩
    · exact Nat.lt_trans beyond later
    · exact here ▸ later
  · rcases passed with beyond | ⟨here, status⟩
    · exact .inl (Nat.lt_of_lt_of_eq beyond same.symm)
    · refine .inr ⟨same.trans here, ?_⟩
      intro moving
      simp only [ShardCluster.status, moving] at advances
      cases before : ((cluster.group gid first).shards shard).status <;>
        simp_all [ShardStatus.Advances]

/-- A group goes on to the next configuration only with all shards Normal. -/
theorem Legal.idle (legal : cluster.Legal) {config : Config} {next : ShardKV}
    (applied : cluster.journal[time]? = some (gid, .configChange config))
    (reconfigures : (cluster.group gid time).Reconfigures config next) (shard : Shard) :
    cluster.status gid time shard = .normal := by
  obtain ⟨read, earlier, idle, found⟩ := legal.fetched applied
  have same := (legal.config_eq found).1.symm.trans reconfigures.num
  rcases advances_or_later cluster gid shard earlier with later | ⟨-, advances⟩
  · simp only [ShardCluster.num] at same later
    omega
  · rw [idle shard] at advances
    exact advances

/-- How a shard stands when a configuration begins. -/
theorem Legal.begins (legal : cluster.Legal) {config : Config}
    (applied : cluster.journal[time]? = some (gid, .configChange config))
    (reconfigures : (cluster.group gid time).Reconfigures config
      ((cluster.group gid time).apply (.configChange config)).1) (shard : Shard) :
    cluster.num gid (time + 1) = cluster.num gid time + 1 ∧
      cluster.status gid (time + 1) shard =
        if cluster.owner (cluster.num gid time) shard ≠ gid ∧
            cluster.owner (cluster.num gid time + 1) shard = gid ∧
            cluster.owner (cluster.num gid time) shard ≠ 0 then .moveIn
        else if cluster.owner (cluster.num gid time) shard = gid ∧
            cluster.owner (cluster.num gid time + 1) shard ≠ gid ∧
            cluster.owner (cluster.num gid time + 1) shard ≠ 0 then .moveOut
        else .normal := by
  have next : cluster.num gid (time + 1) = cluster.num gid time + 1 := by
    rw [ShardCluster.num, group_succ applied, reconfigures.current, reconfigures.num]
    rfl
  refine ⟨next, ?_⟩
  have here := legal.owner_eq gid time shard
  have there := legal.owner_eq gid (time + 1) shard
  rw [group_succ applied, reconfigures.current, next] at there
  rw [ShardCluster.status, group_succ applied, reconfigures.shards]
  rw [ShardKV.newStatus_of_normal (legal.idle applied reconfigures shard), group_gid, here, there]

theorem Legal.shaped (legal : cluster.Legal) (gid : Int) (time : Nat) (shard : Shard) :
    (cluster.group gid time).Shaped shard := by
  apply group_preserves (fun kv => kv.Shaped shard) (Nat.zero_le time)
  · constructor <;> simp [ShardCluster.group, ShardKV.startServer, MemoryKVStateMachine.new]
  · intro time command _ _ applied shaped
    rcases ShardKV.apply_cases (cluster.group gid time) command with
      ⟨config, rfl, reconfigures⟩ | stays
    · exact reconfigures.shaped (legal.idle applied reconfigures shard)
    · exact stays.shaped shaped

/-- Groups without servers stay where they started. -/
theorem Legal.num_of_nonpos (legal : cluster.Legal) (none : gid ≤ 0) (time : Nat) :
    cluster.num gid time = 0 := by
  apply group_preserves (fun kv => kv.currentConfig.num = 0) (Nat.zero_le time) rfl
  intro time command _ _ applied _
  have positive := legal.positive time gid command applied
  omega

end ShardCluster

/-- The status of a shard always fits the two configurations of its group, and the group
goes on to another configuration only by one, with all shards Normal. -/
theorem status_fits_configs {cluster : ShardCluster}
    (reached : shardSystem.Reachable System.anyStep cluster) (gid : Int) (time : Nat) :
    (∀ shard,
      (cluster.status gid time shard = .moveIn ∨ cluster.status gid time shard = .gc →
        (cluster.group gid time).currentConfig.shards shard = gid ∧
          (cluster.group gid time).prevConfig.shards shard ≠ gid ∧
          (cluster.group gid time).prevConfig.shards shard ≠ 0) ∧
      (cluster.status gid time shard = .moveOut →
        (cluster.group gid time).prevConfig.shards shard = gid ∧
          (cluster.group gid time).currentConfig.shards shard ≠ gid ∧
          (cluster.group gid time).currentConfig.shards shard ≠ 0)) ∧
    ∀ config, cluster.journal[time]? = some (gid, .configChange config) →
      cluster.group gid (time + 1) ≠ cluster.group gid time →
      (∀ shard, cluster.status gid time shard = .normal) ∧
        (cluster.group gid (time + 1)).currentConfig.num =
          (cluster.group gid time).currentConfig.num + 1 := by
  have legal := ShardCluster.legal_of_reachable reached
  constructor
  · intro shard
    have shaped := legal.shaped gid time shard
    constructor
    · intro incoming
      have fits := shaped.incoming incoming
      rw [ShardCluster.group_gid] at fits
      exact ⟨fits.1, fits.2.2, fits.2.1⟩
    · intro outgoing
      have fits := shaped.outgoing outgoing
      rw [ShardCluster.group_gid] at fits
      exact ⟨fits.1, fits.2.2, fits.2.1⟩
  · intro config applied changed
    rw [ShardCluster.group_succ applied, ShardKV.apply, ShardKV.applyNewConfig] at changed
    have follows : (cluster.group gid time).currentConfig.num + 1 = config.num := by
      by_contra other
      rw [if_neg other] at changed
      exact changed rfl
    have reconfigures : (cluster.group gid time).Reconfigures config
        ((cluster.group gid time).apply (.configChange config)).1 := by
      rw [ShardKV.apply, ShardKV.applyNewConfig, if_pos follows]
      exact ⟨rfl, follows.symm, rfl, rfl, fun _ => rfl⟩
    exact ⟨legal.idle applied reconfigures,
      (legal.begins applied reconfigures ⟨0, by decide⟩).1⟩

/-- Group 2 joins, and group 1 goes on to the configuration that takes shards from it. -/
def dividedCluster : ShardCluster :=
  shardSystem.after (fun _ _ => true) .initial
    [.join ((∅ : ShardCtrler.Groups).insert 1 ["a"]), .fetchConfig 1 0,
     .join ((∅ : ShardCtrler.Groups).insert 2 ["b"]), .fetchConfig 1 1]

theorem status_fits_configs_divided :
    (dividedCluster.status 1 2 (key2shard "x") = .moveOut ∧
      (dividedCluster.group 1 2).currentConfig.shards (key2shard "x") ≠ 0) ∧
    dividedCluster.status 1 1 (key2shard "x") = .normal ∧
      (dividedCluster.group 1 2).currentConfig.num =
        (dividedCluster.group 1 1).currentConfig.num + 1 := by
  have reached : shardSystem.Reachable System.anyStep dividedCluster :=
    ⟨.initial, rfl, (System.run_after (fun _ _ => true) _ _).mono fun _ _ _ => trivial⟩
  have leaving : dividedCluster.status 1 2 (key2shard "x") = .moveOut := rfl
  have changed : dividedCluster.group 1 2 ≠ dividedCluster.group 1 1 := by
    intro same
    have status : dividedCluster.status 1 1 (key2shard "x") = .normal := rfl
    rw [ShardCluster.status, ← same] at status
    exact absurd (leaving.symm.trans status) (by decide)
  obtain ⟨normal, next⟩ := (status_fits_configs reached 1 1).2 _ rfl changed
  exact ⟨⟨leaving, (((status_fits_configs reached 1 2).1 _).2 leaving).2.2⟩, normal _, next⟩

end MultiRaft.Shardkv
