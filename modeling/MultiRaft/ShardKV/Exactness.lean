import MultiRaft.ShardKV.Serving

/-!
# A shard arrives as it left

While the controller always has a group, no shard falls back to group 0.  Then a
group's copy of a shard is empty wherever the group neither owns the shard nor still
has to give it away, and a copy to be given away does not change.  So what the next
owner takes in is what the last one had when it stopped serving.
-/

namespace MultiRaft.Shardkv

open ShardCtrler (Config Shard Groups CtrlerStateMachine)
open KVRaft (Op)

namespace ShardKV

variable {kv : ShardKV} {command : RaftCommand} {shard : Shard} {mkv : MemoryKVStateMachine}

/-- A copy that is to be given away keeps its content until it is cleared. -/
theorem ShardStep.frozen (step : kv.ShardStep command shard mkv)
    (before : (kv.shards shard).status = .moveOut) (after : mkv.status = .moveOut) :
    mkv.kv = (kv.shards shard).kv := by
  cases step with
  | same => rfl
  | client op mkv is serves here status =>
      subst here
      simp [matchGroup, before] at serves
  | migrated data content is current carried status => simp [before] at status
  | settled args is current named status => simp [before] at status
  | cleared args is current named status => simp [MemoryKVStateMachine.new] at after

/-- A copy that a group must not have content in. -/
def Vacant (kv : ShardKV) (shard : Shard) : Prop :=
  (kv.shards shard).status = .moveIn ∨
    ((kv.shards shard).status ≠ .moveOut ∧ kv.currentConfig.shards shard ≠ kv.gid)

theorem Stays.vacant {next : ShardKV} (stays : kv.Stays command next) (shaped : kv.Shaped shard)
    (empty : kv.Vacant shard → (kv.shards shard).kv = fun _ => none)
    (vacant : next.Vacant shard) : (next.shards shard).kv = fun _ => none := by
  have here := stays.shards shard
  unfold Vacant at vacant
  rw [stays.current, stays.gid] at vacant
  generalize next.shards shard = mkv at here vacant
  cases here with
  | same => exact empty vacant
  | client op mkv is serves here status =>
      subst here
      simp only [matchGroup, decide_eq_true_eq] at serves
      grind
  | migrated data content is current carried status =>
      have owned := shaped.incoming (.inl status)
      simp [owned.1] at vacant
  | settled args is current named status =>
      have owned := shaped.incoming (.inr status)
      simp [owned.1] at vacant
  | cleared args is current named status => rfl

end ShardKV

namespace ShardCluster

variable {cluster next : ShardCluster} {event : ShardEvent} {gid other : Int}
  {time begun : Nat} {shard : Shard} {number : Nat}

/-- Once there is a group, the next configuration also has one. -/
def keepsGroups (cluster : ShardCluster) (event : ShardEvent) : Bool :=
  match cluster.step event with
  | none => true
  | some next => decide (cluster.ctrler.lastConfig.groups.keys ≠ [] →
      next.ctrler.lastConfig.groups.keys ≠ [])

structure Populated (cluster : ShardCluster) : Prop where
  assigned : ∀ number, (cluster.config number).Assigned
  kept : ∀ number later, number ≤ later → later < cluster.ctrler.configs.length →
    (cluster.config number).groups.keys ≠ [] → (cluster.config later).groups.keys ≠ []

/-- A shard that has an owner is never left to group 0. -/
theorem Populated.owner_ne_zero (populated : cluster.Populated) {later : Nat}
    (owned : 0 < cluster.owner number shard) (ordered : number ≤ later)
    (made : later < cluster.ctrler.configs.length) : cluster.owner later shard ≠ 0 := by
  have some_group : (cluster.config number).groups.keys ≠ [] := by
    intro none
    have nobody := (populated.assigned number).unserved (fun gid held => by
      rw [AList.mem_keys, none] at held
      exact List.not_mem_nil held) shard
    exact absurd owned (Int.not_lt.mpr nobody)
  obtain ⟨gid, held⟩ := List.exists_mem_of_ne_nil _
    (populated.kept number later ordered made some_group)
  exact (populated.assigned later).served gid (AList.mem_keys.mpr held) shard

theorem config_of_length_le {number : Nat} (beyond : cluster.ctrler.configs.length ≤ number) :
    cluster.config number = ShardCtrler.defaultConfig := by
  simp [config, List.getElem?_eq_none beyond]

theorem Populated.homing (populated : cluster.Populated) : cluster.Homing := by
  intro number shard last before zero holder owned _
  refine absurd zero (populated.owner_ne_zero owned (Nat.le_of_lt before) ?_)
  by_contra beyond
  rw [owner, config_of_length_le (by omega)] at holder
  exact Int.lt_irrefl 0 holder

theorem Populated.step (populated : cluster.Populated) (legal : cluster.Legal)
    (guarded : cluster.keepsGroups event = true) (stepped : cluster.step event = some next) :
    next.Populated := by
  simp only [keepsGroups, stepped, decide_eq_true_eq] at guarded
  rcases step_cases legal stepped with ⟨shards, groups, keeps, rfl⟩ | ⟨gid, command, -, -, -, rfl⟩
  · have last := populated.assigned (cluster.ctrler.configs.length - 1)
    rw [← lastConfig_eq] at last
    have new := keeps last
    rw [CtrlerStateMachine.lastConfig_add] at new guarded
    rw [lastConfig_eq] at guarded
    have nonempty := (List.getElem?_eq_some_iff.mp legal.first).1
    constructor
    · intro number
      rw [config_add]
      split
      · rename_i here
        subst here
        exact new
      · exact populated.assigned number
    · intro number later ordered made some_group
      simp only [CtrlerStateMachine.add, List.length_append, List.length_singleton] at made
      rw [config_add] at some_group ⊢
      by_cases here : later = cluster.ctrler.configs.length
      · rw [if_pos here]
        split at some_group
        · exact some_group
        · exact guarded (populated.kept number _ (by omega) (by omega) some_group)
      · rw [if_neg here]
        rw [if_neg (by omega)] at some_group
        exact populated.kept number later ordered (by omega) some_group
  · exact ⟨populated.assigned, populated.kept⟩

theorem populated_of_reachable {allowed : ShardCluster → ShardEvent → Prop}
    (guarded : ∀ state event, allowed state event → state.keepsGroups event = true)
    (reached : shardSystem.Reachable allowed cluster) : cluster.Populated := by
  have start : ∀ state, shardSystem.init state → state.Populated := by
    rintro _ rfl
    have config : ∀ number, ShardCluster.initial.config number = ShardCtrler.defaultConfig := by
      intro number
      cases number with
      | zero => rfl
      | succ number => rfl
    refine ⟨?_, ?_⟩
    · intro number
      rw [config]
      exact ShardCtrler.assigned_default
    · intro number later _ _ some_group
      rw [config] at some_group ⊢
      exact some_group
  refine reached.invariant start ?_
  intro state event next before populated allows stepped
  exact populated.step (legal_of_reachable before) (guarded state event allows) stepped

theorem Legal.num_lt (legal : cluster.Legal) (gid : Int) (time : Nat) :
    cluster.num gid time < cluster.ctrler.configs.length := by
  apply group_preserves (fun kv => kv.currentConfig.num < cluster.ctrler.configs.length)
    (Nat.zero_le time) (List.getElem?_eq_some_iff.mp legal.first).1
  intro time command _ _ applied before
  rcases ShardKV.apply_cases (cluster.group gid time) command with
    ⟨config, rfl, reconfigures⟩ | stays
  · obtain ⟨read, -, -, found⟩ := legal.fetched applied
    rw [reconfigures.current, (legal.config_eq found).1]
    exact (List.getElem?_eq_some_iff.mp found).1
  · rw [stays.current]
    exact before

theorem Legal.empty_of_vacant (legal : cluster.Legal) (populated : cluster.Populated)
    (positive : 0 < gid) (vacant : (cluster.group gid time).Vacant shard) :
    ((cluster.group gid time).shards shard).kv = fun _ => none := by
  revert vacant
  apply group_preserves
    (fun kv => kv.Vacant shard → (kv.shards shard).kv = fun _ => none) (Nat.zero_le time)
    (fun _ => rfl)
  intro time command _ _ applied empty
  rcases ShardKV.apply_cases (cluster.group gid time) command with
    ⟨config, rfl, reconfigures⟩ | stays
  · intro vacant
    rw [reconfigures.shards]
    apply empty
    -- an owner at rest would now have to hand the shard over
    have idle : ((cluster.group gid time).shards shard).status = .normal :=
      legal.idle applied reconfigures shard
    refine .inr ⟨by simp [idle], ?_⟩
    rw [legal.owner_eq, group_gid]
    intro owned
    obtain ⟨next, begins⟩ := legal.begins applied reconfigures shard
    have made := legal.num_lt gid (time + 1)
    have still := populated.owner_ne_zero (owned ▸ positive)
      (Nat.le_succ (cluster.num gid time)) (by omega)
    rw [← group_succ applied] at vacant
    unfold ShardKV.Vacant at vacant
    rw [legal.owner_eq, next, group_gid] at vacant
    simp only [ShardCluster.status] at begins
    grind
  · exact stays.vacant (legal.shaped gid time shard) empty

theorem Legal.owner_zero (legal : cluster.Legal) (shard : Shard) : cluster.owner 0 shard = 0 := by
  simp [owner, config, legal.first, ShardCtrler.defaultConfig]

/-- The moment at which a group goes on to a configuration. -/
structure Enters (cluster : ShardCluster) (time : Nat) (gid : Int) (number : Nat) : Prop where
  applied : ∃ config, config.num = number ∧
    cluster.journal[time]? = some (gid, .configChange config)
  before : cluster.num gid time + 1 = number
  after : cluster.num gid (time + 1) = number
  idle : ∀ shard, cluster.status gid time shard = .normal
  content : ∀ shard, ((cluster.group gid (time + 1)).shards shard).kv =
    ((cluster.group gid time).shards shard).kv

theorem Legal.exists_enters (legal : cluster.Legal)
    (reached : number + 1 ≤ cluster.num gid time) :
    ∃ begun < time, cluster.Enters begun gid (number + 1) := by
  have before : ¬ number + 1 ≤ (cluster.group gid 0).currentConfig.num := Nat.not_succ_le_zero _
  obtain ⟨begun, command, early, applied, lacks, comes⟩ :=
    group_change (fun kv => number + 1 ≤ kv.currentConfig.num) before reached
  refine ⟨begun, early, ?_⟩
  rcases ShardKV.apply_cases (cluster.group gid begun) command with
    ⟨config, rfl, reconfigures⟩ | stays
  · rw [reconfigures.current, reconfigures.num] at comes
    have here : (cluster.group gid begun).currentConfig.num = number := by omega
    have next := (legal.begins applied reconfigures ⟨0, by decide⟩).1
    refine ⟨⟨config, by rw [reconfigures.num, here], applied⟩, by rw [ShardCluster.num, here],
      by rw [next, ShardCluster.num, here], legal.idle applied reconfigures, ?_⟩
    intro shard
    rw [group_succ applied, reconfigures.shards]
  · rw [stays.current] at comes
    exact absurd comes lacks

/-- Who hands over to whom. -/
theorem Legal.parties (legal : cluster.Legal) (takes : cluster.Takes time gid (number + 1) shard) :
    0 < gid ∧ 0 < cluster.owner number shard ∧ cluster.owner (number + 1) shard = gid ∧
      cluster.owner number shard ≠ gid := by
  obtain ⟨data, applied⟩ := takes.applied
  have shaped := (legal.shaped gid time shard).incoming (.inl takes.before)
  rw [legal.owner_eq, legal.prev_owner_eq, group_gid, takes.num, Nat.add_sub_cancel] at shaped
  obtain ⟨read, -, far, -⟩ := legal.takes_from_owner takes
  refine ⟨legal.positive time gid _ applied, ?_, shaped.1, shaped.2.2⟩
  by_contra none
  rw [legal.num_of_nonpos (Int.not_lt.mp none)] at far
  exact Nat.not_succ_le_zero _ far

/-- The new owner does not have the shard before it takes it in. -/
theorem Takes.not_passed (takes : cluster.Takes time gid number shard) {moment : Nat}
    (before : moment ≤ time) : ¬ (cluster.group gid moment).Passed number shard := by
  intro passed
  rcases passed_iff.mp (passed_mono before passed) with beyond | ⟨-, status⟩
  · exact Nat.lt_irrefl _ (takes.num ▸ beyond)
  · exact status takes.before

/-- The old owner still has its copy to give away while the new one waits for it. -/
theorem Legal.source_waits (legal : cluster.Legal)
    (takes : cluster.Takes time gid (number + 1) shard)
    (enters : cluster.Enters begun (cluster.owner number shard) (number + 1))
    {moment : Nat} (after : begun < moment) (before : moment ≤ time) :
    cluster.num (cluster.owner number shard) moment = number + 1 ∧
      cluster.status (cluster.owner number shard) moment shard = .moveOut := by
  obtain ⟨positive, -, mine, different⟩ := legal.parties takes
  have reached : number + 1 ≤ cluster.num (cluster.owner number shard) moment := by
    have later := cluster.num_mono (cluster.owner number shard) (Nat.succ_le_of_lt after)
    rw [enters.after] at later
    exact later
  have held : ¬ (cluster.group (cluster.owner number shard) moment).Released (number + 1) shard := by
    intro released
    have passed := legal.passed_of_released rfl (by rw [mine]; exact different.symm)
      (by omega) released
    rw [mine] at passed
    exact takes.not_passed before passed
  rw [released_iff] at held
  grind

theorem Legal.source_content (legal : cluster.Legal)
    (takes : cluster.Takes time gid (number + 1) shard)
    (enters : cluster.Enters begun (cluster.owner number shard) (number + 1))
    {moment : Nat} (after : begun < moment) (before : moment ≤ time) :
    ((cluster.group (cluster.owner number shard) moment).shards shard).kv =
      ((cluster.group (cluster.owner number shard) begun).shards shard).kv := by
  apply group_preserves (fun kv => (kv.shards shard).kv =
    ((cluster.group (cluster.owner number shard) begun).shards shard).kv)
    (Nat.succ_le_of_lt after) (enters.content shard)
  intro step command from_begin to_moment applied same
  obtain ⟨here, waiting⟩ := legal.source_waits takes enters
    (Nat.lt_of_succ_le from_begin) (by omega)
  obtain ⟨there, waits⟩ := legal.source_waits takes enters
    (show begun < step + 1 by omega) (by omega)
  rw [ShardCluster.num, group_succ applied] at there
  rw [ShardCluster.status, group_succ applied] at waits
  rcases ShardKV.apply_cases (cluster.group (cluster.owner number shard) step) command with
    ⟨config, rfl, reconfigures⟩ | stays
  · rw [reconfigures.current, reconfigures.num] at there
    rw [ShardCluster.num] at here
    omega
  · exact ((stays.shards shard).frozen waiting waits).trans same

/-- Between the two moments of a hand-over no group serves the shard. -/
theorem Legal.not_serves_between (legal : cluster.Legal) (homing : cluster.Homing)
    (takes : cluster.Takes time gid (number + 1) shard)
    (enters : cluster.Enters begun (cluster.owner number shard) (number + 1))
    {moment : Nat} (after : begun < moment) (before : moment ≤ time) (positive : 0 < other) :
    ¬ cluster.Serves other moment shard := by
  intro serves
  obtain ⟨taker, giver, mine, -⟩ := legal.parties takes
  have owned : 0 < cluster.owner (cluster.num other moment) shard := serves.1.symm ▸ positive
  have passed : (cluster.group (cluster.owner (cluster.num other moment) shard) moment).Passed
      (cluster.num other moment) shard := by
    rw [serves.1]
    exact serves.passed
  rcases lt_trichotomy (cluster.num other moment) (number + 1) with behind | here | ahead
  · -- an earlier owner had gone on when the old owner had the shard
    have waits := (legal.source_waits takes enters after before).1
    have had : (cluster.group (cluster.owner number shard) begun).Passed number shard := by
      refine .inr ⟨Nat.succ.inj enters.before, ?_⟩
      have idle : ((cluster.group (cluster.owner number shard) begun).shards shard).status =
        .normal := enters.idle shard
      simp [idle]
    rcases Nat.eq_or_lt_of_le (Nat.le_of_lt_succ behind) with same | earlier
    · rw [← same, serves.1] at waits
      omega
    · have past := legal.owners_past homing giver had earlier owned
      have later := cluster.num_mono other (Nat.le_of_lt after)
      rw [serves.1] at past
      omega
  · rw [here, mine] at passed
    exact takes.not_passed before passed
  · have past := legal.owners_past homing owned passed ahead (mine.symm ▸ taker)
    rw [mine] at past
    exact takes.not_passed before (.inl past)

/-- A copy is cleared only after the new owner has taken the shard in. -/
theorem Legal.takes_before_clears (legal : cluster.Legal)
    (clears : cluster.Clears time gid number shard) :
    ∃ moment < time, cluster.Takes moment (cluster.owner number shard) number shard := by
  have shaped := (legal.shaped gid time shard).outgoing clears.before
  rw [legal.prev_owner_eq, legal.owner_eq, group_gid, clears.num] at shaped
  have passed := legal.passed_of_clears clears
  have positive : 0 < number := by
    by_contra zero
    have first : number = 0 := by omega
    subst first
    exact absurd (legal.owner_zero shard) shaped.2.1
  have owned : gid ≠ 0 := by
    intro zero
    have never := legal.num_of_nonpos (Int.le_of_eq zero) time
    rw [clears.num] at never
    omega
  obtain ⟨previous, rfl⟩ := Nat.exists_eq_succ_of_ne_zero (Nat.ne_of_gt positive)
  rw [Nat.succ_eq_add_one, Nat.add_sub_cancel] at shaped
  exact legal.exists_takes rfl (by rw [shaped.1]; exact shaped.2.2.symm)
    (by rw [shaped.1]; exact owned) passed

end ShardCluster

/-- A shard arrives with exactly the content it had when the old owner went on to the
configuration, no operation on it is applied anywhere in between, and the old copy is
cleared only after the new owner has it: provided that, once there is a group, every
configuration has one. -/
theorem exact_handover {cluster : ShardCluster}
    (reached : shardSystem.Reachable (fun state event => state.keepsGroups event = true)
      cluster) :
    (∀ time gid number shard, cluster.Takes time gid number shard →
      ∃ begun < time, cluster.Enters begun (cluster.owner (number - 1) shard) number ∧
        ((cluster.group gid (time + 1)).shards shard).kv =
          ((cluster.group (cluster.owner (number - 1) shard) begun).shards shard).kv ∧
        ∀ (moment : Nat) other op, begun < moment → moment < time →
          cluster.journal[moment]? = some (other, .clientOperation op) →
          key2shard op.key = shard →
          (cluster.group other moment).applyClientOperation op =
            (cluster.group other moment, { value := "", err := .errWrongGroup })) ∧
    ∀ time gid number shard, cluster.Clears time gid number shard →
      ∃ moment < time, cluster.Takes moment (cluster.owner number shard) number shard := by
  have legal := ShardCluster.legal_of_reachable reached
  have populated := ShardCluster.populated_of_reachable (fun _ _ guarded => guarded) reached
  constructor
  · intro time gid number shard takes
    have shaped := (legal.shaped gid time shard).incoming (.inl takes.before)
    rw [legal.prev_owner_eq, takes.num] at shaped
    cases number with
    | zero => exact absurd (legal.owner_zero shard) shaped.2.1
    | succ number =>
        rw [Nat.add_sub_cancel]
        obtain ⟨read, early, far, content, -⟩ := legal.takes_from_owner takes
        obtain ⟨begun, before, enters⟩ := legal.exists_enters far
        refine ⟨begun, by omega, enters, ?_, ?_⟩
        · have empty := legal.empty_of_vacant populated (legal.parties takes).1 (.inl takes.before)
          rw [content, ← legal.source_content takes enters before early]
          simp [MemoryKVStateMachine.merge, empty]
        · intro moment other op after within applied here
          have positive := legal.positive moment other _ applied
          have idle := legal.not_serves_between populated.homing takes enters after
            (Nat.le_of_lt within) positive
          rw [← here, ← legal.matchGroup_iff] at idle
          rw [ShardKV.applyClientOperation, if_neg idle]
  · intro time gid number shard clears
    exact legal.takes_before_clears clears

/-- The shards that a second group gets. -/
def firstHalf : List Shard := (List.finRange ShardCtrler.nShards).take 5

/-- Group 1 writes, group 2 joins and takes half of the shards over. -/
def handedOverCluster : ShardCluster :=
  shardSystem.after ShardCluster.keepsGroups .initial
    [.join (oneGroup 1 "a"), .fetchConfig 1 0,
     .client 1 1 { key := "x", value := "v", opType := .put, clientId := 7, seqId := 0 },
     .join (oneGroup 2 "b"), .fetchConfig 2 0, .fetchConfig 2 3, .fetchConfig 1 4,
     .migrate 2 5 1 5 firstHalf, .delete 2 6 1 6 firstHalf, .collect 2 6 1 6 firstHalf]

theorem exact_handover_written :
    (handedOverCluster.Takes 5 2 2 (key2shard "x") ∧ ∃ begun < 5, handedOverCluster.Enters begun 1 2 ∧
      ((handedOverCluster.group 2 6).shards (key2shard "x")).kv =
        ((handedOverCluster.group 1 begun).shards (key2shard "x")).kv) ∧
    handedOverCluster.Clears 6 1 2 (key2shard "x") ∧
    ∃ moment < 6, handedOverCluster.Takes moment 2 2 (key2shard "x") := by
  have reached : shardSystem.Reachable (fun state event => state.keepsGroups event = true)
      handedOverCluster :=
    ⟨.initial, rfl, System.run_after ShardCluster.keepsGroups _ _⟩
  obtain ⟨arrives, cleared⟩ := exact_handover reached
  have takes : handedOverCluster.Takes 5 2 2 (key2shard "x") := ⟨⟨_, rfl⟩, rfl, rfl, rfl⟩
  have clears : handedOverCluster.Clears 6 1 2 (key2shard "x") := ⟨rfl, rfl, by decide⟩
  obtain ⟨begun, before, enters, content, -⟩ := arrives 5 2 2 _ takes
  exact ⟨⟨takes, begun, before, enters, content⟩, clears, cleared 6 1 2 _ clears⟩

end MultiRaft.Shardkv
