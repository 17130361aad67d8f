import MultiRaft.ShardKV.Handover

/-!
# At most one group serves a shard
-/

namespace MultiRaft.Shardkv

open ShardCtrler (Config Shard Groups CtrlerStateMachine)

namespace ShardCluster

variable {cluster next : ShardCluster} {event : ShardEvent} {gid other : Int} {time : Nat}
  {shard : Shard}

/-- The group applies client operations on the shard. -/
def Serves (cluster : ShardCluster) (gid : Int) (time : Nat) (shard : Shard) : Prop :=
  cluster.owner (cluster.num gid time) shard = gid ∧
    (cluster.status gid time shard = .normal ∨ cluster.status gid time shard = .gc)

theorem Legal.matchGroup_iff (legal : cluster.Legal) {key : String} :
    (cluster.group gid time).matchGroup key = true ↔
      cluster.Serves gid time (key2shard key) := by
  simp only [ShardKV.matchGroup, decide_eq_true_eq, legal.owner_eq, group_gid]
  rfl

theorem Serves.passed (serves : cluster.Serves gid time shard) :
    (cluster.group gid time).Passed (cluster.num gid time) shard := by
  refine .inr ⟨rfl, ?_⟩
  intro moving
  rcases serves.2 with normal | collecting
  · exact absurd (normal.symm.trans moving) (by simp)
  · exact absurd (collecting.symm.trans moving) (by simp)

/-- No group serves in an earlier configuration than the one another group has reached. -/
theorem Legal.serves_not_before (legal : cluster.Legal) (homing : cluster.Homing)
    (positive : 0 < gid) (positive' : 0 < other) (serves : cluster.Serves gid time shard)
    (serves' : cluster.Serves other time shard) :
    cluster.num other time ≤ cluster.num gid time := by
  by_contra behind
  have past := legal.owners_past homing (serves'.1.symm ▸ positive')
    (by rw [serves'.1]; exact serves'.passed) (Nat.lt_of_not_le behind)
    (serves.1.symm ▸ positive)
  rw [serves.1] at past
  exact Nat.lt_irrefl _ past

theorem Legal.serves_unique (legal : cluster.Legal) (homing : cluster.Homing)
    (positive : 0 < gid) (positive' : 0 < other) (serves : cluster.Serves gid time shard)
    (serves' : cluster.Serves other time shard) : gid = other := by
  have same : cluster.num gid time = cluster.num other time :=
    Nat.le_antisymm (legal.serves_not_before homing positive' positive serves' serves)
      (legal.serves_not_before homing positive positive' serves serves')
  rw [← serves.1, ← serves'.1, same]

/-- The configuration is the last one that gives the shard to a group. -/
def OwnedLast (cluster : ShardCluster) (shard : Shard) (last : Nat) : Prop :=
  0 < cluster.owner last shard ∧ ∀ between < cluster.ctrler.configs.length, last < between →
    cluster.owner between shard ≤ 0

instance (cluster : ShardCluster) (shard : Shard) (last : Nat) :
    Decidable (cluster.OwnedLast shard last) :=
  inferInstanceAs (Decidable (_ ∧ _))

/-- A new configuration gives an unassigned shard only to the group that had it last. -/
def returnsHome (cluster : ShardCluster) (event : ShardEvent) : Bool :=
  match cluster.step event with
  | none => true
  | some next => decide (∀ shard, cluster.ctrler.lastConfig.shards shard = 0 →
      0 < next.ctrler.lastConfig.shards shard →
      ∀ last < cluster.ctrler.configs.length, cluster.OwnedLast shard last →
        cluster.owner last shard = next.ctrler.lastConfig.shards shard)

theorem config_add {shards : Shard → Int} {groups : Groups} (number : Nat) :
    ({ cluster with ctrler := cluster.ctrler.add shards groups } : ShardCluster).config number =
      if number = cluster.ctrler.configs.length then { num := number, shards, groups }
      else cluster.config number := by
  simp only [config, CtrlerStateMachine.add, List.getElem?_append]
  split
  · rename_i old
    rw [if_neg (Nat.ne_of_lt old)]
  · rename_i new
    rw [List.getElem?_singleton]
    by_cases last : number = cluster.ctrler.configs.length
    · simp [last]
    · rw [if_neg (by omega), if_neg last, List.getElem?_eq_none (by omega)]

theorem lastConfig_eq (cluster : ShardCluster) : cluster.ctrler.lastConfig =
    cluster.config (cluster.ctrler.configs.length - 1) := by
  simp only [CtrlerStateMachine.lastConfig, config, List.getLast?_eq_getElem?]

theorem Homing.step (homing : cluster.Homing) (legal : cluster.Legal)
    (guarded : cluster.returnsHome event = true) (stepped : cluster.step event = some next) :
    next.Homing := by
  simp only [returnsHome, stepped, decide_eq_true_eq] at guarded
  rcases step_cases legal stepped with ⟨shards, groups, -, rfl⟩ | ⟨gid, command, -, -, -, rfl⟩
  · have grown : ∀ number shard, owner { cluster with
        ctrler := cluster.ctrler.add shards groups } number shard =
        if number = cluster.ctrler.configs.length then shards shard
        else cluster.owner number shard := by
      intro number shard
      simp only [owner, config_add]
      split <;> rfl
    intro number shard last before zero holder owned gap
    rw [grown] at holder
    split at holder
    · -- the configuration that was just made
      rename_i new
      have here : number = cluster.ctrler.configs.length - 1 := by omega
      rw [grown, if_neg (by omega), here] at zero
      rw [grown, if_neg (by omega)] at owned
      rw [grown, grown, if_neg (by omega), if_pos new]
      have added : (cluster.ctrler.add shards groups).lastConfig.shards = shards := by
        simp [CtrlerStateMachine.lastConfig, CtrlerStateMachine.add]
      rw [← added]
      apply guarded shard
      · rw [lastConfig_eq]
        exact zero
      · rw [added]
        exact holder
      · omega
      · refine ⟨owned, ?_⟩
        intro between inside after
        have old := gap between after (by omega)
        rw [grown, if_neg (by omega)] at old
        exact old
    · -- an older one; the new one is not before it
      have inside : number + 1 < cluster.ctrler.configs.length := by
        by_contra outside
        have none : cluster.owner (number + 1) shard = 0 := by
          simp only [owner, config, List.getElem?_eq_none (Nat.le_of_not_lt outside)]
          rfl
        omega
      rw [grown, if_neg (by omega)] at zero owned
      rw [grown, grown, if_neg (by omega), if_neg (by omega)]
      apply homing number shard last before zero holder owned
      intro between after bound
      have old := gap between after bound
      rw [grown, if_neg (by omega)] at old
      exact old
  · exact homing

theorem homing_of_reachable
    (reached : shardSystem.Reachable (fun state event => state.returnsHome event = true)
      cluster) : cluster.Homing := by
  have start : ∀ state, shardSystem.init state → state.Homing := by
    rintro _ rfl
    intro number shard last _ _ holder
    simp [owner, config, initial, CtrlerStateMachine.new, ShardCtrler.defaultConfig] at holder
  refine reached.invariant start ?_
  intro state event next before homing guarded stepped
  exact homing.step (legal_of_reachable before) guarded stepped

end ShardCluster

/-- If a shard that was assigned to group 0 goes back to the group that had it last,
then no two groups serve keys of one shard, whatever configurations they have
reached. -/
theorem at_most_one_serving_group {cluster : ShardCluster}
    (reached : shardSystem.Reachable (fun state event => state.returnsHome event = true)
      cluster)
    {gid other : Int} (positive : 0 < gid) (positive' : 0 < other) (different : gid ≠ other)
    {key key' : String} (same : key2shard key = key2shard key')
    (serves : (cluster.group gid cluster.now).matchGroup key = true) :
    (cluster.group other cluster.now).matchGroup key' = false := by
  have legal := ShardCluster.legal_of_reachable reached
  have homing := ShardCluster.homing_of_reachable reached
  by_contra also
  rw [Bool.not_eq_false, legal.matchGroup_iff, ← same] at also
  exact different (legal.serves_unique homing positive positive'
    (legal.matchGroup_iff.mp serves) also)

/-- A group with one server. -/
def oneGroup (gid : Int) (server : String) : Groups := (∅ : Groups).insert gid [server]

/-- All groups leave, and the group that had the shards joins again. -/
def rejoinedCluster : ShardCluster :=
  shardSystem.after ShardCluster.returnsHome .initial
    [.join (oneGroup 1 "a"), .fetchConfig 1 0, .fetchConfig 2 0, .leave [1], .fetchConfig 1 2,
     .join (oneGroup 1 "a"), .fetchConfig 1 3, .fetchConfig 2 4, .fetchConfig 2 5]

theorem at_most_one_serving_group_rejoined :
    (rejoinedCluster.group 1 rejoinedCluster.now).matchGroup "x" = true ∧
      (rejoinedCluster.group 2 rejoinedCluster.now).matchGroup "x" = false := by
  have serves : (rejoinedCluster.group 1 rejoinedCluster.now).matchGroup "x" = true := rfl
  refine ⟨serves, ?_⟩
  exact at_most_one_serving_group ⟨.initial, rfl, System.run_after ShardCluster.returnsHome _ _⟩
    (by decide) (by decide) (by decide) rfl serves

/-- All groups leave and another one joins, which has no hand-over to wait for, while the
first one has not yet heard that it lost its shards. -/
def replacedCluster : ShardCluster :=
  shardSystem.after (fun _ _ => true) .initial
    [.join (oneGroup 1 "a"), .fetchConfig 1 0, .leave [1], .join (oneGroup 2 "b"),
     .fetchConfig 2 0, .fetchConfig 2 2, .fetchConfig 2 3]

theorem two_groups_serve :
    shardSystem.Reachable System.anyStep replacedCluster ∧
    (replacedCluster.group 1 replacedCluster.now).matchGroup "x" = true ∧
    (replacedCluster.group 2 replacedCluster.now).matchGroup "x" = true := by
  refine ⟨⟨.initial, rfl, ?_⟩, rfl, rfl⟩
  exact (System.run_after (fun _ _ => true) _ _).mono fun _ _ _ => trivial

end MultiRaft.Shardkv
