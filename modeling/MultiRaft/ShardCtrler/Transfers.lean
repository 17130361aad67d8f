import MultiRaft.ShardCtrler.Validity

/-!
# How many shards move

`Join` and `Leave` leave the groups with numbers of shards that differ by at most one.
`Join` moves no more shards than any such assignment has to, and from a balanced
configuration only to new groups.  `Leave` moves the shards of the groups that leave and
no others.
-/

namespace MultiRaft.ShardCtrler

open Balance (load moved Level Shift Leveling)

variable {table : GidToShards} {gid : Int} {groups joining : Groups} {shards : Shard → Int}

/-- The numbers of shards of any two groups differ by at most one. -/
def LevelOver (groups : Groups) (shards : Shard → Int) : Prop :=
  ∀ gid ∈ groups, ∀ other ∈ groups, load shards gid ≤ load shards other + 1

/-- Gid 0 stands for no group, and then the groups are what shards can go to. -/
theorem mem_takers_iff (proper : (0 : Int) ∉ groups) : gid ∈ takers groups ↔ gid ∈ groups := by
  rw [mem_takers]
  constructor
  · exact fun taker => taker.2
  · intro group
    exact ⟨fun zero => proper (zero ▸ group), group⟩

theorem levelOver_iff (proper : (0 : Int) ∉ groups) :
    LevelOver groups shards ↔ Level (takers groups) (load shards) := by
  simp only [LevelOver, Level, mem_takers_iff proper]

theorem zero_notMem_joinGroups (proper : (0 : Int) ∉ groups)
    (positive : ∀ gid ∈ joining.keys, 0 < gid) :
    (0 : Int) ∉ CtrlerStateMachine.joinGroups groups joining := by
  intro zero
  rcases CtrlerStateMachine.mem_joinGroups.mp zero with old | new
  · exact proper old
  · exact absurd (positive 0 (AList.mem_keys.mp new)) (Int.lt_irrefl 0)

/-- With every shard at a group or every shard at group 0, `Join` comes to an end, and
then every shard is at a group and the groups have numbers of shards that differ by at
most one. -/
theorem join_balances {csm : CtrlerStateMachine} {joining : Groups}
    (proper : (0 : Int) ∉ csm.lastConfig.groups) (valid : csm.lastConfig.Valid)
    (positive : ∀ gid ∈ joining.keys, 0 < gid)
    (some_group : (CtrlerStateMachine.joinGroups csm.lastConfig.groups joining).keys ≠ []) :
    ∃ next, csm.join joining = some next ∧
      next = csm.add next.lastConfig.shards next.lastConfig.groups ∧
      (∀ gid, gid ∈ next.lastConfig.groups ↔ gid ∈ csm.lastConfig.groups ∨ gid ∈ joining) ∧
      (∀ shard, next.lastConfig.shards shard ∈ next.lastConfig.groups) ∧
      LevelOver next.lastConfig.groups next.lastConfig.shards := by
  have properNew := zero_notMem_joinGroups proper positive
  obtain ⟨gid, group⟩ := List.exists_mem_of_ne_nil _ some_group
  have nonzero : gid ≠ 0 := fun zero => properNew (zero ▸ AList.mem_keys.mpr group)
  have start := CtrlerStateMachine.balancing_gatherShards valid group nonzero
  obtain ⟨balanced, done, result, level⟩ :=
    start.rebalance (Nat.add_le_add_right (start.orderly.length_le 0) _)
  refine ⟨_, CtrlerStateMachine.join_eq done, ?_⟩
  rw [CtrlerStateMachine.lastConfig_add]
  exact ⟨rfl, fun gid => CtrlerStateMachine.mem_joinGroups,
    result.keyed.storeShards_mem result.covers result.none, (levelOver_iff properNew).mpr level⟩

/-- Group 1 had all shards and a move brought one to group 2, which has no other. -/
def movedCtrler : CtrlerStateMachine :=
  { configs := [{ num := 0
                  shards := Function.update (fun _ => 1) ⟨4, by decide⟩ 2
                  groups := AList.insert 2 ["b"] (AList.singleton (1 : Int) ["a"]) }] }

theorem join_balances_moved : ∃ next,
    movedCtrler.join (AList.singleton 7 ["c"]) = some next ∧
    LevelOver next.lastConfig.groups next.lastConfig.shards := by
  have proper : (0 : Int) ∉ movedCtrler.lastConfig.groups := by decide
  have served : ∀ shard, movedCtrler.lastConfig.shards shard ∈ movedCtrler.lastConfig.groups := by
    decide
  obtain ⟨next, joined, -, -, -, level⟩ :=
    join_balances proper (.inr served) (show ∀ gid ∈ (AList.singleton 7 ["c"] : Groups).keys, 0 < gid
      by decide) (by decide)
  exact ⟨next, joined, level⟩

/-- A table gathered from shards that are all at groups has nothing for group 0. -/
theorem shardsOf_gatherShards_zero (proper : (0 : Int) ∉ groups)
    (served : ∀ shard, shards shard ∈ groups) (all : Groups) :
    shardsOf (gatherShards all shards) 0 = [] := by
  apply List.eq_nil_iff_forall_not_mem.mpr
  intro shard zero
  exact proper (mem_shardsOf_gatherShards.mp zero ▸ served shard)

theorem storeShards_gatherShards (groups : Groups) (shards : Shard → Int) :
    storeShards (gatherShards groups shards) = shards := by
  funext shard
  exact ((orderly_gatherShards groups shards).mem_iff (covers_gatherShards groups shards)).mp
    (mem_shardsOf_gatherShards.mpr rfl)

/-- `Join` moves as many shards as the least that any assignment to the new groups with
level numbers of shards takes.  If the numbers were level before, they go to new groups. -/
theorem join_moves_least {csm : CtrlerStateMachine} {joining : Groups}
    (proper : (0 : Int) ∉ csm.lastConfig.groups)
    (served : ∀ shard, csm.lastConfig.shards shard ∈ csm.lastConfig.groups)
    (positive : ∀ gid ∈ joining.keys, 0 < gid) :
    ∃ next, csm.join joining = some next ∧
      next = csm.add next.lastConfig.shards next.lastConfig.groups ∧
      (∀ gid, gid ∈ next.lastConfig.groups ↔ gid ∈ csm.lastConfig.groups ∨ gid ∈ joining) ∧
      IsLeast {count | ∃ other : Shard → Int, (∀ shard, other shard ∈ next.lastConfig.groups) ∧
        LevelOver next.lastConfig.groups other ∧ moved csm.lastConfig.shards other = count}
        (moved csm.lastConfig.shards next.lastConfig.shards) ∧
      (LevelOver csm.lastConfig.groups csm.lastConfig.shards →
        ∀ shard, csm.lastConfig.shards shard ≠ next.lastConfig.shards shard →
          next.lastConfig.shards shard ∈ joining ∧
            next.lastConfig.shards shard ∉ csm.lastConfig.groups) := by
  have properNew := zero_notMem_joinGroups proper positive
  have kept : ∀ {gid}, gid ∈ csm.lastConfig.groups →
      gid ∈ CtrlerStateMachine.joinGroups csm.lastConfig.groups joining :=
    fun old => CtrlerStateMachine.mem_joinGroups.mpr (.inl old)
  have old := served ⟨0, by decide⟩
  have start := CtrlerStateMachine.balancing_gatherShards (.inr served) (kept old)
    (fun zero => proper (zero ▸ old))
  have bound : Balance.imbalance csm.lastConfig.shards ≤ nShards * nShards := by
    simpa using Balance.imbalance_le csm.lastConfig.shards
  have enough : Balance.imbalance (storeShards (gatherShards
      (CtrlerStateMachine.joinGroups csm.lastConfig.groups joining) csm.lastConfig.shards)) <
      2 * (nShards + nShards * nShards) := by
    rw [storeShards_gatherShards]
    unfold nShards at *
    omega
  obtain ⟨balanced, done, -, shifts, level⟩ :=
    start.rebalance_of_none (shardsOf_gatherShards_zero proper served _) enough
  rw [storeShards_gatherShards] at shifts
  have taken : ∀ {gid}, gid ∈ takers (CtrlerStateMachine.joinGroups csm.lastConfig.groups joining) ↔
      gid ∈ CtrlerStateMachine.joinGroups csm.lastConfig.groups joining :=
    mem_takers_iff properNew
  have within : ∀ shard, csm.lastConfig.shards shard ∈
      takers (CtrlerStateMachine.joinGroups csm.lastConfig.groups joining) :=
    fun shard => taken.mpr (kept (served shard))
  have leveling := (Leveling.refl within).run shifts
  have groupsNow : ∀ shard, storeShards balanced shard ∈
      CtrlerStateMachine.joinGroups csm.lastConfig.groups joining :=
    fun shard => taken.mp (leveling.within shard)
  refine ⟨_, CtrlerStateMachine.join_eq done, ?_⟩
  rw [CtrlerStateMachine.lastConfig_add]
  refine ⟨rfl, fun gid => CtrlerStateMachine.mem_joinGroups,
    ⟨⟨_, groupsNow, (levelOver_iff properNew).mpr level, rfl⟩, ?_⟩, ?_⟩
  · rintro _ ⟨other, otherWithin, otherLevel, rfl⟩
    exact leveling.moved_le level within (fun shard => taken.mpr (otherWithin shard))
      ((levelOver_iff properNew).mp otherLevel)
  · intro oldLevel shard differs
    have fresh : storeShards balanced shard ∉ takers csm.lastConfig.groups := by
      refine leveling.notMem_of_moved ?_ (fun shard => (mem_takers_iff proper).mpr (served shard))
        ((levelOver_iff proper).mp oldLevel) differs
      exact fun gid taker => taken.mpr (kept ((mem_takers_iff proper).mp taker))
    rw [mem_takers_iff proper] at fresh
    exact ⟨(CtrlerStateMachine.mem_joinGroups.mp (groupsNow shard)).resolve_left fresh, fresh⟩

/-- Group 7 has to get three shards and group 2 two, all of them from group 1. -/
theorem join_moves_least_moved : ∃ next,
    movedCtrler.join (AList.singleton 7 ["c"]) = some next ∧
    moved movedCtrler.lastConfig.shards next.lastConfig.shards = 5 ∧
    ∀ other : Shard → Int, (∀ shard, other shard ∈ next.lastConfig.groups) →
      LevelOver next.lastConfig.groups other → 5 ≤ moved movedCtrler.lastConfig.shards other := by
  have proper : (0 : Int) ∉ movedCtrler.lastConfig.groups := by decide
  have served : ∀ shard, movedCtrler.lastConfig.shards shard ∈ movedCtrler.lastConfig.groups := by
    decide
  obtain ⟨next, joined, -, -, least, -⟩ :=
    join_moves_least proper served (show ∀ gid ∈ (AList.singleton 7 ["c"] : Groups).keys, 0 < gid
      by decide)
  have five : moved movedCtrler.lastConfig.shards next.lastConfig.shards = 5 := by
    have result : (movedCtrler.join (AList.singleton 7 ["c"])).map (fun csm =>
        moved movedCtrler.lastConfig.shards csm.lastConfig.shards) = some 5 := by decide +kernel
    rw [joined] at result
    exact Option.some.inj result
  refine ⟨next, joined, five, ?_⟩
  intro other within level
  rw [← five]
  exact least.2 ⟨other, within, level, rfl⟩

/-- Shards that are dealt out to the smallest group one by one keep the numbers level. -/
theorem Leaving.reassign_level {unassigned : List Shard}
    (leaving : Leaving table groups unassigned) (group : gid ∈ groups) (nonzero : gid ≠ 0)
    (level : Level (takers groups) fun gid => (shardsOf table gid).length) :
    Level (takers groups) fun gid =>
      (shardsOf (ShardCtrler.reassign unassigned table) gid).length := by
  induction unassigned generalizing table with
  | nil => exact level
  | cons first unassigned inductionHypothesis =>
      have least : ∀ other ∈ takers groups, (shardsOf table (gidWithMinShards table)).length ≤
          (shardsOf table other).length := by
        intro other taker
        obtain ⟨otherNonzero, member⟩ := mem_takers.mp taker
        exact min_length_le ((leaving.keyed other otherNonzero).mpr member) otherNonzero
          (leaving.orderly.length_le other)
      have grown : (fun gid => (shardsOf (pushShard table (gidWithMinShards table) first)
          gid).length) = Function.update (fun gid => (shardsOf table gid).length)
            (gidWithMinShards table) ((shardsOf table (gidWithMinShards table)).length + 1) := by
        funext gid
        by_cases same : gid = gidWithMinShards table
        · rw [same, Function.update_self, shardsOf_pushShard_self, List.length_append]
          rfl
        · rw [Function.update_of_ne same, shardsOf_pushShard_of_ne same]
      refine inductionHypothesis (leaving.push group nonzero) ?_
      rw [grown]
      exact level.raise least

section Leave

variable {config : Config} {gids : List Int}

/-- The groups that are left. -/
abbrev remainingGroups (config : Config) (gids : List Int) : Groups :=
  (CtrlerStateMachine.removeGids config.groups (gatherShards config.groups config.shards) gids).1

theorem mem_remainingGroups :
    gid ∈ remainingGroups config gids ↔ gid ∈ config.groups ∧ gid ∉ gids :=
  (removeGids_spec _ _ gids).1 gid

theorem remaining_nonzero (proper : (0 : Int) ∉ config.groups)
    (left : gid ∈ remainingGroups config gids) : gid ≠ 0 :=
  fun zero => proper (zero ▸ (mem_remainingGroups.mp left).1)

/-- The tables of `Leave` list every shard of a configuration once. -/
theorem leaving_leaveShards (proper : (0 : Int) ∉ config.groups)
    (served : ∀ shard, config.shards shard ∈ config.groups)
    (left : gid ∈ remainingGroups config gids) :
    Leaving (leaveShards config.groups config.shards gids) (remainingGroups config gids) [] :=
  ((leaving_gatherShards fun shard => .inr (served shard)).removeGids gids).reassign left
    (remaining_nonzero proper left)

/-- A shard whose group stays is listed where it was. -/
theorem mem_shardsOf_leaveShards {shard : Shard} (stays : config.shards shard ∉ gids) :
    shard ∈ shardsOf (leaveShards config.groups config.shards gids) (config.shards shard) := by
  obtain ⟨-, kept, -⟩ := removeGids_spec config.groups
    (gatherShards config.groups config.shards) gids
  refine (reassign_spec _ _).1 _ shard ?_
  rw [kept, if_neg stays]
  exact mem_shardsOf_gatherShards.mpr rfl

theorem level_leaveShards (proper : (0 : Int) ∉ config.groups)
    (served : ∀ shard, config.shards shard ∈ config.groups)
    (left : gid ∈ remainingGroups config gids) (level : LevelOver config.groups config.shards) :
    Level (takers (remainingGroups config gids))
      fun gid => (shardsOf (leaveShards config.groups config.shards gids) gid).length := by
  obtain ⟨-, kept, -⟩ := removeGids_spec config.groups
    (gatherShards config.groups config.shards) gids
  refine ((leaving_gatherShards fun shard => .inr (served shard)).removeGids gids).reassign_level
    left (remaining_nonzero proper left) ?_
  -- the groups that are left have what they had
  have same : ∀ gid ∈ takers (remainingGroups config gids), gid ∈ config.groups ∧
      (shardsOf (CtrlerStateMachine.removeGids config.groups
        (gatherShards config.groups config.shards) gids).2.1 gid).length =
      load config.shards gid := by
    intro gid taker
    obtain ⟨group, stays⟩ := mem_remainingGroups.mp (mem_takers.mp taker).2
    have orderly := orderly_gatherShards config.groups config.shards
    refine ⟨group, ?_⟩
    rw [kept, if_neg stays, orderly.length_eq (covers_gatherShards _ _), storeShards_gatherShards]
  intro one taker two among
  obtain ⟨oneGroup, oneLoad⟩ := same one taker
  obtain ⟨twoGroup, twoLoad⟩ := same two among
  dsimp only
  rw [oneLoad, twoLoad]
  exact level one oneGroup two twoGroup

end Leave

/-- `Leave` moves the shards of the groups that leave, to groups that are left, and no
others.  Its table lists every shard once.  Numbers of shards that were level stay level. -/
theorem leave_moves_least {csm : CtrlerStateMachine}
    (proper : (0 : Int) ∉ csm.lastConfig.groups)
    (served : ∀ shard, csm.lastConfig.shards shard ∈ csm.lastConfig.groups) (gids : List Int) :
    ∃ config, (csm.leave gids).lastConfig = config ∧
      csm.leave gids = csm.add config.shards config.groups ∧
      (∀ gid, gid ∈ config.groups ↔ gid ∈ csm.lastConfig.groups ∧ gid ∉ gids) ∧
      ((∃ gid, gid ∈ config.groups) →
        (∀ shard, csm.lastConfig.shards shard ∉ gids →
          config.shards shard = csm.lastConfig.shards shard) ∧
        (∀ shard, csm.lastConfig.shards shard ∈ gids → config.shards shard ∈ config.groups) ∧
        (config.shards =
            storeShards (leaveShards csm.lastConfig.groups csm.lastConfig.shards gids) ∧
          (∀ gid, (shardsOf (leaveShards csm.lastConfig.groups csm.lastConfig.shards gids)
            gid).Nodup) ∧
          ∀ shard, ∃! gid, shard ∈
            shardsOf (leaveShards csm.lastConfig.groups csm.lastConfig.shards gids) gid) ∧
        (LevelOver csm.lastConfig.groups csm.lastConfig.shards →
          LevelOver config.groups config.shards)) ∧
      ((∀ gid, gid ∉ config.groups) → ∀ shard, config.shards shard = 0) := by
  refine ⟨_, rfl, ?_⟩
  have zeroOut : (0 : Int) ∉ remainingGroups csm.lastConfig gids :=
    fun zero => proper (mem_remainingGroups.mp zero).1
  rcases csm.leave_cases gids with ⟨some_left, result⟩ | ⟨none_left, result⟩
  · obtain ⟨first, group⟩ := List.exists_mem_of_ne_nil _ some_left
    have left : first ∈ remainingGroups csm.lastConfig gids := group
    have leaving := leaving_leaveShards proper served left
    have covers := covers_leaveShards csm.lastConfig.groups csm.lastConfig.shards gids
    have nothing : shardsOf (leaveShards csm.lastConfig.groups csm.lastConfig.shards gids) 0 = [] :=
      shardsOf_leaveShards_zero (fun shard zero => proper (zero ▸ served shard)) gids
    rw [result, CtrlerStateMachine.lastConfig_add]
    refine ⟨rfl, fun gid => mem_remainingGroups, fun _ => ⟨?_, ?_, ?_, ?_⟩, ?_⟩
    · exact fun shard stays => (leaving.orderly.mem_iff covers).mp (mem_shardsOf_leaveShards stays)
    · exact fun shard _ => leaving.keyed.storeShards_mem covers nothing shard
    · refine ⟨rfl, leaving.orderly.nodup, fun shard => ?_⟩
      exact ⟨_, mem_shardsOf_storeShards covers shard,
        fun gid listed => leaving.orderly.single listed (mem_shardsOf_storeShards covers shard)⟩
    · intro level
      have lengths := level_leaveShards proper served left level
      simp only [leaving.orderly.length_eq covers] at lengths
      exact (levelOver_iff zeroOut).mpr lengths
    · exact fun none => absurd left (none first)
  · rw [result, CtrlerStateMachine.lastConfig_add]
    refine ⟨rfl, fun gid => mem_remainingGroups, ?_, fun _ _ => rfl⟩
    rintro ⟨gid, left⟩
    exact absurd left (keys_eq_nil.mp none_left gid)

/-- Of three groups with level numbers of shards one leaves. -/
def threeGroups : CtrlerStateMachine :=
  ctrlerSystem.after (fun _ _ => true) .new
    [.join (AList.singleton 1 ["a"]), .join (AList.singleton 2 ["b"]),
     .join (AList.singleton 3 ["c"])]

theorem leave_moves_least_three :
    (∀ shard, threeGroups.lastConfig.shards shard ∈ [1, 3] →
      (threeGroups.leave [2, 0, 9, 2]).lastConfig.shards shard =
        threeGroups.lastConfig.shards shard) ∧
    LevelOver (threeGroups.leave [2, 0, 9, 2]).lastConfig.groups
      (threeGroups.leave [2, 0, 9, 2]).lastConfig.shards := by
  have proper : (0 : Int) ∉ threeGroups.lastConfig.groups := by decide +kernel
  have served : ∀ shard, threeGroups.lastConfig.shards shard ∈ threeGroups.lastConfig.groups := by
    decide +kernel
  obtain ⟨config, last, -, groupsLeft, moves, -⟩ :=
    leave_moves_least proper served [2, 0, 9, 2]
  have remains : (1 : Int) ∈ config.groups := (groupsLeft 1).mpr (by decide +kernel)
  obtain ⟨stays, -, -, level⟩ := moves ⟨1, remains⟩
  have levelBefore : ∀ gid ∈ threeGroups.lastConfig.groups.keys,
      ∀ other ∈ threeGroups.lastConfig.groups.keys,
      load threeGroups.lastConfig.shards gid ≤ load threeGroups.lastConfig.shards other + 1 := by
    decide +kernel
  rw [last]
  refine ⟨?_, level ?_⟩
  · intro shard other
    refine stays shard ?_
    revert shard
    decide +kernel
  · exact fun gid group other among => levelBefore gid group other among

end MultiRaft.ShardCtrler
