import MultiRaft.ShardKV.Exactness

/-!
# No write is applied twice

The record of a write in the duplicate table follows its shard: a group keeps what
its table knows, and a group that takes a shard in also takes in what the table of the
previous owner knew after it had stopped serving.
-/

namespace MultiRaft.Shardkv

open ShardCtrler (Config Shard)
open KVRaft (Op)

namespace ShardKV

variable {kv : ShardKV} {clientId seqId : Nat}

theorem requestDuplicated_iff : kv.requestDuplicated clientId seqId = true ↔
    ∃ info, kv.duplicateTable clientId = some info ∧ seqId ≤ info.seqId := by
  unfold requestDuplicated
  cases kv.duplicateTable clientId <;> simp

theorem applyToStateMachine_table (kv : ShardKV) (op : Op) (shard : Shard) :
    (kv.applyToStateMachine op shard).1.duplicateTable = kv.duplicateTable := by
  unfold applyToStateMachine
  cases op.opType <;> rfl

/-- What an operation that changes anything is, and what it leaves in the table. -/
structure Executes (kv : ShardKV) (op : Op) : Prop where
  write : op.opType ≠ .get
  serves : kv.matchGroup op.key = true
  fresh : kv.requestDuplicated op.clientId op.seqId = false

theorem applyClientOperation_cases (kv : ShardKV) (op : Op) :
    (kv.applyClientOperation op).1 = kv ∨
      (kv.Executes op ∧ ∃ reply, (kv.applyClientOperation op).1.duplicateTable =
        Function.update kv.duplicateTable op.clientId (some { seqId := op.seqId, reply })) := by
  unfold applyClientOperation
  split
  · rename_i serves
    split
    · exact .inl rfl
    · rename_i fresh
      by_cases write : op.opType = .get
      · left
        simp [applyToStateMachine, write]
      · right
        refine ⟨⟨write, serves, by simpa [write] using fresh⟩, ?_, ?_⟩
        · exact (kv.applyToStateMachine op (key2shard op.key)).2
        · dsimp only
          rw [if_pos write]
          dsimp only
          rw [applyToStateMachine_table]
  · exact .inl rfl

theorem mergeDuplicates_cases (old data : DuplicateTable) {info : LastOperationInfo}
    (known : old clientId = some info ∨ data clientId = some info) :
    ∃ merged, mergeDuplicates old data clientId = some merged ∧ info.seqId ≤ merged.seqId := by
  unfold mergeDuplicates
  grind

/-- What a table knows it does not forget. -/
theorem requestDuplicated_apply (command : RaftCommand)
    (known : kv.requestDuplicated clientId seqId = true) :
    (kv.apply command).1.requestDuplicated clientId seqId = true := by
  rw [requestDuplicated_iff] at known ⊢
  obtain ⟨info, found, bound⟩ := known
  cases command with
  | clientOperation op =>
      rcases applyClientOperation_cases kv op with same | ⟨executes, reply, table⟩
      · rw [apply, same]
        exact ⟨info, found, bound⟩
      · rw [apply, table]
        by_cases here : clientId = op.clientId
        · subst here
          have fresh := executes.fresh
          simp only [requestDuplicated, found, decide_eq_false_iff_not] at fresh
          exact ⟨_, Function.update_self .., by dsimp only; omega⟩
        · rw [Function.update_of_ne here]
          exact ⟨info, found, bound⟩
  | configChange config =>
      simp only [apply, applyNewConfig]
      split <;> exact ⟨info, found, bound⟩
  | shardMigration data =>
      by_cases current : data.configNum = kv.currentConfig.num
      · obtain ⟨merged, here, more⟩ := mergeDuplicates_cases _ data.duplicateTable (.inl found)
        rw [apply, duplicateTable_of_migration current]
        exact ⟨merged, here, Nat.le_trans bound more⟩
      · rw [apply, applyShardMigration, if_neg current]
        exact ⟨info, found, bound⟩
  | shardGC args =>
      obtain ⟨-, -, -, table⟩ := collectShards_frame kv args.shardIds
      simp only [apply, applyShardGC]
      split
      · rw [table]
        exact ⟨info, found, bound⟩
      · exact ⟨info, found, bound⟩

end ShardKV

namespace ShardCluster

variable {cluster next : ShardCluster} {event : ShardEvent} {gid other : Int}
  {time later : Nat} {shard : Shard} {number : Nat} {clientId seqId : Nat} {op : Op}

/-- A client does not use the number of one write for another. -/
def numbersWrites (cluster : ShardCluster) : ShardEvent → Bool
  | .client _ _ op => cluster.journal.all fun entry =>
      match entry.2 with
      | .clientOperation old => decide (old.opType ≠ .get → op.opType ≠ .get →
          old.clientId = op.clientId → old.seqId = op.seqId → old = op)
      | _ => true
  | _ => true

/-- One number, one write. -/
def Numbered (cluster : ShardCluster) : Prop :=
  ∀ (time later : Nat) (gid other : Int) (op again : Op), time ≤ later →
    cluster.journal[time]? = some (gid, .clientOperation op) →
    cluster.journal[later]? = some (other, .clientOperation again) →
    op.opType ≠ .get → again.opType ≠ .get →
    op.clientId = again.clientId → op.seqId = again.seqId → op = again

theorem Numbered.step (numbered : cluster.Numbered) (legal : cluster.Legal)
    (guarded : cluster.numbersWrites event = true) (stepped : cluster.step event = some next) :
    next.Numbered := by
  rcases step_cases legal stepped with ⟨shards, groups, -, rfl⟩ | ⟨gid, command, -, -, sent, rfl⟩
  · exact numbered
  · intro time later holder other op again ordered applied applied'
    rcases getElem?_concat applied' with old' | ⟨rfl, new⟩
    · have within : time < cluster.now :=
        Nat.lt_of_le_of_lt ordered (List.getElem?_eq_some_iff.mp old').1
      rcases getElem?_concat applied with old | ⟨rfl, -⟩
      · exact numbered time later holder other op again ordered old old'
      · exact absurd within (Nat.lt_irrefl _)
    · cases new
      rcases getElem?_concat applied with old | ⟨-, same⟩
      · obtain ⟨read, rfl⟩ := sent again rfl
        have every := List.all_eq_true.mp guarded _ (List.mem_of_getElem? old)
        simpa only [decide_eq_true_eq] using every
      · cases same
        exact fun _ _ _ _ => rfl

theorem numbered_of_reachable {allowed : ShardCluster → ShardEvent → Prop}
    (guarded : ∀ state event, allowed state event → state.numbersWrites event = true)
    (reached : shardSystem.Reachable allowed cluster) : cluster.Numbered := by
  have start : ∀ state, shardSystem.init state → state.Numbered := by
    rintro _ rfl
    intro time later gid other op again _ applied
    simp [initial] at applied
  refine reached.invariant start ?_
  intro state event next before numbered allows stepped
  exact numbered.step (legal_of_reachable before) (guarded state event allows) stepped

/-- The duplicate table of a group covers a write. -/
def Knows (cluster : ShardCluster) (gid : Int) (time clientId seqId : Nat) : Prop :=
  (cluster.group gid time).requestDuplicated clientId seqId = true

theorem Knows.mono (ordered : time ≤ later) (knows : cluster.Knows gid time clientId seqId) :
    cluster.Knows gid later clientId seqId := by
  apply group_preserves (fun kv => kv.requestDuplicated clientId seqId = true) ordered knows
  intro _ command _ _ _ known
  exact ShardKV.requestDuplicated_apply command known

/-- The table comes with the shard. -/
theorem Legal.knows_of_takes (legal : cluster.Legal)
    (takes : cluster.Takes time gid (number + 1) shard) :
    ∃ read ≤ time, number + 1 ≤ cluster.num (cluster.owner number shard) read ∧
      (cluster.Knows (cluster.owner number shard) read clientId seqId →
        cluster.Knows gid (time + 1) clientId seqId) := by
  obtain ⟨read, early, far, -, table⟩ := legal.takes_from_owner takes
  refine ⟨read, early, far, ?_⟩
  unfold Knows
  rw [ShardKV.requestDuplicated_iff, ShardKV.requestDuplicated_iff, table]
  rintro ⟨info, found, bound⟩
  obtain ⟨merged, here, more⟩ := ShardKV.mergeDuplicates_cases
    (cluster.group gid time).duplicateTable _ (.inr found)
  exact ⟨merged, here, Nat.le_trans bound more⟩

/-- Whoever has the shard after a write on it knows the write. -/
theorem Legal.knows_of_passed (legal : cluster.Legal) (populated : cluster.Populated)
    (positive : 0 < gid) (serves : cluster.Serves gid time shard)
    (knows : cluster.Knows gid (time + 1) clientId seqId)
    (after : cluster.num gid time ≤ number) (holder : 0 < cluster.owner number shard)
    (passed : (cluster.group (cluster.owner number shard) later).Passed number shard)
    (ordered : time < later) :
    cluster.Knows (cluster.owner number shard) later clientId seqId := by
  have owned : 0 < cluster.owner (cluster.num gid time) shard := serves.1.symm ▸ positive
  -- from one owner to the next, starting with the group that applied the write
  induction number, after using Nat.le_induction generalizing later with
  | base =>
      rw [serves.1]
      exact knows.mono (Nat.succ_le_of_lt ordered)
  | succ number after inductionHypothesis =>
      have reached : number + 1 ≤ cluster.num (cluster.owner (number + 1) shard) later := by
        rcases passed with beyond | ⟨here, -⟩
        · exact Nat.le_of_lt beyond
        · exact Nat.le_of_eq here.symm
      have made := legal.num_lt (cluster.owner (number + 1) shard) later
      have nonzero := populated.owner_ne_zero owned after (by omega)
      by_cases same : cluster.owner number shard = cluster.owner (number + 1) shard
      · rw [← same]
        exact inductionHypothesis (by omega) (.inl (by rw [same]; exact reached)) ordered
      · obtain ⟨moment, early, takes⟩ := legal.exists_takes rfl same nonzero passed
        obtain ⟨-, giver, -, -⟩ := legal.parties takes
        obtain ⟨read, seen, far, carries⟩ := legal.knows_of_takes takes
        have had : (cluster.group (cluster.owner number shard) read).Passed number shard :=
          .inl far
        -- the previous owner was asked when it no longer served, so after the write
        have since : time < read := by
          by_contra before
          have moved := cluster.num_mono gid (Nat.le_of_not_lt before)
          rcases Nat.eq_or_lt_of_le after with here | further
          · rw [← here, serves.1] at far
            omega
          · have past := legal.owners_past populated.homing giver had further owned
            rw [serves.1] at past
            omega
        exact (carries (inductionHypothesis giver had since)).mono early

/-- A group that serves a shard after a write on it knows the write. -/
theorem Legal.knows_of_serves (legal : cluster.Legal) (populated : cluster.Populated)
    (positive : 0 < gid) (positive' : 0 < other) (serves : cluster.Serves gid time shard)
    (knows : cluster.Knows gid (time + 1) clientId seqId) (ordered : time < later)
    (serves' : cluster.Serves other later shard) : cluster.Knows other later clientId seqId := by
  have after : cluster.num gid time ≤ cluster.num other later := by
    by_contra behind
    have past := legal.owners_past populated.homing (serves.1.symm ▸ positive)
      (by rw [serves.1]; exact serves.passed) (Nat.lt_of_not_le behind)
      (serves'.1.symm ▸ positive')
    have moved := cluster.num_mono other (Nat.le_of_lt ordered)
    rw [serves'.1] at past
    omega
  have known := legal.knows_of_passed populated positive serves knows after
    (serves'.1.symm ▸ positive') (by rw [serves'.1]; exact serves'.passed) ordered
  rw [serves'.1] at known
  exact known

theorem executes_of_change (applied : cluster.journal[time]? = some (gid, .clientOperation op))
    (changes : cluster.group gid (time + 1) ≠ cluster.group gid time) :
    (cluster.group gid time).Executes op ∧
      cluster.Knows gid (time + 1) op.clientId op.seqId := by
  rw [group_succ applied] at changes
  rcases ShardKV.applyClientOperation_cases (cluster.group gid time) op with
    same | ⟨executes, reply, table⟩
  · exact absurd same changes
  · refine ⟨executes, ?_⟩
    rw [Knows, group_succ applied, ShardKV.requestDuplicated_iff, ShardKV.apply, table]
    exact ⟨_, Function.update_self .., Nat.le_refl _⟩

/-- A write that has changed a group changes none later. -/
theorem Legal.not_again (legal : cluster.Legal) (populated : cluster.Populated)
    (ordered : time < later)
    (applied : cluster.journal[time]? = some (gid, .clientOperation op))
    (changes : cluster.group gid (time + 1) ≠ cluster.group gid time)
    (applied' : cluster.journal[later]? = some (other, .clientOperation op)) :
    cluster.group other (later + 1) = cluster.group other later := by
  by_contra changes'
  obtain ⟨executes, knows⟩ := executes_of_change applied changes
  obtain ⟨executes', -⟩ := executes_of_change applied' changes'
  have known := legal.knows_of_serves populated (legal.positive time gid _ applied)
    (legal.positive later other _ applied') (legal.matchGroup_iff.mp executes.serves) knows
    ordered (legal.matchGroup_iff.mp executes'.serves)
  exact absurd known (by rw [Knows, executes'.fresh]; exact Bool.false_ne_true)

end ShardCluster

/-- Clients that give each write its own number: of all applications of one write, to
whatever groups it is sent and wherever its shard moves, at most one changes a group,
provided that, once there is a group, every configuration has one. -/
theorem write_changes_at_most_once {cluster : ShardCluster}
    (reached : shardSystem.Reachable (fun state event =>
      state.keepsGroups event = true ∧ state.numbersWrites event = true) cluster)
    {time later : Nat} {gid other : Int} {op again : Op}
    (applied : cluster.journal[time]? = some (gid, .clientOperation op))
    (applied' : cluster.journal[later]? = some (other, .clientOperation again))
    (sameClient : op.clientId = again.clientId) (sameSeq : op.seqId = again.seqId)
    (different : time ≠ later)
    (changes : cluster.group gid (time + 1) ≠ cluster.group gid time) :
    cluster.group other (later + 1) = cluster.group other later := by
  have legal := ShardCluster.legal_of_reachable reached
  have populated := ShardCluster.populated_of_reachable (fun _ _ guarded => guarded.1) reached
  have numbered := ShardCluster.numbered_of_reachable (fun _ _ guarded => guarded.2) reached
  by_contra changes'
  have write := (ShardCluster.executes_of_change applied changes).1.write
  have write' := (ShardCluster.executes_of_change applied' changes').1.write
  rcases Nat.lt_or_gt_of_ne different with before | after
  · have same : op = again := numbered time later gid other op again (Nat.le_of_lt before)
      applied applied' write write' sameClient sameSeq
    subst same
    exact changes' (legal.not_again populated before applied changes applied')
  · have same : again = op := numbered later time other gid again op (Nat.le_of_lt after)
      applied' applied write' write sameClient.symm sameSeq.symm
    subst same
    exact changes (legal.not_again populated after applied' changes' applied)

def resentPut : Op := { key := "x", value := "v", opType := .put, clientId := 7, seqId := 0 }

/-- A server of group 1 passes a write on, and its client sends it again, to group 2, which has
taken the shard over and executes it.  Group 2 leaves, group 1 takes the shard back, and there
the first copy is applied. -/
def resentCluster : ShardCluster :=
  shardSystem.after
    (fun state event => state.keepsGroups event && state.numbersWrites event) .initial
    [.join (oneGroup 1 "a"), .fetchConfig 1 0, .join (oneGroup 2 "b"), .fetchConfig 2 0,
     .fetchConfig 2 2, .fetchConfig 1 3, .migrate 2 4 1 4 firstHalf, .client 2 5 resentPut,
     .delete 2 6 1 6 firstHalf, .collect 2 6 1 6 firstHalf, .leave [2], .fetchConfig 1 8,
     .fetchConfig 2 9, .migrate 1 10 2 10 firstHalf, .client 1 1 resentPut]

theorem write_changes_at_most_once_resent :
    resentCluster.group 2 6 ≠ resentCluster.group 2 5 ∧
      (resentCluster.group 1 11).matchGroup "x" = true ∧
      resentCluster.group 1 12 = resentCluster.group 1 11 := by
  have changes : resentCluster.group 2 6 ≠ resentCluster.group 2 5 := by
    intro same
    exact absurd (congrArg (fun kv => kv.requestDuplicated 7 0) same) (by decide +kernel)
  refine ⟨changes, by decide +kernel, ?_⟩
  have reached : shardSystem.Reachable (fun state event =>
      state.keepsGroups event = true ∧ state.numbersWrites event = true) resentCluster := by
    refine ⟨.initial, rfl, (System.run_after (fun state event =>
      ShardCluster.keepsGroups state event && ShardCluster.numbersWrites state event) _ _).mono ?_⟩
    intro state event allowed
    exact Bool.and_eq_true_iff.mp allowed
  have applied : resentCluster.journal[5]? = some (2, .clientOperation resentPut) := rfl
  exact write_changes_at_most_once reached applied rfl rfl rfl (by decide) changes

end MultiRaft.Shardkv
