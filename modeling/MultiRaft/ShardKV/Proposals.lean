import MultiRaft.ShardKV.Step
import MultiRaft.ShardCtrler.Assignment

/-!
# Where the commands of the journal come from

Every command was put together by a task or a remote call from what some group had
applied before.  This is all that later arguments use of a run: they follow the
groups through the times of one journal.
-/

namespace MultiRaft.Shardkv

open ShardCtrler (Config Shard Groups CtrlerStateMachine defaultConfig)
open KVRaft (Op)

namespace ShardCluster

variable {cluster next : ShardCluster} {event : ShardEvent}

/-- The configuration with a number, once the controller has made it. -/
def config (cluster : ShardCluster) (num : Nat) : Config :=
  cluster.ctrler.configs[num]?.getD defaultConfig

/-- The group that a configuration gives a shard to. -/
def owner (cluster : ShardCluster) (num : Nat) (shard : Shard) : Int :=
  (cluster.config num).shards shard

/-- The number of the configuration a group is in. -/
def num (cluster : ShardCluster) (gid : Int) (time : Nat) : Nat :=
  (cluster.group gid time).currentConfig.num

def status (cluster : ShardCluster) (gid : Int) (time : Nat) (shard : Shard) : ShardStatus :=
  ((cluster.group gid time).shards shard).status

/-- A command that may reach the log of a group at a time. -/
inductive Proposed (cluster : ShardCluster) (time : Nat) (gid : Int) : RaftCommand → Prop
  | client (read : Nat) (op : Op) (earlier : read ≤ time)
      (accepted : (cluster.group gid read).accepts op = true) :
      Proposed cluster time gid (.clientOperation op)
  | config (read : Nat) (config : Config) (earlier : read ≤ time)
      (idle : (cluster.group gid read).needFetch = true)
      (found : cluster.ctrler.configs[cluster.num gid read + 1]? = some config) :
      Proposed cluster time gid (.configChange config)
  | migration (read : Nat) (source : Int) (sourceRead : Nat) (shardIds : List Shard)
      (earlier : read ≤ time) (sourceEarlier : sourceRead ≤ time)
      (calls : (cluster.group gid read).calls .moveIn source shardIds = true)
      (reached : cluster.num gid read ≤ cluster.num source sourceRead) :
      Proposed cluster time gid (.shardMigration
        ((cluster.group source sourceRead).getShardsData (cluster.request gid read shardIds)))
  | gc (requester : Int) (read : Nat) (source : Int) (shardIds : List Shard)
      (earlier : read ≤ time)
      (calls : (cluster.group requester read).calls .gc source shardIds = true)
      (addressed : gid = requester ∨ gid = source) :
      Proposed cluster time gid (.shardGC (cluster.request requester read shardIds))

/-- Later commands and configurations leave a proposal what it was. -/
theorem Proposed.mono {time : Nat} {gid : Int} {command : RaftCommand}
    (proposed : cluster.Proposed time gid command)
    (past : ∀ group read, read ≤ time → next.group group read = cluster.group group read)
    (kept : cluster.ctrler.configs <+: next.ctrler.configs) :
    next.Proposed time gid command := by
  cases proposed with
  | client read op earlier accepted =>
      exact .client read op earlier (by rw [past gid read earlier]; exact accepted)
  | config read config earlier idle found =>
      refine .config read config earlier (by rw [past gid read earlier]; exact idle) ?_
      simp only [num, past gid read earlier] at found ⊢
      obtain ⟨rest, grown⟩ := kept
      rw [← grown, List.getElem?_append_left (List.getElem?_eq_some_iff.mp found).1]
      exact found
  | migration read source sourceRead shardIds earlier sourceEarlier calls reached =>
      have same : next.request gid read shardIds = cluster.request gid read shardIds := by
        simp only [request, past gid read earlier]
      rw [← past source sourceRead sourceEarlier, ← same]
      refine .migration read source sourceRead shardIds earlier sourceEarlier ?_ ?_
      · rw [past gid read earlier]
        exact calls
      · simp only [num, past gid read earlier, past source sourceRead sourceEarlier]
        exact reached
  | gc requester read source shardIds earlier calls addressed =>
      have same : next.request requester read shardIds =
          cluster.request requester read shardIds := by
        simp only [request, past requester read earlier]
      rw [← same]
      refine .gc requester read source shardIds earlier ?_ addressed
      rw [past requester read earlier]
      exact calls

structure Legal (cluster : ShardCluster) : Prop where
  first : cluster.ctrler.configs[0]? = some defaultConfig
  numbered : ∀ (number : Nat) (config : Config),
    cluster.ctrler.configs[number]? = some config → config.num = number
  positive : ∀ (time : Nat) gid command, cluster.journal[time]? = some (gid, command) → 0 < gid
  proposed : ∀ (time : Nat) gid command, cluster.journal[time]? = some (gid, command) →
    cluster.Proposed time gid command

/-- `Query` gives the asked configuration, or one with a smaller number. -/
theorem Legal.query_next (legal : cluster.Legal) {number : Nat}
    (asked : (cluster.ctrler.query (number + 1)).num = number + 1) :
    cluster.ctrler.configs[number + 1]? = some (cluster.ctrler.query (number + 1)) := by
  by_cases there : number + 1 < cluster.ctrler.configs.length
  · have inside : ¬((number : Int) + 1 < 0 ∨
        (number : Int) + 1 ≥ cluster.ctrler.configs.length) := by omega
    have index : ((number : Int) + 1).toNat = number + 1 := by omega
    simp only [CtrlerStateMachine.query, if_neg inside, index]
    rw [List.getElem?_eq_getElem there]
    rfl
  · have outside : (number : Int) + 1 < 0 ∨
        (number : Int) + 1 ≥ cluster.ctrler.configs.length := by omega
    simp only [CtrlerStateMachine.query, if_pos outside, CtrlerStateMachine.lastConfig,
      List.getLast?_eq_getElem?] at asked
    have nonempty := (List.getElem?_eq_some_iff.mp legal.first).1
    have last := List.getElem?_eq_getElem
      (show cluster.ctrler.configs.length - 1 < cluster.ctrler.configs.length by omega)
    have small := legal.numbered _ _ last
    rw [last] at asked
    simp only [Option.getD_some] at asked
    omega

theorem commit_eq {gid : Int} {command : RaftCommand}
    (committed : cluster.commit gid command = some next) :
    0 < gid ∧ next = { cluster with journal := cluster.journal ++ [(gid, command)] } := by
  unfold commit at committed
  split at committed
  · rename_i positive
    cases committed
    exact ⟨positive, rfl⟩
  · cases committed

theorem calls_of_migrate {gid source : Int} {time sourceTime : Nat} {shardIds : List Shard}
    (ok : ((cluster.group source sourceTime).getShardsData
      (cluster.request gid time shardIds)).err = .ok) :
    cluster.num gid time ≤ cluster.num source sourceTime := by
  unfold ShardKV.getShardsData at ok
  split at ok
  · cases ok
  · rename_i reached
    exact Nat.le_of_not_lt reached

/-- A step adds a configuration or a command. -/
theorem step_cases (legal : cluster.Legal) (stepped : cluster.step event = some next) :
    (∃ shards groups,
      (cluster.ctrler.lastConfig.Assigned → next.ctrler.lastConfig.Assigned) ∧
      next = { cluster with ctrler := cluster.ctrler.add shards groups }) ∨
    (∃ gid command, 0 < gid ∧ cluster.Proposed cluster.now gid command ∧
      (∀ op, command = .clientOperation op → ∃ time, event = .client gid time op) ∧
      next = { cluster with journal := cluster.journal ++ [(gid, command)] }) := by
  cases event with
  | join groups =>
      simp only [step, join] at stepped
      split at stepped
      · rename_i positive
        obtain ⟨ctrler, joined, rfl⟩ := Option.map_eq_some_iff.mp stepped
        obtain ⟨gidToShards, -, added⟩ := Option.bind_eq_some_iff.mp joined
        have keeps := fun assigned =>
          CtrlerStateMachine.join_assigned assigned positive joined
        cases added
        exact .inl ⟨_, _, keeps, rfl⟩
      · cases stepped
  | leave gids =>
      cases stepped
      obtain ⟨shards, groups, added⟩ :
          ∃ shards groups, cluster.ctrler.leave gids = cluster.ctrler.add shards groups := by
        rcases cluster.ctrler.leave_cases gids with ⟨-, left⟩ | ⟨-, left⟩
        · exact ⟨_, _, left⟩
        · exact ⟨_, _, left⟩
      refine .inl ⟨shards, groups, CtrlerStateMachine.leave_assigned, ?_⟩
      rw [leave, added]
  | move shard gid =>
      simp only [step, move] at stepped
      split at stepped
      · rename_i group
        cases stepped
        exact .inl ⟨_, _, fun assigned => CtrlerStateMachine.move_assigned assigned group, rfl⟩
      · cases stepped
  | client gid time op =>
      simp only [step, client] at stepped
      split at stepped
      · rename_i allowed
        obtain ⟨positive, rfl⟩ := commit_eq stepped
        refine .inr ⟨gid, _, positive, .client time op allowed.1 allowed.2, ?_, rfl⟩
        intro same is
        cases is
        exact ⟨time, rfl⟩
      · cases stepped
  | fetchConfig gid time =>
      simp only [step, fetchConfig] at stepped
      split at stepped
      · rename_i allowed
        obtain ⟨positive, rfl⟩ := commit_eq stepped
        refine .inr ⟨gid, _, positive, ?_, by simp, rfl⟩
        exact .config time _ allowed.1 allowed.2.1 (legal.query_next allowed.2.2)
      · cases stepped
  | migrate gid time source sourceTime shardIds =>
      simp only [step, migrate] at stepped
      split at stepped
      · rename_i allowed
        obtain ⟨positive, rfl⟩ := commit_eq stepped
        refine .inr ⟨gid, _, positive, ?_, by simp, rfl⟩
        exact .migration time source sourceTime shardIds allowed.1 allowed.2.1 allowed.2.2.1
          (calls_of_migrate allowed.2.2.2)
      · cases stepped
  | delete gid time source sourceTime shardIds =>
      simp only [step, delete] at stepped
      split at stepped
      · rename_i allowed
        obtain ⟨command, asked, committed⟩ := Option.bind_eq_some_iff.mp stepped
        obtain ⟨positive, rfl⟩ := commit_eq committed
        unfold ShardKV.deleteShardsData at asked
        split at asked
        · cases asked
        · cases asked
          refine .inr ⟨source, _, positive, ?_, by simp, rfl⟩
          exact .gc gid time source shardIds allowed.1 allowed.2.2 (.inr rfl)
      · cases stepped
  | collect gid time source answered shardIds =>
      simp only [step, collect] at stepped
      split at stepped
      · rename_i allowed
        obtain ⟨positive, rfl⟩ := commit_eq stepped
        refine .inr ⟨gid, _, positive, ?_, by simp, rfl⟩
        exact .gc gid time source shardIds allowed.1 allowed.2.2.1 (.inl rfl)
      · cases stepped

theorem group_of_journal_append {entry : Int × RaftCommand} {gid : Int} {time : Nat}
    (past : time ≤ cluster.now) :
    ({ cluster with journal := cluster.journal ++ [entry] } : ShardCluster).group gid time =
      cluster.group gid time :=
  Journal.stateAt_append [entry] past

theorem Legal.step (legal : cluster.Legal) (stepped : cluster.step event = some next) :
    next.Legal := by
  rcases step_cases legal stepped with
    ⟨shards, groups, -, rfl⟩ | ⟨gid, command, positive, proposed, -, rfl⟩
  · have kept : cluster.ctrler.configs <+: (cluster.ctrler.add shards groups).configs :=
      List.prefix_append _ _
    refine ⟨?_, ?_, legal.positive, ?_⟩
    · obtain ⟨rest, grown⟩ := kept
      simp only [← grown]
      rw [List.getElem?_append_left (List.getElem?_eq_some_iff.mp legal.first).1]
      exact legal.first
    · exact CtrlerStateMachine.num_of_add legal.numbered
    · intro time gid command applied
      exact (legal.proposed time gid command applied).mono (fun _ _ _ => rfl) kept
  · refine ⟨legal.first, legal.numbered, ?_, ?_⟩
    · intro time other given applied
      rcases getElem?_concat applied with old | ⟨-, new⟩
      · exact legal.positive time other given old
      · cases new
        exact positive
    · intro time other given applied
      rcases getElem?_concat applied with old | ⟨rfl, new⟩
      · have early : time ≤ cluster.now := Nat.le_of_lt (List.getElem?_eq_some_iff.mp old).1
        exact (legal.proposed time other given old).mono
          (fun _ _ past => group_of_journal_append (Nat.le_trans past early)) List.prefix_rfl
      · cases new
        exact proposed.mono (fun _ _ past => group_of_journal_append past) List.prefix_rfl

theorem legal_initial : ShardCluster.initial.Legal := by
  refine ⟨rfl, CtrlerStateMachine.num_of_new, ?_, ?_⟩
  · simp [initial]
  · simp [initial]

theorem legal_of_reachable {allowed : ShardCluster → ShardEvent → Prop}
    (reached : shardSystem.Reachable allowed cluster) : cluster.Legal := by
  have start : ∀ state, shardSystem.init state → state.Legal := by
    rintro _ rfl
    exact legal_initial
  apply reached.preserves start
  intro state event next legal _ stepped
  exact legal.step stepped

end ShardCluster

end MultiRaft.Shardkv
