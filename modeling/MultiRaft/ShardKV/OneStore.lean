import MultiRaft.KVRaft.ExactlyOnce
import MultiRaft.ShardKV.AtMostOnce

/-!
# The groups together are one key/value store

The writes that groups execute, whichever groups these are, form one row in the order of
the journal.  A group that serves a shard has in it what these writes leave in one map,
however often the shard has moved.
-/

namespace MultiRaft.Shardkv

open ShardCtrler (Config Shard)
open KVRaft (Op writeAll)

namespace ShardKV

variable {kv : ShardKV} {op : Op} {shard : Shard} {key : String}

instance (kv : ShardKV) (op : Op) : Decidable (kv.Executes op) :=
  decidable_of_iff (op.opType ≠ .get ∧ kv.matchGroup op.key = true ∧
      kv.requestDuplicated op.clientId op.seqId = false)
    ⟨fun parts => ⟨parts.1, parts.2.1, parts.2.2⟩,
      fun executes => ⟨executes.write, executes.serves, executes.fresh⟩⟩

theorem applyClientOperation_of_not (idle : ¬ kv.Executes op) :
    (kv.applyClientOperation op).1 = kv := by
  rcases applyClientOperation_cases kv op with same | ⟨executes, -⟩
  · exact same
  · exact absurd executes idle

/-- An executed write is done to the copy of its shard. -/
theorem applyClientOperation_of_executes (executes : kv.Executes op) :
    ((kv.applyClientOperation op).1.shards (key2shard op.key)).kv =
        (KVRaft.MemoryKVStateMachine.write
          { kv := (kv.shards (key2shard op.key)).kv } op).kv ∧
      ∀ other, other ≠ key2shard op.key →
        (kv.applyClientOperation op).1.shards other = kv.shards other := by
  obtain ⟨writes, serves, fresh⟩ := executes
  rw [applyClientOperation, if_pos serves, if_neg (by simp [fresh])]
  dsimp only
  rw [if_pos writes]
  dsimp only
  unfold applyToStateMachine KVRaft.MemoryKVStateMachine.write
  cases kind : op.opType with
  | get => exact absurd kind writes
  | put => exact ⟨by simp [MemoryKVStateMachine.put, KVRaft.MemoryKVStateMachine.put],
      fun other away => setShard_of_ne _ _ away⟩
  | append => exact ⟨by simp [MemoryKVStateMachine.append, KVRaft.MemoryKVStateMachine.append],
      fun other away => setShard_of_ne _ _ away⟩

end ShardKV

theorem write_kv_of_ne (mkv : KVRaft.MemoryKVStateMachine) {op : Op} {key : String}
    (other : key ≠ op.key) : (mkv.write op).kv key = mkv.kv key := by
  unfold KVRaft.MemoryKVStateMachine.write
  cases op.opType with
  | get => rfl
  | put => exact Function.update_of_ne other ..
  | append => exact Function.update_of_ne other ..

theorem write_kv_congr {one two : KVRaft.MemoryKVStateMachine} (op : Op) {key : String}
    (same : one.kv key = two.kv key) (here : one.kv op.key = two.kv op.key) :
    (one.write op).kv key = (two.write op).kv key := by
  by_cases other : key = op.key
  · subst other
    unfold KVRaft.MemoryKVStateMachine.write
    cases op.opType with
    | get => exact same
    | put => simp [KVRaft.MemoryKVStateMachine.put]
    | append => simp [KVRaft.MemoryKVStateMachine.append, here]
  · rw [write_kv_of_ne one other, write_kv_of_ne two other, same]

namespace ShardCluster

variable {cluster next : ShardCluster} {event : ShardEvent} {gid other : Int}
  {time later begun : Nat} {shard : Shard} {number : Nat} {op : Op} {key : String}

/-- The write that a group executes at a time. -/
def executed (cluster : ShardCluster) (time : Nat) : Option Op :=
  match cluster.journal[time]? with
  | some (gid, .clientOperation op) =>
      if (cluster.group gid time).Executes op then some op else none
  | _ => none

def writes (cluster : ShardCluster) (time : Nat) : List Op :=
  (List.range time).filterMap cluster.executed

/-- What the writes leave in one map. -/
def store (cluster : ShardCluster) (time : Nat) : KVRaft.MemoryKVStateMachine :=
  writeAll (cluster.writes time)

theorem executed_iff : cluster.executed time = some op ↔
    ∃ gid, cluster.journal[time]? = some (gid, .clientOperation op) ∧
      (cluster.group gid time).Executes op := by
  unfold executed
  constructor
  · intro found
    split at found
    · rename_i gid op applied
      split at found
      · rename_i executes
        cases found
        exact ⟨gid, applied, executes⟩
      · cases found
    · cases found
  · rintro ⟨gid, applied, executes⟩
    simp [applied, executes]

theorem executed_eq_none (different : ∀ gid op,
    cluster.journal[time]? = some (gid, .clientOperation op) →
      ¬ (cluster.group gid time).Executes op) : cluster.executed time = none := by
  rw [Option.eq_none_iff_forall_ne_some]
  intro op found
  obtain ⟨gid, applied, executes⟩ := executed_iff.mp found
  exact different gid op applied executes

theorem executed_of_other {command : RaftCommand}
    (applied : cluster.journal[time]? = some (gid, command))
    (different : ∀ op, command ≠ .clientOperation op) : cluster.executed time = none := by
  refine executed_eq_none fun other op applied' => ?_
  cases applied.symm.trans applied'
  exact absurd rfl (different op)

theorem writes_succ (cluster : ShardCluster) (time : Nat) :
    cluster.writes (time + 1) = cluster.writes time ++ (cluster.executed time).toList := by
  rw [writes, writes, List.range_succ, List.filterMap_append]
  cases found : cluster.executed time with
  | none => simp [found]
  | some op => simp [found]

theorem store_succ_some (found : cluster.executed time = some op) :
    cluster.store (time + 1) = (cluster.store time).write op := by
  rw [store, writes_succ, found]
  exact KVRaft.writeAll_concat _ _

theorem store_succ_none (none : cluster.executed time = none) :
    cluster.store (time + 1) = cluster.store time := by
  rw [store, writes_succ, none]
  exact congrArg writeAll (List.append_nil _)

/-- Where no write on a shard is executed, its part of the map stays. -/
theorem store_of_quiet (ordered : time ≤ later) (here : key2shard key = shard)
    (quiet : ∀ moment op, time ≤ moment → moment < later → cluster.executed moment = some op →
      key2shard op.key ≠ shard) :
    (cluster.store later).kv key = (cluster.store time).kv key := by
  induction later, ordered using Nat.le_induction with
  | base => rfl
  | succ later after inductionHypothesis =>
      have before := inductionHypothesis fun moment op first last =>
        quiet moment op first (Nat.lt_succ_of_lt last)
      cases found : cluster.executed later with
      | none => rw [store_succ_none found, before]
      | some op =>
          have away := quiet later op after (Nat.lt_succ_self _) found
          rw [store_succ_some found, write_kv_of_ne _ ?_, before]
          rintro rfl
          exact away here

theorem Legal.serves_of_executed (legal : cluster.Legal) (found : cluster.executed time = some op) :
    ∃ gid, 0 < gid ∧ cluster.journal[time]? = some (gid, .clientOperation op) ∧
      cluster.Serves gid time (key2shard op.key) := by
  obtain ⟨gid, applied, executes⟩ := executed_iff.mp found
  exact ⟨gid, legal.positive time gid _ applied, applied,
    legal.matchGroup_iff.mp executes.serves⟩

/-- A shard that is taken in comes from a group that served it, and has not been written
since. -/
theorem Legal.served_before_takes (legal : cluster.Legal) (populated : cluster.Populated)
    (takes : cluster.Takes time gid number shard) :
    ∃ source, 0 < source ∧ ∃ begun < time, cluster.Serves source begun shard ∧
      ((cluster.group gid (time + 1)).shards shard).kv =
        ((cluster.group source begun).shards shard).kv ∧
      ∀ moment op, begun ≤ moment → moment < time + 1 → cluster.executed moment = some op →
        key2shard op.key ≠ shard := by
  have shaped := (legal.shaped gid time shard).incoming (.inl takes.before)
  rw [legal.prev_owner_eq, takes.num] at shaped
  cases number with
  | zero => exact absurd (legal.owner_zero shard) shaped.2.1
  | succ number =>
      obtain ⟨taker, giver, -, -⟩ := legal.parties takes
      obtain ⟨read, early, far, content, -⟩ := legal.takes_from_owner takes
      obtain ⟨begun, before, enters⟩ := legal.exists_enters far
      refine ⟨cluster.owner number shard, giver, begun, by omega, ?_, ?_, ?_⟩
      · exact ⟨by rw [Nat.succ.inj enters.before], .inl (enters.idle shard)⟩
      · have empty := legal.empty_of_vacant populated taker (.inl takes.before)
        rw [content, ← legal.source_content takes enters before early]
        simp [MemoryKVStateMachine.merge, empty]
      · rintro moment op from_begin to_end found rfl
        obtain ⟨holder, positive, applied, serves⟩ := legal.serves_of_executed found
        rcases Nat.eq_or_lt_of_le from_begin with rfl | after
        · obtain ⟨config, -, changes⟩ := enters.applied
          rw [changes] at applied
          cases applied
        · exact legal.not_serves_between populated.homing takes enters after (by omega) positive
            serves

/-- A shard that comes from nobody has not been written. -/
theorem Legal.unwritten (legal : cluster.Legal) (populated : cluster.Populated)
    (positive : 0 < gid) (nobody : cluster.owner (cluster.num gid time) shard = 0)
    (mine : cluster.owner (cluster.num gid time + 1) shard = gid) {moment : Nat}
    (before : moment < time) (found : cluster.executed moment = some op) :
    key2shard op.key ≠ shard := by
  rintro rfl
  obtain ⟨holder, holds, -, serves⟩ := legal.serves_of_executed found
  have owned : 0 < cluster.owner (cluster.num holder moment) (key2shard op.key) :=
    serves.1.symm ▸ holds
  have made := legal.num_lt gid time
  have still := cluster.num_mono gid (Nat.le_of_lt before)
  rcases Nat.lt_trichotomy (cluster.num holder moment) (cluster.num gid time + 1) with
    earlier | same | ahead
  · exact populated.owner_ne_zero owned (Nat.le_of_lt_succ earlier) made nobody
  · have here := serves.1
    rw [same, mine] at here
    subst here
    omega
  · have passed : (cluster.group (cluster.owner (cluster.num holder moment) (key2shard op.key))
        moment).Passed (cluster.num holder moment) (key2shard op.key) := by
      rw [serves.1]
      exact serves.passed
    have past := legal.owners_past populated.homing owned passed ahead (mine.symm ▸ positive)
    rw [mine] at past
    omega

/-- A write that another group executes is on a shard that this one does not serve. -/
theorem Legal.executed_elsewhere (legal : cluster.Legal) (populated : cluster.Populated)
    (positive : 0 < gid) (serves : cluster.Serves gid time shard)
    (away : ∀ command, cluster.journal[time]? ≠ some (gid, command))
    (found : cluster.executed time = some op) : key2shard op.key ≠ shard := by
  rintro rfl
  obtain ⟨other, positive', applied, serves'⟩ := legal.serves_of_executed found
  have same := legal.serves_unique populated.homing positive positive' serves serves'
  subst same
  exact away _ applied

/-- An operation does to the served copy what it does to the map. -/
theorem served_copy_client
    (applied : cluster.journal[time]? = some (gid, .clientOperation op))
    (before : ∀ key', key2shard key' = key2shard key →
      ((cluster.group gid time).shards (key2shard key)).kv key' = (cluster.store time).kv key') :
    ((cluster.group gid (time + 1)).shards (key2shard key)).kv key =
      (cluster.store (time + 1)).kv key := by
  rw [group_succ applied, ShardKV.apply]
  by_cases executes : (cluster.group gid time).Executes op
  · rw [store_succ_some (executed_iff.mpr ⟨gid, applied, executes⟩)]
    obtain ⟨here, elsewhere⟩ := ShardKV.applyClientOperation_of_executes executes
    by_cases same : key2shard op.key = key2shard key
    · rw [← same, here]
      exact write_kv_congr op (by rw [same]; exact before key rfl)
        (by rw [same]; exact before op.key same)
    · rw [elsewhere _ (Ne.symm same), before key rfl, write_kv_of_ne]
      rintro rfl
      exact same rfl
  · rw [ShardKV.applyClientOperation_of_not executes, before key rfl, store_succ_none]
    refine executed_eq_none fun other again applied' executes' => executes ?_
    cases applied.symm.trans applied'
    exact executes'

/-- How a group has come to the copy of a shard that it serves. -/
inductive Origin (cluster : ShardCluster) (time : Nat) (gid : Int) (shard : Shard) : Prop
  | kept (serves : cluster.Serves gid time shard)
      (content : ((cluster.group gid (time + 1)).shards shard).kv =
        ((cluster.group gid time).shards shard).kv)
      (quiet : ∀ op, cluster.executed time = some op → key2shard op.key ≠ shard)
  | client (serves : cluster.Serves gid time shard) (op : Op)
      (applied : cluster.journal[time]? = some (gid, .clientOperation op))
  | taken (takes : cluster.Takes time gid (cluster.num gid time) shard)
  | first (empty : ((cluster.group gid (time + 1)).shards shard).kv = fun _ => none)
      (nobody : cluster.owner (cluster.num gid time) shard = 0)
      (mine : cluster.owner (cluster.num gid time + 1) shard = gid)
      (quiet : cluster.executed time = none)

theorem Legal.origin_of_config (legal : cluster.Legal) (populated : cluster.Populated)
    (positive : 0 < gid) {config : Config}
    (applied : cluster.journal[time]? = some (gid, .configChange config))
    (reconfigures : (cluster.group gid time).Reconfigures config
      ((cluster.group gid time).apply (.configChange config)).1)
    (serves : cluster.Serves gid (time + 1) shard) : cluster.Origin time gid shard := by
  obtain ⟨next, begins⟩ := legal.begins applied reconfigures shard
  have content : ((cluster.group gid (time + 1)).shards shard).kv =
      ((cluster.group gid time).shards shard).kv := by
    rw [group_succ applied, reconfigures.shards]
  have quiet := executed_of_other applied (by simp)
  have mine := serves.1
  rw [next] at mine
  by_cases already : cluster.owner (cluster.num gid time) shard = gid
  · refine .kept ⟨already, .inl (legal.idle applied reconfigures shard)⟩ content ?_
    intro op found
    cases quiet.symm.trans found
  · have nobody : cluster.owner (cluster.num gid time) shard = 0 := by
      by_contra somebody
      rw [if_pos ⟨already, mine, somebody⟩] at begins
      rcases serves.2 with normal | collecting
      · cases begins.symm.trans normal
      · cases begins.symm.trans collecting
    refine .first ?_ nobody mine quiet
    rw [content]
    refine legal.empty_of_vacant populated positive (.inr ⟨?_, ?_⟩)
    · have idle := legal.idle applied reconfigures shard
      rw [ShardCluster.status] at idle
      simp [idle]
    · rwa [legal.owner_eq, group_gid]

theorem Legal.origin_of_stays (legal : cluster.Legal) {command : RaftCommand}
    (applied : cluster.journal[time]? = some (gid, command))
    (stays : (cluster.group gid time).Stays command ((cluster.group gid time).apply command).1)
    (serves : cluster.Serves gid (time + 1) shard) : cluster.Origin time gid shard := by
  have number : cluster.num gid (time + 1) = cluster.num gid time := by
    rw [ShardCluster.num, group_succ applied, stays.current]
    rfl
  have mine := serves.1
  rw [number] at mine
  have before : cluster.status gid (time + 1) shard = cluster.status gid time shard →
      cluster.Serves gid time shard := fun same => ⟨mine, same ▸ serves.2⟩
  have here := stays.shards shard
  rw [← group_succ applied] at here
  have status : cluster.status gid (time + 1) shard =
      ((cluster.group gid (time + 1)).shards shard).status := rfl
  generalize result : (cluster.group gid (time + 1)).shards shard = copy at here status
  cases here with
  | same =>
      cases command with
      | clientOperation op => exact .client (before status) op applied
      | _ =>
          refine .kept (before status) (by rw [result]) fun op found => ?_
          cases (executed_of_other applied (by simp)).symm.trans found
  | client op _ isClient _ _ sameStatus =>
      subst isClient
      exact .client (before (status.trans sameStatus)) op applied
  | migrated data content isMigration current carried moving =>
      subst isMigration
      exact .taken ⟨⟨data, applied⟩, rfl, moving, status⟩
  | settled args isGC current named collecting =>
      subst isGC
      refine .kept ⟨mine, .inr collecting⟩ (by rw [result]) fun op found => ?_
      cases (executed_of_other applied (by simp)).symm.trans found
  | cleared args isGC current named leaving =>
      have given := (legal.shaped gid time shard).outgoing leaving
      rw [legal.owner_eq, group_gid] at given
      exact absurd mine given.2.2

theorem Legal.origin (legal : cluster.Legal) (populated : cluster.Populated)
    (positive : 0 < gid) (serves : cluster.Serves gid (time + 1) shard) :
    cluster.Origin time gid shard := by
  by_cases own : ∃ command, cluster.journal[time]? = some (gid, command)
  · obtain ⟨command, applied⟩ := own
    rcases ShardKV.apply_cases (cluster.group gid time) command with
      ⟨config, rfl, reconfigures⟩ | stays
    · exact legal.origin_of_config populated positive applied reconfigures serves
    · exact legal.origin_of_stays applied stays serves
  · have away : ∀ command, cluster.journal[time]? ≠ some (gid, command) :=
      fun command applied => own ⟨command, applied⟩
    have still : cluster.group gid (time + 1) = cluster.group gid time := by
      rcases group_succ_cases cluster gid time with still | ⟨command, applied⟩
      · exact still
      · exact absurd applied (away command)
    have before : cluster.Serves gid time shard := by
      rwa [Serves, ShardCluster.num, ShardCluster.status, still] at serves
    exact .kept before (by rw [still]) fun op found =>
      legal.executed_elsewhere populated positive before away found

/-- A group that serves a shard has in it what all executed writes leave in one map. -/
theorem Legal.served_copy (legal : cluster.Legal) (populated : cluster.Populated)
    (positive : 0 < gid) (serves : cluster.Serves gid time (key2shard key)) :
    ((cluster.group gid time).shards (key2shard key)).kv key = (cluster.store time).kv key := by
  induction time using Nat.strong_induction_on generalizing gid key with
  | _ time inductionHypothesis =>
      cases time with
      | zero =>
          have nobody := legal.owner_zero (key2shard key)
          have owns := serves.1
          rw [show cluster.num gid 0 = 0 from rfl, nobody] at owns
          omega
      | succ time =>
          have past : ∀ moment < time + 1, ∀ holder key', 0 < holder →
              cluster.Serves holder moment (key2shard key') →
              ((cluster.group holder moment).shards (key2shard key')).kv key' =
                (cluster.store moment).kv key' :=
            fun moment before holder key' => inductionHypothesis moment before
          cases legal.origin populated positive serves with
          | kept before content quiet =>
              rw [content, past time (Nat.lt_succ_self _) gid key positive before]
              refine (store_of_quiet (Nat.le_succ time) rfl ?_).symm
              intro moment op from_time to_next found
              obtain rfl : moment = time := by omega
              exact quiet op found
          | client before op applied =>
              refine served_copy_client applied fun key' same => ?_
              rw [← same] at before ⊢
              exact past time (Nat.lt_succ_self _) gid key' positive before
          | taken takes =>
              obtain ⟨source, giver, begun, early, before, content, quiet⟩ :=
                legal.served_before_takes populated takes
              rw [content, past begun (by omega) source key giver before]
              exact (store_of_quiet (by omega) rfl quiet).symm
          | first empty nobody mine quiet =>
              rw [empty, store_succ_none quiet]
              refine (store_of_quiet (Nat.zero_le time) rfl ?_).symm
              intro moment op _ before found
              exact legal.unwritten populated positive nobody mine before found

end ShardCluster

/-- Provided that, once there is a group, every configuration has one: whoever serves a key
has the value that all writes executed by all groups, one after the other in the order of the
journal, leave in one map. -/
theorem sharded_store_is_one_map {cluster : ShardCluster}
    (reached : shardSystem.Reachable (fun state event => state.keepsGroups event = true) cluster)
    {gid : Int} (positive : 0 < gid) {time : Nat} {key : String}
    (serves : (cluster.group gid time).matchGroup key = true) :
    ((cluster.group gid time).shards (key2shard key)).kv key = (cluster.store time).kv key := by
  have legal := ShardCluster.legal_of_reachable reached
  have populated := ShardCluster.populated_of_reachable (fun _ _ guarded => guarded) reached
  exact legal.served_copy populated positive (legal.matchGroup_iff.mp serves)

/-- Group 2 has taken half of the shards over, and a client appends there to what it wrote at
group 1. -/
def continuedCluster : ShardCluster :=
  shardSystem.after ShardCluster.keepsGroups handedOverCluster
    [.client 2 8 { key := "x", value := "w", opType := .append, clientId := 7, seqId := 1 }]

theorem sharded_store_is_one_map_continued :
    ((continuedCluster.group 2 9).shards (key2shard "x")).kv "x" = some "vw" ∧
      (continuedCluster.store 9).kv "x" = some "vw" := by
  have reached : shardSystem.Reachable (fun state event => state.keepsGroups event = true)
      continuedCluster :=
    ⟨.initial, rfl, (System.run_after ShardCluster.keepsGroups _ _).trans
      (System.run_after ShardCluster.keepsGroups _ _)⟩
  have value : ((continuedCluster.group 2 9).shards (key2shard "x")).kv "x" = some "vw" := rfl
  have serves : (continuedCluster.group 2 9).matchGroup "x" = true := rfl
  exact ⟨value, (sharded_store_is_one_map reached (by decide) serves).symm.trans value⟩

end MultiRaft.Shardkv
