import MultiRaft.ShardKV.OneStore

/-!
# The groups together answer as one kvraft server

If a client goes on to its next write only when the last one is done, the duplicate tables
that travel with the shards decide as one table would.  Hence every operation that some
group serves is answered as by one state machine of kvraft that applies the served
operations of all groups in the order of the journal.
-/

namespace MultiRaft.KVRaft

namespace Replica

variable {replica : Replica} {op : Op} {clientId : Nat}

theorem reply_of_new (writes : op.opType ≠ .get)
    (new : replica.requestDuplicated op.clientId op.seqId = false) :
    (replica.apply op).1.duplicateTable = Function.update replica.duplicateTable op.clientId
        (some { seqId := op.seqId, reply := { value := "", err := .ok } }) ∧
      (replica.apply op).2 = { value := "", err := .ok } := by
  rw [apply, if_neg (by simp [new])]
  dsimp only
  rw [if_pos writes]
  dsimp only
  unfold applyToStateMachine
  cases kind : op.opType with
  | get => exact absurd kind writes
  | put => exact ⟨rfl, rfl⟩
  | append => exact ⟨rfl, rfl⟩

/-- Every write is answered with OK and no value. -/
theorem reply_of_replay (ops : List Op) {info : LastOperationInfo}
    (found : (replay ops).duplicateTable clientId = some info) :
    info.reply = { value := "", err := .ok } := by
  induction ops using List.reverseRecOn generalizing info with
  | nil => cases found
  | append_singleton ops op inductionHypothesis =>
      rw [replay_concat] at found
      by_cases reads : op.opType = .get
      · rw [apply_of_get reads] at found
        exact inductionHypothesis found
      · cases repeated : (replay ops).requestDuplicated op.clientId op.seqId with
        | true =>
            rw [apply_of_duplicate repeated] at found
            exact inductionHypothesis found
        | false =>
            rw [(reply_of_new reads repeated).1] at found
            by_cases here : clientId = op.clientId
            · subst here
              rw [Function.update_self] at found
              cases found
              rfl
            · rw [Function.update_of_ne here] at found
              exact inductionHypothesis found

theorem reply_of_write (ops : List Op) (writes : op.opType ≠ .get) :
    ((replay ops).apply op).2 = { value := "", err := .ok } := by
  cases repeated : (replay ops).requestDuplicated op.clientId op.seqId with
  | true =>
      obtain ⟨info, found, -⟩ := requestDuplicated_iff.mp repeated
      rw [apply, if_pos ⟨writes, repeated⟩, lastReply, found]
      exact reply_of_replay ops found
  | false => exact (reply_of_new writes repeated).2

end Replica

end MultiRaft.KVRaft

namespace MultiRaft.Shardkv

open ShardCtrler (Config Shard)
open KVRaft (Op Replica writeAll)

namespace ShardKV

variable {kv : ShardKV} {op : Op} {clientId seqId : Nat} {info : LastOperationInfo}

theorem table_of_executes (executes : kv.Executes op) :
    (kv.applyClientOperation op).1.duplicateTable = Function.update kv.duplicateTable op.clientId
        (some { seqId := op.seqId, reply := { value := "", err := .ok } }) ∧
      (kv.applyClientOperation op).2 = { value := "", err := .ok } := by
  obtain ⟨writes, serves, fresh⟩ := executes
  rw [applyClientOperation, if_pos serves, if_neg (by simp [fresh])]
  dsimp only
  rw [if_pos writes]
  dsimp only
  unfold applyToStateMachine
  cases kind : op.opType with
  | get => exact absurd kind writes
  | put => exact ⟨rfl, rfl⟩
  | append => exact ⟨rfl, rfl⟩

theorem mergeDuplicates_eq {old data : DuplicateTable}
    (found : mergeDuplicates old data clientId = some info) :
    old clientId = some info ∨ data clientId = some info := by
  unfold mergeDuplicates at found
  split at found
  · exact .inl found
  · rename_i carried
    exact .inr (carried.trans found)
  · rename_i known carried
    split at found
    · exact .inr (carried.trans found)
    · exact .inl (known.trans found)

/-- Where an entry of the table comes from. -/
theorem duplicateTable_apply {command : RaftCommand}
    (found : (kv.apply command).1.duplicateTable clientId = some info) :
    kv.duplicateTable clientId = some info ∨
      (∃ op, command = .clientOperation op ∧ kv.Executes op ∧ op.clientId = clientId ∧
        info = { seqId := op.seqId, reply := { value := "", err := .ok } }) ∨
      ∃ data, command = .shardMigration data ∧ data.duplicateTable clientId = some info := by
  cases command with
  | clientOperation op =>
      by_cases executes : kv.Executes op
      · rw [apply, (table_of_executes executes).1] at found
        by_cases here : clientId = op.clientId
        · subst here
          rw [Function.update_self] at found
          cases found
          exact .inr (.inl ⟨op, rfl, executes, rfl, rfl⟩)
        · rw [Function.update_of_ne here] at found
          exact .inl found
      · rw [apply, applyClientOperation_of_not executes] at found
        exact .inl found
  | configChange config =>
      simp only [apply, applyNewConfig] at found
      split at found
      · exact .inl found
      · exact .inl found
  | shardMigration data =>
      by_cases current : data.configNum = kv.currentConfig.num
      · rw [apply, duplicateTable_of_migration current] at found
        rcases mergeDuplicates_eq found with old | new
        · exact .inl old
        · exact .inr (.inr ⟨data, rfl, new⟩)
      · rw [apply, applyShardMigration, if_neg current] at found
        exact .inl found
  | shardGC args =>
      obtain ⟨-, -, -, table⟩ := collectShards_frame kv args.shardIds
      simp only [apply, applyShardGC] at found
      split at found
      · rw [table] at found
        exact .inl found
      · exact .inl found

end ShardKV

namespace ShardCluster

variable {cluster next : ShardCluster} {event : ShardEvent} {gid : Int} {time : Nat} {op : Op}
  {clientId seqId : Nat}

theorem mem_writes : op ∈ cluster.writes time ↔
    ∃ moment < time, cluster.executed moment = some op := by
  simp [writes]

/-- Every entry of a duplicate table stands for an executed write. -/
theorem Legal.recorded (legal : cluster.Legal) {info : LastOperationInfo}
    (found : (cluster.group gid time).duplicateTable clientId = some info) :
    info.reply = { value := "", err := .ok } ∧
      ∃ op ∈ cluster.writes time, op.clientId = clientId ∧ op.seqId = info.seqId := by
  induction time using Nat.strong_induction_on generalizing gid info with
  | _ time inductionHypothesis =>
      cases time with
      | zero => cases found
      | succ time =>
          have past : ∀ read ≤ time, ∀ holder info,
              (cluster.group holder read).duplicateTable clientId = some info →
              info.reply = { value := "", err := .ok } ∧ ∃ op ∈ cluster.writes (time + 1),
                op.clientId = clientId ∧ op.seqId = info.seqId := by
            intro read early holder info known
            obtain ⟨reply, op, member, described⟩ :=
              inductionHypothesis read (Nat.lt_succ_of_le early) known
            obtain ⟨moment, before, executes⟩ := mem_writes.mp member
            exact ⟨reply, op, mem_writes.mpr ⟨moment, by omega, executes⟩, described⟩
          rcases group_succ_cases cluster gid time with still | ⟨command, applied⟩
          · rw [still] at found
            exact past time (Nat.le_refl _) gid info found
          · rw [group_succ applied] at found
            rcases ShardKV.duplicateTable_apply found with
              old | ⟨op, rfl, executes, client, rfl⟩ | ⟨data, rfl, carried⟩
            · exact past time (Nat.le_refl _) gid info old
            · refine ⟨rfl, op, mem_writes.mpr ⟨time, Nat.lt_succ_self _, ?_⟩, client, rfl⟩
              exact executed_iff.mpr ⟨gid, applied, executes⟩
            · cases legal.proposed time gid _ applied with
              | migration read source sourceRead shardIds earlier sourceEarlier calls reached =>
                  unfold ShardKV.getShardsData at carried
                  split at carried
                  · cases carried
                  · exact past sourceRead sourceEarlier source info carried

/-- The write has been executed somewhere. -/
def done (cluster : ShardCluster) (clientId seqId : Nat) : Bool :=
  (cluster.writes cluster.now).any fun op => decide (op.clientId = clientId ∧ op.seqId = seqId)

/-- Of two writes of a client, the one with the smaller number is done before the other is
sent.  If the smaller one arrives late, it is a repetition. -/
def ordersWrites (cluster : ShardCluster) : ShardEvent → Bool
  | .client _ _ op => cluster.journal.all fun entry =>
      match entry.2 with
      | .clientOperation old => decide (old.opType ≠ .get → op.opType ≠ .get →
          old.clientId = op.clientId → old.seqId ≠ op.seqId →
            cluster.done op.clientId (min old.seqId op.seqId) = true)
      | _ => true
  | _ => true

def Ordered (cluster : ShardCluster) : Prop :=
  ∀ (time later : Nat) (gid other : Int) (old op : Op), time < later →
    cluster.journal[time]? = some (gid, .clientOperation old) →
    cluster.journal[later]? = some (other, .clientOperation op) →
    old.opType ≠ .get → op.opType ≠ .get → old.clientId = op.clientId → old.seqId ≠ op.seqId →
    ∃ first ∈ cluster.writes later,
      first.clientId = op.clientId ∧ first.seqId = min old.seqId op.seqId

theorem executed_append {entry : Int × RaftCommand} (past : time < cluster.now) :
    ({ cluster with journal := cluster.journal ++ [entry] } : ShardCluster).executed time =
      cluster.executed time := by
  unfold executed
  simp only [List.getElem?_append_left past]
  cases cluster.journal[time]? with
  | none => rfl
  | some applied =>
      obtain ⟨gid, command⟩ := applied
      cases command with
      | clientOperation op => simp only [group_of_journal_append (Nat.le_of_lt past)]
      | _ => rfl

theorem mem_writes_append {entry : Int × RaftCommand} (past : time ≤ cluster.now) :
    op ∈ ({ cluster with journal := cluster.journal ++ [entry] } : ShardCluster).writes time ↔
      op ∈ cluster.writes time := by
  rw [mem_writes, mem_writes]
  refine exists_congr fun moment => and_congr_right fun before => ?_
  rw [executed_append (by omega)]

theorem Ordered.step (ordered : cluster.Ordered) (legal : cluster.Legal)
    (guarded : cluster.ordersWrites event = true) (stepped : cluster.step event = some next) :
    next.Ordered := by
  rcases step_cases legal stepped with ⟨shards, groups, -, rfl⟩ | ⟨gid, command, -, -, sent, rfl⟩
  · exact ordered
  · intro time later holder other old op before applied applied' writes writes' client number
    rcases getElem?_concat applied' with past' | ⟨rfl, new⟩
    · have within : later < cluster.now := (List.getElem?_eq_some_iff.mp past').1
      rcases getElem?_concat applied with past | ⟨rfl, -⟩
      · obtain ⟨first, member, described⟩ := ordered time later holder other old op before past
          past' writes writes' client number
        exact ⟨first, (mem_writes_append (Nat.le_of_lt within)).mpr member, described⟩
      · exact absurd (Nat.lt_trans before within) (Nat.lt_irrefl _)
    · cases new
      rcases getElem?_concat applied with past | ⟨rfl, -⟩
      · obtain ⟨read, rfl⟩ := sent op rfl
        have every := List.all_eq_true.mp guarded _ (List.mem_of_getElem? past)
        simp only [decide_eq_true_eq] at every
        obtain ⟨first, member, described⟩ :=
          List.any_eq_true.mp (every writes writes' client number)
        exact ⟨first, (mem_writes_append (Nat.le_refl _)).mpr member, of_decide_eq_true described⟩
      · exact absurd before (Nat.lt_irrefl _)

theorem ordered_of_reachable {allowed : ShardCluster → ShardEvent → Prop}
    (guarded : ∀ state event, allowed state event → state.ordersWrites event = true)
    (reached : shardSystem.Reachable allowed cluster) : cluster.Ordered := by
  have start : ∀ state, shardSystem.init state → state.Ordered := by
    rintro _ rfl
    intro time later gid other old op _ applied
    simp [initial] at applied
  refine reached.invariant start ?_
  intro state event next before ordered allows stepped
  exact ordered.step (legal_of_reachable before) (guarded state event allows) stepped

/-- The cluster of such clients. -/
structure Orderly (cluster : ShardCluster) : Prop where
  legal : cluster.Legal
  populated : cluster.Populated
  numbered : cluster.Numbered
  ordered : cluster.Ordered

/-- Whoever serves a write knows it once it has been executed. -/
theorem Orderly.knows_of_executed (orderly : cluster.Orderly) {first : Op} {moment : Nat}
    (applied : cluster.journal[time]? = some (gid, .clientOperation op))
    (writes : op.opType ≠ .get) (serves : (cluster.group gid time).matchGroup op.key = true)
    (before : moment < time) (found : cluster.executed moment = some first)
    (client : first.clientId = op.clientId) (number : first.seqId = op.seqId) :
    (cluster.group gid time).requestDuplicated op.clientId op.seqId = true := by
  obtain ⟨legal, populated, numbered, -⟩ := orderly
  obtain ⟨holder, applied', executes⟩ := executed_iff.mp found
  have same : first = op := numbered moment time holder gid first op (Nat.le_of_lt before)
    applied' applied executes.write writes client number
  subst same
  have knows : cluster.Knows holder (moment + 1) first.clientId first.seqId := by
    rw [Knows, ShardKV.requestDuplicated_iff, group_succ applied', ShardKV.apply,
      (ShardKV.table_of_executes executes).1]
    exact ⟨_, Function.update_self .., Nat.le_refl _⟩
  exact legal.knows_of_serves populated (legal.positive moment holder _ applied')
    (legal.positive time gid _ applied) (legal.matchGroup_iff.mp executes.serves) knows before
    (legal.matchGroup_iff.mp serves)

/-- The table of the group that serves a write covers it if and only if a write of the
client with this or a greater number has been executed anywhere. -/
theorem Orderly.requestDuplicated_iff (orderly : cluster.Orderly)
    (applied : cluster.journal[time]? = some (gid, .clientOperation op))
    (writes : op.opType ≠ .get) (serves : (cluster.group gid time).matchGroup op.key = true) :
    (cluster.group gid time).requestDuplicated op.clientId op.seqId = true ↔
      ∃ first ∈ cluster.writes time, first.clientId = op.clientId ∧ op.seqId ≤ first.seqId := by
  constructor
  · intro known
    obtain ⟨info, found, bound⟩ := ShardKV.requestDuplicated_iff.mp known
    obtain ⟨-, first, member, client, number⟩ := orderly.legal.recorded found
    exact ⟨first, member, client, number ▸ bound⟩
  · rintro ⟨first, member, client, bound⟩
    obtain ⟨moment, before, found⟩ := mem_writes.mp member
    rcases Nat.eq_or_lt_of_le bound with same | smaller
    · exact orderly.knows_of_executed applied writes serves before found client same.symm
    · -- the client had gone on, so this one was done
      obtain ⟨holder, applied', executes⟩ := executed_iff.mp found
      obtain ⟨done, member', client', number⟩ := orderly.ordered moment time holder gid first op
        before applied' applied executes.write writes client (Nat.ne_of_gt smaller)
      obtain ⟨moment', before', found'⟩ := mem_writes.mp member'
      rw [min_eq_right (Nat.le_of_lt smaller)] at number
      exact orderly.knows_of_executed applied writes serves before' found' client' number

/-- The operation that a group serves at a time. -/
def served (cluster : ShardCluster) (time : Nat) : Option Op :=
  match cluster.journal[time]? with
  | some (gid, .clientOperation op) =>
      if (cluster.group gid time).matchGroup op.key then some op else none
  | _ => none

/-- The state machine of kvraft after the served operations of all groups. -/
def replica (cluster : ShardCluster) (time : Nat) : Replica :=
  .replay ((List.range time).filterMap cluster.served)

theorem served_iff : cluster.served time = some op ↔
    ∃ gid, cluster.journal[time]? = some (gid, .clientOperation op) ∧
      (cluster.group gid time).matchGroup op.key = true := by
  unfold served
  constructor
  · intro found
    split at found
    · rename_i gid op applied
      split at found
      · rename_i serves
        cases found
        exact ⟨gid, applied, serves⟩
      · cases found
    · cases found
  · rintro ⟨gid, applied, serves⟩
    simp [applied, serves]

theorem replica_succ_some (found : cluster.served time = some op) :
    cluster.replica (time + 1) = ((cluster.replica time).apply op).1 := by
  rw [replica, replica, ← Replica.replay_concat, List.range_succ, List.filterMap_append]
  simp [found]

theorem replica_succ_none (unserved : cluster.served time = none) :
    cluster.replica (time + 1) = cluster.replica time := by
  rw [replica, replica, List.range_succ, List.filterMap_append]
  simp [unserved]

/-- The replica does not execute what no group executes. -/
theorem executed_of_served_none (unserved : cluster.served time = none) :
    cluster.executed time = none := by
  refine executed_eq_none fun gid op applied executes => ?_
  rw [served_iff.mpr ⟨gid, applied, executes.serves⟩] at unserved
  cases unserved

theorem executed_of_applied (applied : cluster.journal[time]? = some (gid, .clientOperation op))
    (idle : ¬ (cluster.group gid time).Executes op) : cluster.executed time = none := by
  refine executed_eq_none fun other again applied' executes => idle ?_
  cases applied.symm.trans applied'
  exact executes

/-- The one state machine executes the writes that the groups execute. -/
theorem Orderly.tracks (orderly : cluster.Orderly) (time : Nat) :
    (cluster.replica time).Tracks (cluster.writes time) := by
  induction time with
  | zero => exact ⟨rfl, by simp [replica, Replica.replay, Replica.new], by simp [writes]⟩
  | succ time tracks =>
      rw [writes_succ]
      cases found : cluster.served time with
      | none =>
          rw [replica_succ_none found, executed_of_served_none found]
          simpa using tracks
      | some op =>
          obtain ⟨gid, applied, serves⟩ := served_iff.mp found
          rw [replica_succ_some found]
          by_cases reads : op.opType = .get
          · rw [Replica.apply_of_get reads,
              executed_of_applied applied fun executes => executes.write reads]
            simpa using tracks
          have known := orderly.requestDuplicated_iff applied reads serves
          cases repeated : (cluster.group gid time).requestDuplicated op.clientId op.seqId with
          | true =>
              obtain ⟨first, member, client, bound⟩ := known.mp repeated
              obtain ⟨info, recorded, covers⟩ :=
                Replica.requestDuplicated_iff.mp (tracks.covered first member)
              rw [client] at recorded
              rw [Replica.apply_of_duplicate (Replica.requestDuplicated_iff.mpr
                ⟨info, recorded, Nat.le_trans bound covers⟩), executed_of_applied applied
                fun executes => by cases executes.fresh.symm.trans repeated]
              simpa using tracks
          | false =>
              rw [executed_iff.mpr ⟨gid, applied, reads, serves, repeated⟩]
              refine tracks.execute reads fun first member client => ?_
              by_contra larger
              cases repeated.symm.trans (known.mpr ⟨first, member, client, by omega⟩)

end ShardCluster

/-- An answer of kvraft as shardkv writes it. -/
def ofReply (reply : KVRaft.OpReply) : OpReply where
  value := reply.value
  err := match reply.err with
    | .ok => .ok
    | .errNoKey => .errNoKey
    | .errWrongLeader => .errWrongLeader
    | .errTimeout => .errTimeout

namespace ShardCluster

variable {cluster : ShardCluster} {gid : Int} {time : Nat} {op : Op}

theorem Orderly.reply_of_get (orderly : cluster.Orderly)
    (applied : cluster.journal[time]? = some (gid, .clientOperation op))
    (serves : (cluster.group gid time).matchGroup op.key = true) (reads : op.opType = .get) :
    ((cluster.group gid time).applyClientOperation op).2 =
      ofReply ((cluster.replica time).apply op).2 := by
  have legal := orderly.legal
  have copy := legal.served_copy orderly.populated (legal.positive time gid _ applied)
    (legal.matchGroup_iff.mp serves)
  rw [store, ← (orderly.tracks time).written] at copy
  simp only [ShardKV.applyClientOperation, serves, reads, ShardKV.applyToStateMachine,
    MemoryKVStateMachine.get, copy, Replica.apply, Replica.applyToStateMachine,
    KVRaft.MemoryKVStateMachine.get, ne_eq, not_true_eq_false, false_and, if_false, if_true]
  cases (cluster.replica time).stateMachine.kv op.key with
  | none => rfl
  | some value => rfl

theorem Legal.reply_of_write (legal : cluster.Legal)
    (serves : (cluster.group gid time).matchGroup op.key = true) (writes : op.opType ≠ .get) :
    ((cluster.group gid time).applyClientOperation op).2 = { value := "", err := .ok } := by
  cases repeated : (cluster.group gid time).requestDuplicated op.clientId op.seqId with
  | true =>
      obtain ⟨info, found, -⟩ := ShardKV.requestDuplicated_iff.mp repeated
      rw [ShardKV.applyClientOperation, if_pos serves, if_pos ⟨writes, repeated⟩,
        ShardKV.lastReply, found]
      exact (legal.recorded found).1
  | false => exact (ShardKV.table_of_executes ⟨writes, serves, repeated⟩).2

theorem Orderly.reply (orderly : cluster.Orderly)
    (applied : cluster.journal[time]? = some (gid, .clientOperation op))
    (serves : (cluster.group gid time).matchGroup op.key = true) :
    ((cluster.group gid time).applyClientOperation op).2 =
      ofReply ((cluster.replica time).apply op).2 := by
  by_cases reads : op.opType = .get
  · exact orderly.reply_of_get applied serves reads
  · rw [orderly.legal.reply_of_write serves reads, replica, Replica.reply_of_write _ reads]
    rfl

/-- The clients number their writes one after the other, and once there is a group every
configuration has one. -/
def orderlyStep (cluster : ShardCluster) (event : ShardEvent) : Bool :=
  cluster.keepsGroups event && cluster.numbersWrites event && cluster.ordersWrites event

theorem orderly_of_reachable (reached : shardSystem.Reachable
    (fun state event => state.orderlyStep event = true) cluster) : cluster.Orderly := by
  have parts : ∀ (state : ShardCluster) (event : ShardEvent), state.orderlyStep event = true →
      state.keepsGroups event = true ∧ state.numbersWrites event = true ∧
        state.ordersWrites event = true := by
    intro state event allowed
    simpa [orderlyStep, and_assoc] using allowed
  exact ⟨legal_of_reachable reached,
    populated_of_reachable (fun state event allowed => (parts state event allowed).1) reached,
    numbered_of_reachable (fun state event allowed => (parts state event allowed).2.1) reached,
    ordered_of_reachable (fun state event allowed => (parts state event allowed).2.2) reached⟩

end ShardCluster

/-- If clients finish one write before they send the next and, once there is a group, every
configuration has one, then every operation that some group serves is answered as by one
state machine of kvraft that has applied the operations served by all groups, each where it
stands in the journal: neither the groups nor the moves of the shards can be told. -/
theorem sharded_replies_of_one_server {cluster : ShardCluster}
    (reached : shardSystem.Reachable (fun state event => state.orderlyStep event = true) cluster)
    {gid : Int} {time : Nat} {op : Op}
    (applied : cluster.journal[time]? = some (gid, .clientOperation op))
    (serves : (cluster.group gid time).matchGroup op.key = true) :
    ((cluster.group gid time).applyClientOperation op).2 =
      ofReply ((cluster.replica time).apply op).2 :=
  (ShardCluster.orderly_of_reachable reached).reply applied serves

/-- Group 1 executes a write, group 2 takes the shard over, and there the client appends and
reads. -/
def readCluster : ShardCluster :=
  shardSystem.after ShardCluster.orderlyStep .initial
    [.join (oneGroup 1 "a"), .fetchConfig 1 0,
     .client 1 1 { key := "x", value := "v", opType := .put, clientId := 7, seqId := 0 },
     .join (oneGroup 2 "b"), .fetchConfig 2 0, .fetchConfig 2 3, .fetchConfig 1 4,
     .migrate 2 5 1 5 firstHalf,
     .client 2 6 { key := "x", value := "w", opType := .append, clientId := 7, seqId := 1 },
     .client 2 7 { key := "x", opType := .get }]

theorem sharded_replies_of_one_server_read :
    ((readCluster.group 2 7).applyClientOperation { key := "x", opType := .get }).2 =
        { value := "vw", err := .ok } ∧
      ofReply ((readCluster.replica 7).apply { key := "x", opType := .get }).2 =
        { value := "vw", err := .ok } := by
  have reached : shardSystem.Reachable (fun state event => state.orderlyStep event = true)
      readCluster :=
    ⟨.initial, rfl, System.run_after ShardCluster.orderlyStep _ _⟩
  have answer : ((readCluster.group 2 7).applyClientOperation { key := "x", opType := .get }).2 =
      { value := "vw", err := .ok } := rfl
  have applied : readCluster.journal[7]? =
      some (2, .clientOperation { key := "x", opType := .get }) := rfl
  exact ⟨answer, (sharded_replies_of_one_server reached applied rfl).symm.trans answer⟩

end MultiRaft.Shardkv
