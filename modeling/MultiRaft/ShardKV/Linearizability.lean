import MultiRaft.KVRaft.Linearizability
import MultiRaft.ShardKV.Requests

/-!
# The sharded store is linearizable

A write takes effect where a group executes it, a read where the command that answered it
was applied.  Since the groups together are one map, this puts the operations of all clerks
in one row that a key/value map allows and that respects real time, wherever the shards are
and however they move.
-/

namespace MultiRaft.Shardkv

open KVRaft (Op)
open Porcupine (KvInput KvOutput kvModel kvStep Operation LinearizableStore)

/-- A key that was never written has the empty value. -/
def ShardCluster.values (cluster : ShardCluster) (time : Nat) (key : String) : String :=
  ((cluster.store time).kv key).getD ""

/-- The operation as the harness hands it to the checker.  One that has not returned may still
return now. -/
def Invocation.operation (now : Nat) (request : Invocation) : Operation KvInput KvOutput where
  clientId := request.op.clientId
  input := request.op.input
  call := request.call
  output := { value := (request.answer.map Prod.snd).getD "" }
  ret := (request.answer.map Prod.fst).getD now

/-- What the model of the checker does for a request. -/
def Invocation.step (values : String → String) (request : Invocation) : Option (String → String) :=
  stepAt (fun op => op.input.key) kvModel.stepOperation values (request.operation 0)

namespace Clients

/-- The operation has returned, or it is a write that has been executed. -/
def counts (state : Clients) (request : Invocation) : Bool :=
  request.answer.isSome || (decide (request.op.opType ≠ .get) &&
    (state.cluster.writes state.cluster.now).contains request.op)

def history (state : Clients) : List (Operation KvInput KvOutput) :=
  (state.requests.filter state.counts).map (Invocation.operation state.clock)

end Clients

section Effects

variable {cluster : ShardCluster} {request : Invocation} {position : Nat}

/-- The model of the checker does not look at the times. -/
theorem Invocation.step_eq (now : Nat) (values : String → String) (request : Invocation) :
    request.step values =
      stepAt (fun op => op.input.key) kvModel.stepOperation values (request.operation now) :=
  rfl

theorem step_of_executed (executes : cluster.executed position = some request.op) :
    request.step (cluster.values position) = some (cluster.values (position + 1)) := by
  obtain ⟨gid, -, facts⟩ := ShardCluster.executed_iff.mp executes
  have after : cluster.values (position + 1) = fun key =>
      (((cluster.store position).write request.op).kv key).getD "" := by
    funext key
    rw [ShardCluster.values, ShardCluster.store_succ_some executes]
  rw [after]
  unfold Invocation.step stepAt Porcupine.Model.stepOperation Invocation.operation kvModel
  unfold KVRaft.MemoryKVStateMachine.write KVRaft.Op.input
  cases kind : request.op.opType with
  | get => exact absurd kind facts.write
  | put => exact congrArg some (KVRaft.getD_update _ _ _).symm
  | append => exact congrArg some (KVRaft.getD_update _ _ _).symm

theorem step_of_read (reads : request.op.opType = .get)
    (idle : cluster.executed position = none)
    (value : (request.answer.map Prod.snd).getD "" =
      cluster.values position request.op.key) :
    request.step (cluster.values position) = some (cluster.values (position + 1)) := by
  have kept : cluster.values (position + 1) = cluster.values position := by
    funext key
    rw [ShardCluster.values, ShardCluster.store_succ_none idle, ShardCluster.values]
  rw [kept]
  simp [Invocation.step, stepAt, Porcupine.Model.stepOperation, Invocation.operation, kvModel,
    KVRaft.Op.input, KVRaft.OperationType.code, kvStep, reads, value]

end Effects

/-- A write is executed once. -/
theorem ShardCluster.Orderly.executed_once {cluster : ShardCluster} (orderly : cluster.Orderly)
    {op : Op} {one two : Nat} (first : cluster.executed one = some op)
    (second : cluster.executed two = some op) : one = two := by
  have never : ∀ early late, early < late → cluster.executed early = some op →
      cluster.executed late = some op → False := by
    intro early late before first second
    obtain ⟨gid, applied, executes⟩ := executed_iff.mp second
    have known := orderly.knows_of_executed applied executes.write executes.serves before first
      rfl rfl
    cases executes.fresh.symm.trans known
  rcases Nat.lt_trichotomy one two with before | same | after
  · exact (never one two before first second).elim
  · exact same
  · exact (never two one after second first).elim

namespace Clients

variable {state : Clients} {stamp : Nat → Nat}

/-- Requests with their numbers, those that count. -/
def counted (state : Clients) : List (Invocation × Nat) :=
  state.requests.zipIdx.filter fun entry => state.counts entry.1

theorem mem_counted {entry : Invocation × Nat} : entry ∈ state.counted ↔
    state.requests[entry.2]? = some entry.1 ∧ state.counts entry.1 = true := by
  rw [counted, List.mem_filter, List.mem_zipIdx_iff_getElem?]

theorem nodup_counted (state : Clients) : state.counted.Nodup := by
  refine List.Nodup.filter _ (List.Nodup.of_map Prod.snd ?_)
  rw [List.zipIdx_map_snd]
  exact List.nodup_range'

theorem history_eq (state : Clients) :
    state.history = state.counted.map fun entry => entry.1.operation state.clock := by
  have requests : state.requests.filter state.counts = state.counted.map Prod.fst :=
    calc state.requests.filter state.counts
        = (state.requests.zipIdx.map Prod.fst).filter state.counts := by rw [List.zipIdx_map_fst]
      _ = state.counted.map Prod.fst := List.filter_map
  rw [history, requests, List.map_map]
  rfl

/-- The request takes effect here, after its call and before its return. -/
structure Place (stamp : Nat → Nat) (state : Clients) (request : Invocation) (id position : Nat) :
    Prop where
  inside : position < state.cluster.now
  effect : state.Effect id request ((request.answer.map Prod.snd).getD "") position
  called : request.call < stamp position
  returned : ∀ time value, request.answer = some (time, value) → stamp position < time

variable {request : Invocation}

/-- The command at a place is that of the request. -/
theorem Attended.submitted_of_effect (attended : Attended stamp state) {id position : Nat}
    (found : state.requests[id]? = some request) {value : String}
    (effect : state.Effect id request value position) : (position, id) ∈ state.submitted := by
  unfold Effect at effect
  split at effect
  · exact effect.1
  · obtain ⟨gid, present, executes⟩ := ShardCluster.executed_iff.mp effect
    obtain ⟨other, request', member, found', same⟩ := attended.request_of_logged present
    have writes := executes.write
    have isId := attended.unique other id request' request found' found (same ▸ writes) writes
      (by rw [same]) (by rw [same])
    rwa [isId] at member

theorem Attended.call_lt (attended : Attended stamp state) {id position : Nat}
    (found : state.requests[id]? = some request) {value : String}
    (effect : state.Effect id request value position) : request.call < stamp position := by
  obtain ⟨-, request', -, found', before⟩ :=
    attended.sent position id (attended.submitted_of_effect found effect)
  cases found.symm.trans found'
  exact before

theorem Attended.exists_place (attended : Attended stamp state) {id : Nat}
    (found : state.requests[id]? = some request) (counted : state.counts request = true) :
    ∃ position, Place stamp state request id position := by
  cases returned : request.answer with
  | some answer =>
      obtain ⟨time, value⟩ := answer
      obtain ⟨-, position, inside, before, effect⟩ :=
        attended.answered id request time value found returned
      refine ⟨position, inside, ?_, attended.call_lt found effect, ?_⟩
      · rwa [returned]
      · intro other _ isAnswer
        cases returned.symm.trans isAnswer
        exact before
  | none =>
      simp only [counts, returned, Option.isSome_none, Bool.false_or, Bool.and_eq_true,
        decide_eq_true_eq, List.contains_iff_mem] at counted
      obtain ⟨writes, member⟩ := counted
      obtain ⟨position, inside, executes⟩ := ShardCluster.mem_writes.mp member
      have effect : state.Effect id request ((request.answer.map Prod.snd).getD "") position := by
        rwa [Effect, if_neg writes]
      refine ⟨position, inside, effect, attended.call_lt found effect, ?_⟩
      intro time value isAnswer
      cases returned.symm.trans isAnswer

/-- Where a request takes effect, the map changes as it asks. -/
theorem Attended.step_at (attended : Attended stamp state) {id position : Nat}
    (found : state.requests[id]? = some request) (place : Place stamp state request id position) :
    request.step (state.cluster.values position) =
      some (state.cluster.values (position + 1)) := by
  have effect := place.effect
  unfold Effect at effect
  split at effect
  · rename_i reads
    obtain ⟨gid, request', present, found', -⟩ := attended.sent position id effect.1
    cases found.symm.trans found'
    refine step_of_read reads ?_ effect.2
    exact ShardCluster.executed_of_applied present fun executes => executes.write reads
  · exact step_of_executed effect

/-- At one place only one request takes effect. -/
theorem Attended.place_inj (attended : Attended stamp state) {one two position : Nat}
    {first second : Invocation} (found : state.requests[one]? = some first)
    (found' : state.requests[two]? = some second) (place : Place stamp state first one position)
    (place' : Place stamp state second two position) : one = two := by
  have first := attended.submitted_of_effect found place.effect
  have second := attended.submitted_of_effect found' place'.effect
  exact attended.apart position one two first second

/-- Where no request has its place, the map stays. -/
theorem Attended.skip_at (attended : Attended stamp state) {place : Invocation × Nat → Nat}
    (facts : ∀ entry ∈ state.counted, Place stamp state entry.1 entry.2 (place entry))
    {position : Nat} (inside : position < state.cluster.now)
    (free : ∀ entry ∈ state.counted, place entry ≠ position) :
    state.cluster.values (position + 1) = state.cluster.values position := by
  have orderly := ShardCluster.orderly_of_reachable attended.reached
  cases executes : state.cluster.executed position with
  | none =>
      funext key
      rw [ShardCluster.values, ShardCluster.store_succ_none executes, ShardCluster.values]
  | some op =>
      obtain ⟨gid, present, executing⟩ := ShardCluster.executed_iff.mp executes
      obtain ⟨id, request, -, found, rfl⟩ := attended.request_of_logged present
      have writes := executing.write
      have chosen : (request, id) ∈ state.counted := by
        have member := ShardCluster.mem_writes.mpr ⟨position, inside, executes⟩
        exact mem_counted.mpr ⟨found, by simp [counts, writes, member]⟩
      have effect := (facts _ chosen).effect
      rw [Effect, if_neg writes] at effect
      exact absurd (orderly.executed_once effect executes) (free _ chosen)

/-- A request that returned before another was called has the smaller place. -/
theorem Attended.place_lt (attended : Attended stamp state) {one two : Nat}
    {first second : Invocation} (found : state.requests[two]? = some second) {early late : Nat}
    (place : Place stamp state first one early) (place' : Place stamp state second two late)
    (precedes : (first.operation state.clock).ret < (second.operation state.clock).call) :
    early < late := by
  have called := attended.called two second found
  simp only [Invocation.operation, Int.ofNat_lt] at precedes
  cases returned : first.answer with
  | none =>
      rw [returned, Option.map_none, Option.getD_none] at precedes
      omega
  | some answer =>
      rw [returned, Option.map_some, Option.getD_some] at precedes
      have before : stamp early < stamp late :=
        calc stamp early < answer.1 := place.returned answer.1 answer.2 returned
          _ < second.call := precedes
          _ < stamp late := place'.called
      by_contra notLess
      rcases Nat.eq_or_lt_of_le (Nat.le_of_not_lt notLess) with same | after
      · rw [same] at before
        exact Nat.lt_irrefl _ before
      · exact Nat.lt_asymm before (attended.mono late early after place.inside)

theorem Attended.linearizable (attended : Attended stamp state) :
    LinearizableStore state.history := by
  have exist : ∀ entry, ∃ position, entry ∈ state.counted →
      Place stamp state entry.1 entry.2 position := by
    intro entry
    by_cases chosen : entry ∈ state.counted
    · obtain ⟨found, counts⟩ := mem_counted.mp chosen
      obtain ⟨position, place⟩ := attended.exists_place found counts
      exact ⟨position, fun _ => place⟩
    · exact ⟨0, fun inside => absurd inside chosen⟩
  choose place facts using exist
  have found : ∀ entry ∈ state.counted, state.requests[entry.2]? = some entry.1 :=
    fun entry chosen => (mem_counted.mp chosen).1
  rw [history_eq]
  refine (linearizable_map
    (fun values (entry : Invocation × Nat) _ => Invocation.step_eq state.clock values entry.1)
    fun _ _ _ _ => Iff.rfl).mp ?_
  refine linearizable_of_log place state.cluster.values state.cluster.now ?_ ?_ ?_ ?_ ?_
  · -- the command at a place tells the request
    refine List.Nodup.map_on ?_ (nodup_counted state)
    intro one first two second same
    have isTwo : one.2 = two.2 := attended.place_inj (found one first) (found two second)
      (facts one first) (same ▸ facts two second)
    have stands := found two second
    rw [← isTwo, found one first] at stands
    exact Prod.ext (Option.some.inj stands) isTwo
  · exact fun entry chosen => (facts entry chosen).inside
  · exact fun entry chosen => attended.step_at (found entry chosen) (facts entry chosen)
  · exact fun position inside free => attended.skip_at facts inside free
  · exact fun one first two second precedes =>
      attended.place_lt (found two second) (facts one first) (facts two second) precedes

end Clients

/-- Once there is a group let every configuration have one, and let no handler get the result of
a command that took the place of its own.  Then the operations of all clerks are linearizable,
whatever the groups: those that have returned, with the values they returned, and the writes
that were executed though their clerk still waits. -/
theorem sharded_history_linearizable {state : Clients}
    (reached : clientSystem.Reachable (fun state event => state.permitted event = true) state) :
    LinearizableStore state.history := by
  obtain ⟨stamp, attended⟩ := Clients.attended_of_reachable reached
  exact attended.linearizable

/-- A clerk puts a value at group 1 and appends to it at group 2, to which the shard has moved.
Before it has the answer, another clerk reads. -/
def movedClients : Clients :=
  clientSystem.after Clients.permitted .initial
    [.internal (.join (oneGroup 1 "a")), .internal (.fetchConfig 1 0),
     .write 7 "x" "v" "Put", .start ⟨0, 1, 1, 2⟩, .commit 0, .reply 0 1,
     .internal (.join (oneGroup 2 "b")), .internal (.fetchConfig 2 0),
     .internal (.fetchConfig 2 3), .internal (.fetchConfig 1 4),
     .internal (.migrate 2 5 1 5 firstHalf),
     .write 7 "x" "w" "Append", .start ⟨1, 2, 6, 4⟩, .commit 1,
     .read "x", .start ⟨2, 2, 7, 5⟩, .commit 2, .reply 2 7]

theorem sharded_history_linearizable_moved :
    movedClients.history.map (fun op => (op.call, op.ret, op.output.value)) =
        [(2, 5, ""), (11, 18, ""), (14, 17, "vw")] ∧
      LinearizableStore movedClients.history := by
  refine ⟨by decide +kernel, sharded_history_linearizable ?_⟩
  exact ⟨.initial, rfl, System.run_after Clients.permitted _ _⟩

end MultiRaft.Shardkv
