import MultiRaft.KVRaft.Cluster

/-!
# What one step of a kvraft cluster can do
-/

namespace MultiRaft.KVRaft

namespace KVServer

/-- `getNotifyChannel` finds the channel of the index or makes a new one. -/
theorem getNotifyChannel_cases (kv : KVServer) (index : Nat) :
    (∃ channel, kv.notifyChans index = some channel ∧
      kv.getNotifyChannel index = (kv, channel)) ∨
    (kv.notifyChans index = none ∧ kv.getNotifyChannel index =
      ({ kv with
        notifyChans := Function.update kv.notifyChans index (some kv.nextChan)
        buffers := Function.update kv.buffers kv.nextChan none
        nextChan := kv.nextChan + 1 }, kv.nextChan)) := by
  unfold getNotifyChannel
  cases found : kv.notifyChans index with
  | none => exact .inr ⟨rfl, rfl⟩
  | some channel => exact .inl ⟨channel, rfl, rfl⟩

/-- `applyTask` applies a new command and, at a leader, leaves the result in the
channel of its index. -/
theorem applyCommand_cases {kv next : KVServer} {index : Nat} {op : Op} {isLeader : Bool}
    (fresh : kv.lastApplied < index) (applied : kv.applyCommand index op isLeader = some next) :
    (isLeader = false ∧
      next = { kv with lastApplied := index, replica := (kv.replica.apply op).1 }) ∨
    (isLeader = true ∧ ∃ opened channel,
      ({ kv with lastApplied := index, replica := (kv.replica.apply op).1 } :
        KVServer).getNotifyChannel index = (opened, channel) ∧
      opened.buffers channel = none ∧
      next = { opened with
        buffers := Function.update opened.buffers channel (some (kv.replica.apply op).2) }) := by
  unfold applyCommand at applied
  rw [if_neg (by omega)] at applied
  cases isLeader with
  | false =>
      cases applied
      exact .inl ⟨rfl, rfl⟩
  | true =>
      refine .inr ⟨rfl, _, _, rfl, ?_⟩
      simp only [if_true] at applied
      split at applied
      · cases applied
      · rename_i free
        cases applied
        exact ⟨free, rfl⟩

end KVServer

namespace KVCluster

variable {n : Nat}

inductive Step (cluster : KVCluster n) : KVEvent n → KVCluster n → Prop
  | raft (server : Fin n) (term : Nat) (leading : Bool) (log : List Entry)
      (allowed : cluster.raftAllows server term leading log = true) :
      Step cluster (.raft server term leading log)
        { cluster.setPeer server { cluster.peers server with term, leading, log } with
          led := if leading then term :: cluster.led else cluster.led }
  | write (clientId : Nat) (key value op : String)
      (idle : (cluster.clerks clientId).pending = none) :
      Step cluster (.write clientId key value op) (cluster.setClerk clientId
        { cluster.clerks clientId with
          pending := some
            { key, value, op, clientId, seqId := (cluster.clerks clientId).seqId } })
  | send (clientId : Nat) (server : Fin n) (args : PutAppendArgs)
      (pending : (cluster.clerks clientId).pending = some args) :
      Step cluster (.send clientId server) { cluster with
        rpcs := cluster.rpcs ++ [{ server, args := .putAppend args, phase := .requested }] }
  | read (server : Fin n) (key : String) :
      Step cluster (.read server key) (cluster.read server key)
  | duplicate (id : Nat) (rpc : Rpc n) (args : PutAppendArgs)
      (found : cluster.rpcs[id]? = some rpc) (asks : rpc.args = .putAppend args)
      (duplicated : (cluster.servers rpc.server).replica.requestDuplicated args.clientId
        args.seqId = true) :
      Step cluster (.check id) (cluster.setPhase id rpc
        (.replied ((cluster.servers rpc.server).replica.lastReply args.clientId).err ""
          (cluster.peers rpc.server).applied none))
  | checked (id : Nat) (rpc : Rpc n) (found : cluster.rpcs[id]? = some rpc) :
      Step cluster (.check id) (cluster.setPhase id rpc .checked)
  | refused (id : Nat) (rpc : Rpc n) (found : cluster.rpcs[id]? = some rpc) :
      Step cluster (.start id) (cluster.setPhase id rpc
        (.replied .errWrongLeader "" (cluster.peers rpc.server).applied none))
  | started (id : Nat) (rpc : Rpc n) (op : Op) (found : cluster.rpcs[id]? = some rpc)
      (asks : rpc.args.op = some op) (phase : rpc.phase = .checked)
      (leading : (cluster.peers rpc.server).leading = true) :
      Step cluster (.start id)
        { (cluster.setPeer rpc.server { cluster.peers rpc.server with
              log := (cluster.peers rpc.server).log ++
                [{ term := (cluster.peers rpc.server).term, op, rpc := id }] }).setPhase id rpc
            (.started ((cluster.peers rpc.server).log.length + 1)
              (cluster.peers rpc.server).term) with
          placed := cluster.placed ++ [((cluster.peers rpc.server).log.length,
            { term := (cluster.peers rpc.server).term, op, rpc := id })] }
  | registered (id : Nat) (rpc : Rpc n) (index term : Nat)
      (found : cluster.rpcs[id]? = some rpc) (phase : rpc.phase = .started index term) :
      Step cluster (.register id)
        ((cluster.setServer rpc.server
          ((cluster.servers rpc.server).getNotifyChannel index).1).setPhase id rpc
            (.waiting index term ((cluster.servers rpc.server).getNotifyChannel index).2))
  | received (id : Nat) (rpc : Rpc n) (index term channel : Nat) (result : OpReply)
      (value : String) (found : cluster.rpcs[id]? = some rpc)
      (phase : rpc.phase = .waiting index term channel)
      (buffered : (cluster.servers rpc.server).buffers channel = some result)
      (takes : ∀ args, rpc.args = .get args → value = result.value) :
      Step cluster (.receive id)
        ((cluster.setServer rpc.server { cluster.servers rpc.server with
          buffers := Function.update (cluster.servers rpc.server).buffers channel
            none }).setPhase id rpc (.replied result.err value
              (cluster.peers rpc.server).applied (some index)))
  | timedOut (id : Nat) (rpc : Rpc n) (index : Nat) (found : cluster.rpcs[id]? = some rpc) :
      Step cluster (.timeout id) (cluster.setPhase id rpc
        (.replied .errTimeout "" (cluster.peers rpc.server).applied (some index)))
  | cleaned (id : Nat) (rpc : Rpc n) (err : Err) (value : String) (applied index : Nat)
      (found : cluster.rpcs[id]? = some rpc)
      (phase : rpc.phase = .replied err value applied (some index)) :
      Step cluster (.cleanup id)
        ((cluster.setServer rpc.server
          ((cluster.servers rpc.server).removeNotifyChannel index)).setPhase id rpc
            (.replied err value applied none))
  | acknowledged (id : Nat) (rpc : Rpc n) (args : PutAppendArgs) (err : Err) (value : String)
      (applied : Nat) (cleanup : Option Nat) (found : cluster.rpcs[id]? = some rpc)
      (asks : rpc.args = .putAppend args) (phase : rpc.phase = .replied err value applied cleanup)
      (pending : (cluster.clerks args.clientId).pending = some args)
      (led : err ≠ .errWrongLeader) (intime : err ≠ .errTimeout) :
      Step cluster (.acknowledge id) (cluster.setClerk args.clientId
        { seqId := (cluster.clerks args.clientId).seqId + 1, pending := none })
  | applied (server : Fin n) (snapshot : Bool) (entry : Entry) (agreed : List Entry)
      (kv : KVServer)
      (found : (cluster.peers server).log[(cluster.peers server).applied]? = some entry)
      (agrees : settle cluster.agreed (cluster.peers server).applied entry = some agreed)
      (handled : (cluster.servers server).applyCommand ((cluster.peers server).applied + 1)
        entry.op (cluster.peers server).leading = some kv) :
      Step cluster (.apply server snapshot)
        { (cluster.setServer server kv).setPeer server { cluster.peers server with
            applied := (cluster.peers server).applied + 1
            snapshot := if snapshot then
                some (kv.makeSnapshot ((cluster.peers server).applied + 1))
              else (cluster.peers server).snapshot } with
          agreed }
  | installed (server source : Fin n) (image : Image)
      (held : (cluster.peers source).snapshot = some image)
      (ahead : (cluster.peers server).applied < image.index)
      (within : image.index ≤ (cluster.peers server).log.length)
      (agrees : (cluster.peers server).log.take image.index = cluster.agreed.take image.index) :
      Step cluster (.install server source)
        ((cluster.setServer server ((cluster.servers server).applySnapshot image)).setPeer server
          { cluster.peers server with applied := image.index, snapshot := some image })
  | restarted (server : Fin n) : Step cluster (.restart server) (cluster.restart server)

variable {cluster next : KVCluster n}

theorem check_step {id : Nat} (stepped : cluster.check id = some next) :
    cluster.Step (.check id) next := by
  obtain ⟨rpc, found, rest⟩ := Option.bind_eq_some_iff.mp stepped
  split at rest
  · rename_i args asks phase
    dsimp only at rest
    split at rest
    · rename_i duplicated
      cases rest
      exact .duplicate id rpc args found asks duplicated
    · cases rest
      exact .checked id rpc found
  · cases rest

theorem start_step {id : Nat} (stepped : cluster.start id = some next) :
    cluster.Step (.start id) next := by
  obtain ⟨rpc, found, rest⟩ := Option.bind_eq_some_iff.mp stepped
  obtain ⟨op, asks, rest⟩ := Option.bind_eq_some_iff.mp rest
  dsimp only at rest
  split at rest
  · cases rest
  · rename_i phase
    split at rest
    · cases rest
      exact .refused id rpc found
    · rename_i leading
      cases rest
      exact .started id rpc op found asks (not_not.mp phase) (by simpa using leading)

theorem receive_step {id : Nat} (stepped : cluster.receive id = some next) :
    cluster.Step (.receive id) next := by
  obtain ⟨rpc, found, rest⟩ := Option.bind_eq_some_iff.mp stepped
  split at rest
  · rename_i index term channel phase
    obtain ⟨result, buffered, rest⟩ := Option.bind_eq_some_iff.mp rest
    cases rest
    refine .received id rpc index term channel result _ found phase buffered ?_
    intro args asks
    rw [asks]
  · cases rest

theorem acknowledge_step {id : Nat} (stepped : cluster.acknowledge id = some next) :
    cluster.Step (.acknowledge id) next := by
  obtain ⟨rpc, found, rest⟩ := Option.bind_eq_some_iff.mp stepped
  split at rest
  · rename_i args err value applied cleanup asks phase
    dsimp only at rest
    split at rest
    · rename_i ends
      cases rest
      exact .acknowledged id rpc args err value applied cleanup found asks phase ends.1 ends.2.1
        ends.2.2
    · cases rest
  · cases rest

theorem settle_cases {agreed settled : List Entry} {position : Nat} {entry : Entry}
    (agrees : settle agreed position entry = some settled) :
    (agreed.length ≤ position ∧ settled = agreed ++ [entry]) ∨
      (agreed[position]? = some entry ∧ settled = agreed) := by
  unfold settle at agrees
  split at agrees
  · rename_i missing
    cases agrees
    exact .inl ⟨List.getElem?_eq_none_iff.mp missing, rfl⟩
  · rename_i other present
    split at agrees
    · rename_i same
      cases agrees
      exact .inr ⟨same ▸ present, rfl⟩
    · cases agrees

theorem apply_step {server : Fin n} {snapshot : Bool}
    (stepped : cluster.apply server snapshot = some next) :
    cluster.Step (.apply server snapshot) next := by
  obtain ⟨entry, found, rest⟩ := Option.bind_eq_some_iff.mp stepped
  obtain ⟨agreed, agrees, rest⟩ := Option.bind_eq_some_iff.mp rest
  obtain ⟨kv, handled, rest⟩ := Option.bind_eq_some_iff.mp rest
  cases rest
  exact .applied server snapshot entry agreed kv found agrees handled

theorem step_cases {event : KVEvent n} (stepped : cluster.step event = some next) :
    cluster.Step event next := by
  cases event with
  | raft server term leading log =>
      simp only [step, raft] at stepped
      split at stepped
      · rename_i allowed
        cases stepped
        exact .raft server term leading log allowed
      · cases stepped
  | write clientId key value op =>
      simp only [step, write] at stepped
      split at stepped
      · cases stepped
      · rename_i idle
        cases stepped
        exact .write clientId key value op idle
  | send clientId server =>
      obtain ⟨args, pending, rest⟩ := Option.bind_eq_some_iff.mp stepped
      cases rest
      exact .send clientId server args pending
  | read server key =>
      cases stepped
      exact .read server key
  | check id => exact check_step stepped
  | start id => exact start_step stepped
  | register id =>
      obtain ⟨rpc, found, rest⟩ := Option.bind_eq_some_iff.mp stepped
      split at rest
      · rename_i index term phase
        cases rest
        exact .registered id rpc index term found phase
      · cases rest
  | receive id => exact receive_step stepped
  | timeout id =>
      obtain ⟨rpc, found, rest⟩ := Option.bind_eq_some_iff.mp stepped
      split at rest
      · rename_i index _ _ phase
        cases rest
        exact .timedOut id rpc index found
      · cases rest
  | cleanup id =>
      obtain ⟨rpc, found, rest⟩ := Option.bind_eq_some_iff.mp stepped
      split at rest
      · rename_i err value applied index phase
        cases rest
        exact .cleaned id rpc err value applied index found phase
      · cases rest
  | acknowledge id => exact acknowledge_step stepped
  | apply server snapshot => exact apply_step stepped
  | install server source =>
      obtain ⟨image, held, rest⟩ := Option.bind_eq_some_iff.mp stepped
      split at rest
      · rename_i allowed
        cases rest
        exact .installed server source image held allowed.1 allowed.2.1 allowed.2.2
      · cases rest
  | restart server =>
      cases stepped
      exact .restarted server

end KVCluster

end MultiRaft.KVRaft
