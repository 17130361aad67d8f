import MultiRaft.KVRaft.Agreement

/-!
# Clients write in the order of their numbers

A `Clerk` goes on to its next number only when a reply has ended its loop.  As
long as such a reply means that the write is agreed, all writes of a client are
agreed in the order of their numbers, so that a record of the duplicate table
vouches for every smaller number too.
-/

namespace MultiRaft.KVRaft

theorem getOperationType_ne_get {word : String} {opType : OperationType}
    (known : getOperationType word = some opType) : opType ≠ .get := by
  unfold getOperationType at known
  split at known
  · cases known
    simp
  · split at known
    · cases known
      simp
    · cases known

/-- `PutAppend` passes its two numbers on to `Start`. -/
theorem Args.op_putAppend {args : PutAppendArgs} {op : Op}
    (asks : (Args.putAppend args).op = some op) :
    op.opType ≠ .get ∧ op.clientId = args.clientId ∧ op.seqId = args.seqId := by
  obtain ⟨opType, known, made⟩ := Option.bind_eq_some_iff.mp asks
  cases made
  exact ⟨getOperationType_ne_get known, rfl, rfl⟩

/-- A `Get` passes no numbers. -/
theorem Args.putAppend_of_op {args : Args} {op : Op} (asks : args.op = some op)
    (writes : op.opType ≠ .get) : ∃ request, args = .putAppend request := by
  cases args with
  | get args =>
      cases asks
      exact absurd rfl writes
  | putAppend args => exact ⟨args, rfl⟩

theorem Writes.lt_length {agreed : List Entry} {position clientId seqId : Nat}
    (writes : Writes agreed position clientId seqId) : position < agreed.length := by
  obtain ⟨entry, present, -⟩ := writes
  exact (List.getElem?_eq_some_iff.mp present).1

namespace KVCluster

variable {n : Nat} {cluster next : KVCluster n} {event : KVEvent n}

structure Clients (cluster : KVCluster n) : Prop where
  issued : ∀ rpc ∈ cluster.rpcs, ∀ args, rpc.args = .putAppend args →
    args.seqId ≤ (cluster.clerks args.clientId).seqId
  pending : ∀ clientId args, (cluster.clerks clientId).pending = some args →
    args.clientId = clientId ∧ args.seqId = (cluster.clerks clientId).seqId
  placed : ∀ slot ∈ cluster.placed, slot.2.op.opType ≠ .get →
    slot.2.op.seqId ≤ (cluster.clerks slot.2.op.clientId).seqId
  acknowledged : ∀ clientId seqId, seqId < (cluster.clerks clientId).seqId →
    ∃ position, Writes cluster.agreed position clientId seqId
  ordered : ∀ position clientId seqId, Writes cluster.agreed position clientId seqId →
    ∀ smaller < seqId, ∃ earlier < position, Writes cluster.agreed earlier clientId smaller

/-- A server that calls a request a duplicate has applied the write. -/
theorem Clients.writes_of_duplicated (clients : cluster.Clients) {count clientId seqId : Nat}
    (duplicated : (stateAt cluster.agreed count).requestDuplicated clientId seqId = true) :
    ∃ position < count, Writes cluster.agreed position clientId seqId := by
  unfold Replica.requestDuplicated at duplicated
  cases recorded : (stateAt cluster.agreed count).duplicateTable clientId with
  | none => simp [recorded] at duplicated
  | some info =>
      have small : seqId ≤ info.seqId := by simpa [recorded] using duplicated
      obtain ⟨position, early, writes⟩ := writes_of_table recorded
      rcases Nat.eq_or_lt_of_le small with rfl | smaller
      · exact ⟨position, early, writes⟩
      · obtain ⟨earlier, before, written⟩ := clients.ordered position clientId _ writes _ smaller
        exact ⟨earlier, by omega, written⟩

/-- Steps that leave the clerks alone and pass requests on as they are. -/
theorem Clients.quiet (clients : cluster.Clients) (clerks : next.clerks = cluster.clerks)
    (agreed : next.agreed = cluster.agreed) (placed : next.placed = cluster.placed)
    (rpcs : ∀ rpc ∈ next.rpcs, ∃ old ∈ cluster.rpcs, old.args = rpc.args) : next.Clients where
  issued rpc sent args asks := by
    obtain ⟨old, held, same⟩ := rpcs rpc sent
    rw [clerks]
    exact clients.issued old held args (same.trans asks)
  pending := by simpa only [clerks] using clients.pending
  placed := by simpa only [clerks, placed] using clients.placed
  acknowledged := by simpa only [clerks, agreed] using clients.acknowledged
  ordered := by simpa only [agreed] using clients.ordered

theorem mem_setPhase {id : Nat} {rpc : Rpc n} {phase : Phase}
    (found : cluster.rpcs[id]? = some rpc) :
    ∀ other ∈ cluster.rpcs.set id { rpc with phase }, ∃ old ∈ cluster.rpcs,
      old.args = other.args := by
  intro other held
  rcases List.mem_or_eq_of_mem_set held with old | rfl
  · exact ⟨other, old, rfl⟩
  · exact ⟨rpc, List.mem_of_getElem? found, rfl⟩

theorem mem_restart {server : Fin n} :
    ∀ rpc ∈ (cluster.restart server).rpcs, ∃ old ∈ cluster.rpcs, old.args = rpc.args := by
  intro rpc held
  obtain ⟨old, before, rfl⟩ := List.mem_map.mp held
  refine ⟨old, before, ?_⟩
  split
  · split <;> rfl
  · rfl

theorem Clients.send (clients : cluster.Clients) {server : Fin n} {args : Args} {phase : Phase}
    (known : ∀ request, args = .putAppend request →
      request.seqId ≤ (cluster.clerks request.clientId).seqId) :
    ({ cluster with rpcs := cluster.rpcs ++ [{ server, args, phase }] } :
      KVCluster n).Clients := by
  refine { clients with issued := ?_ }
  intro rpc sent request asks
  rcases List.mem_append.mp sent with old | new
  · exact clients.issued rpc old request asks
  · obtain rfl := List.mem_singleton.mp new
    exact known request asks

/-- A clerk may begin a write under its number, or move on from agreed ones. -/
theorem Clients.clerk (clients : cluster.Clients) {clientId : Nat} {clerk : Clerk}
    (later : (cluster.clerks clientId).seqId ≤ clerk.seqId)
    (pending : ∀ args, clerk.pending = some args →
      args.clientId = clientId ∧ args.seqId = clerk.seqId)
    (acknowledged : ∀ seqId < clerk.seqId,
      ∃ position, Writes cluster.agreed position clientId seqId) :
    (cluster.setClerk clientId clerk).Clients := by
  have grows : ∀ other, (cluster.clerks other).seqId ≤
      ((cluster.setClerk clientId clerk).clerks other).seqId := by
    intro other
    by_cases same : other = clientId
    · subst same
      simpa [setClerk] using later
    · simp [setClerk, same]
  refine ⟨?_, ?_, ?_, ?_, clients.ordered⟩
  · intro rpc sent args asks
    exact Nat.le_trans (clients.issued rpc sent args asks) (grows _)
  · intro other
    by_cases same : other = clientId
    · subst same
      simpa [setClerk] using pending
    · simpa [setClerk, same] using clients.pending other
  · intro slot held written
    exact Nat.le_trans (clients.placed slot held written) (grows _)
  · intro other
    by_cases same : other = clientId
    · subst same
      simpa [setClerk] using acknowledged
    · simpa [setClerk, same] using clients.acknowledged other

theorem Clients.place (clients : cluster.Clients) {position : Nat} {entry : Entry}
    (clerks : next.clerks = cluster.clerks) (agreed : next.agreed = cluster.agreed)
    (placed : next.placed = cluster.placed ++ [(position, entry)])
    (rpcs : ∀ rpc ∈ next.rpcs, ∃ old ∈ cluster.rpcs, old.args = rpc.args)
    (known : entry.op.opType ≠ .get →
      entry.op.seqId ≤ (cluster.clerks entry.op.clientId).seqId) : next.Clients := by
  have quiet : ({ next with placed := cluster.placed } : KVCluster n).Clients :=
    clients.quiet clerks agreed rfl rpcs
  refine { quiet with placed := ?_ }
  intro slot held writes
  rw [placed] at held
  rcases List.mem_append.mp held with old | new
  · exact quiet.placed slot old writes
  · obtain rfl := List.mem_singleton.mp new
    rw [clerks]
    exact known writes

/-- A newly agreed write has all smaller numbers of its client before it. -/
theorem Clients.agree (clients : cluster.Clients) (agreement : cluster.Agreement)
    {server : Fin n} {entry : Entry} {agreed : List Entry}
    (found : (cluster.peers server).log[(cluster.peers server).applied]? = some entry)
    (agrees : settle cluster.agreed (cluster.peers server).applied entry = some agreed)
    (clerks : next.clerks = cluster.clerks) (rpcs : next.rpcs = cluster.rpcs)
    (placed : next.placed = cluster.placed) (settled : next.agreed = agreed) :
    next.Clients := by
  have follows := agreement.follows server
  obtain ⟨grown, -⟩ := settle_grown agrees follows.agreed_long
  refine ⟨?_, ?_, ?_, ?_, ?_⟩
  · simpa only [clerks, rpcs] using clients.issued
  · simpa only [clerks] using clients.pending
  · simpa only [clerks, placed] using clients.placed
  · intro clientId seqId small
    rw [clerks] at small
    obtain ⟨position, writes⟩ := clients.acknowledged clientId seqId small
    exact ⟨position, settled ▸ writes.of_grown grown⟩
  · rw [settled]
    intro position clientId seqId ⟨written, present, writes, client, number⟩ smaller less
    have earlier : (∃ before < position, Writes cluster.agreed before clientId smaller) := by
      rcases settle_cases agrees with ⟨beyond, rfl⟩ | ⟨-, rfl⟩
      · rcases getElem?_concat present with old | ⟨rfl, rfl⟩
        · exact clients.ordered position clientId seqId ⟨written, old, writes, client, number⟩
            smaller less
        · have bound := clients.placed _ (follows.log_placed _ _ found) writes
          simp only [client, number] at bound
          obtain ⟨before, done⟩ := clients.acknowledged clientId smaller (by omega)
          exact ⟨before, done.lt_length, done⟩
      · exact clients.ordered position clientId seqId ⟨written, present, writes, client, number⟩
          smaller less
    obtain ⟨before, early, done⟩ := earlier
    exact ⟨before, early, done.of_grown grown⟩

/-- All but the end of a clerk's loop, which rests on the reply it ends with. -/
theorem Clients.step (clients : cluster.Clients) (agreement : cluster.Agreement)
    (stepped : cluster.Step event next)
    (honest : ∀ (id : Nat) (rpc : Rpc n) args err value applied cleanup,
      cluster.rpcs[id]? = some rpc → rpc.args = .putAppend args →
      rpc.phase = .replied err value applied cleanup → err ≠ .errWrongLeader → err ≠ .errTimeout →
      ∃ position < applied, Writes cluster.agreed position args.clientId args.seqId) :
    next.Clients := by
  cases stepped with
  | write clientId key value op _ =>
      apply clients.clerk
      · exact Nat.le_refl _
      · intro args asks
        cases asks
        exact ⟨rfl, rfl⟩
      · exact clients.acknowledged clientId
  | send clientId server args pending =>
      apply clients.send
      intro request asks
      cases asks
      obtain ⟨client, number⟩ := clients.pending clientId args pending
      rw [client]
      exact Nat.le_of_eq number
  | read server key =>
      apply clients.send
      intro request asks
      cases asks
  | started id rpc op found asks _ _ =>
      refine clients.place rfl rfl rfl (mem_setPhase found) ?_
      intro writes
      obtain ⟨args, same⟩ := Args.putAppend_of_op asks writes
      obtain ⟨-, client, number⟩ := Args.op_putAppend (same ▸ asks)
      dsimp only
      rw [client, number]
      exact clients.issued rpc (List.mem_of_getElem? found) args same
  | acknowledged id rpc args err value applied cleanup found asks phase pending led intime =>
      obtain ⟨position, -, writes⟩ :=
        honest id rpc args err value applied cleanup found asks phase led intime
      rw [(clients.pending _ args pending).2] at writes
      apply clients.clerk (Nat.le_succ _) (by simp)
      intro seqId small
      rcases Nat.eq_or_lt_of_le (Nat.le_of_lt_succ small) with rfl | smaller
      · exact ⟨position, writes⟩
      · exact clients.acknowledged args.clientId seqId smaller
  | applied server snapshot entry agreed kv found agrees _ =>
      exact clients.agree agreement found agrees rfl rfl rfl rfl
  | duplicate id rpc args found _ _ => exact clients.quiet rfl rfl rfl (mem_setPhase found)
  | checked id rpc found => exact clients.quiet rfl rfl rfl (mem_setPhase found)
  | refused id rpc found => exact clients.quiet rfl rfl rfl (mem_setPhase found)
  | registered id rpc _ _ found _ => exact clients.quiet rfl rfl rfl (mem_setPhase found)
  | received id rpc _ _ _ _ _ found _ _ _ =>
      exact clients.quiet rfl rfl rfl (mem_setPhase found)
  | timedOut id rpc _ found => exact clients.quiet rfl rfl rfl (mem_setPhase found)
  | cleaned id rpc _ _ _ _ found _ => exact clients.quiet rfl rfl rfl (mem_setPhase found)
  | restarted server => exact clients.quiet rfl rfl rfl mem_restart
  | raft => exact clients.quiet rfl rfl rfl fun rpc held => ⟨rpc, held, rfl⟩
  | installed => exact clients.quiet rfl rfl rfl fun rpc held => ⟨rpc, held, rfl⟩

theorem clients_initial : (KVCluster.initial n).Clients := by
  constructor <;> simp [initial, Writes]

end KVCluster

end MultiRaft.KVRaft
