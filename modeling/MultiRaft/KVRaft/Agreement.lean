import MultiRaft.KVRaft.Step
import MultiRaft.Lib.Lists
import Mathlib.Data.List.Induction

/-!
# Every replica is the replay of an agreed prefix

The state machine and the duplicate table of a server, and every image that a
persister holds, are what the agreed commands up to some index amount to.
-/

namespace MultiRaft.KVRaft

namespace Replica

theorem replay_concat (ops : List Op) (op : Op) :
    replay (ops ++ [op]) = ((replay ops).apply op).1 := by
  simp [replay]

theorem applyToStateMachine_table (replica : Replica) (op : Op) :
    (replica.applyToStateMachine op).1.duplicateTable = replica.duplicateTable := by
  unfold applyToStateMachine
  cases op.opType <;> rfl

/-- A command changes the record of its own client only. -/
theorem apply_table {replica : Replica} {op : Op} {clientId : Nat} {info : LastOperationInfo}
    (recorded : (replica.apply op).1.duplicateTable clientId = some info) :
    replica.duplicateTable clientId = some info ∨
      (op.opType ≠ .get ∧ op.clientId = clientId ∧ op.seqId = info.seqId) := by
  have kept := applyToStateMachine_table replica op
  unfold apply at recorded
  generalize replica.applyToStateMachine op = result at kept recorded
  split at recorded
  · exact .inl recorded
  · by_cases writes : op.opType ≠ .get
    · simp only [if_pos writes] at recorded
      by_cases same : clientId = op.clientId
      · subst same
        simp only [Function.update_self, Option.some.injEq] at recorded
        exact .inr ⟨writes, rfl, by simp [← recorded]⟩
      · rw [Function.update_of_ne same, kept] at recorded
        exact .inl recorded
    · simp only [if_neg writes, kept] at recorded
      exact .inl recorded

/-- What the table records was written by a command of the sequence. -/
theorem replay_table {ops : List Op} {clientId : Nat} {info : LastOperationInfo}
    (recorded : (replay ops).duplicateTable clientId = some info) :
    ∃ op ∈ ops, op.opType ≠ .get ∧ op.clientId = clientId ∧ op.seqId = info.seqId := by
  induction ops using List.reverseRecOn with
  | nil => simp [replay, new] at recorded
  | append_singleton ops op inductionHypothesis =>
      rw [replay_concat] at recorded
      rcases apply_table recorded with before | now
      · obtain ⟨earlier, occurs, writes⟩ := inductionHypothesis before
        exact ⟨earlier, List.mem_append_left _ occurs, writes⟩
      · exact ⟨op, by simp, now⟩

theorem apply_get (replica : Replica) {op : Op} (reads : op.opType = .get) :
    (replica.apply op).2 = { value := (replica.stateMachine.get op.key).1
                             err := (replica.stateMachine.get op.key).2 } := by
  simp [apply, applyToStateMachine, reads]

end Replica

/-- The replica after the first `count` agreed commands. -/
def stateAt (agreed : List Entry) (count : Nat) : Replica :=
  .replay ((agreed.take count).map Entry.op)

/-- The agreed command at a position is the write with these two numbers. -/
def Writes (agreed : List Entry) (position clientId seqId : Nat) : Prop :=
  ∃ entry, agreed[position]? = some entry ∧ entry.op.opType ≠ .get ∧
    entry.op.clientId = clientId ∧ entry.op.seqId = seqId

variable {agreed settled : List Entry}

theorem getElem?_of_grown {position : Nat} {entry : Entry} (grown : agreed <+: settled)
    (present : agreed[position]? = some entry) :
    settled[position]? = some entry := by
  obtain ⟨rest, rfl⟩ := grown
  rw [List.getElem?_append_left (List.getElem?_eq_some_iff.mp present).1]
  exact present

theorem take_of_grown {count : Nat} (grown : agreed <+: settled) (within : count ≤ agreed.length) :
    settled.take count = agreed.take count := by
  obtain ⟨rest, rfl⟩ := grown
  exact List.take_append_of_le_length within

theorem stateAt_of_grown {count : Nat} (grown : agreed <+: settled)
    (within : count ≤ agreed.length) :
    stateAt settled count = stateAt agreed count := by
  simp only [stateAt, take_of_grown grown within]

theorem stateAt_succ {count : Nat} {entry : Entry} (present : agreed[count]? = some entry) :
    stateAt agreed (count + 1) = ((stateAt agreed count).apply entry.op).1 := by
  simp only [stateAt, List.take_add_one, present, Option.toList_some, List.map_append,
    List.map_cons, List.map_nil, Replica.replay_concat]

theorem Writes.of_grown {position clientId seqId : Nat} (grown : agreed <+: settled)
    (writes : Writes agreed position clientId seqId) :
    Writes settled position clientId seqId := by
  obtain ⟨entry, present, described⟩ := writes
  exact ⟨entry, getElem?_of_grown grown present, described⟩

/-- A record of the table names a write before the prefix ends. -/
theorem writes_of_table {count clientId : Nat} {info : LastOperationInfo}
    (recorded : (stateAt agreed count).duplicateTable clientId = some info) :
    ∃ position < count, Writes agreed position clientId info.seqId := by
  obtain ⟨op, occurs, writes⟩ := Replica.replay_table recorded
  obtain ⟨entry, taken, rfl⟩ := List.mem_map.mp occurs
  obtain ⟨position, present⟩ := List.mem_iff_getElem?.mp taken
  have early : position < count := by
    have inside := (List.getElem?_eq_some_iff.mp present).1
    rw [List.length_take] at inside
    omega
  rw [List.getElem?_take_of_lt early] at present
  exact ⟨position, early, entry, present, writes⟩

theorem settle_grown {position : Nat} {entry : Entry}
    (agrees : KVCluster.settle agreed position entry = some settled)
    (within : position ≤ agreed.length) :
    agreed <+: settled ∧ settled[position]? = some entry := by
  rcases KVCluster.settle_cases agrees with ⟨beyond, rfl⟩ | ⟨present, rfl⟩
  · obtain rfl : position = agreed.length := by omega
    exact ⟨List.prefix_append _ _, by simp⟩
  · exact ⟨List.prefix_rfl, present⟩

/-- A server and its Raft peer stand at a point of the agreed sequence. -/
structure Follows (agreed : List Entry) (placed : List (Nat × Entry)) (peer : RaftPeer)
    (kv : KVServer) : Prop where
  agreed_long : peer.applied ≤ agreed.length
  log_long : peer.applied ≤ peer.log.length
  log_agrees : peer.log.take peer.applied = agreed.take peer.applied
  log_placed : ∀ position entry, peer.log[position]? = some entry → (position, entry) ∈ placed
  replica : kv.replica = stateAt agreed peer.applied
  lastApplied : kv.lastApplied ≤ peer.applied
  image_old : ∀ image, peer.snapshot = some image → image.index ≤ peer.applied
  image : ∀ image, peer.snapshot = some image → image.replica = stateAt agreed image.index

namespace Follows

variable {agreed settled : List Entry} {placed more : List (Nat × Entry)}
  {peer : RaftPeer} {kv : KVServer}

theorem mono (follows : Follows agreed placed peer kv) (grown : agreed <+: settled)
    (kept : placed ⊆ more) : Follows settled more peer kv where
  agreed_long := Nat.le_trans follows.agreed_long grown.length_le
  log_long := follows.log_long
  log_agrees := by
    rw [take_of_grown grown follows.agreed_long]
    exact follows.log_agrees
  log_placed position entry present := kept (follows.log_placed position entry present)
  replica := by
    rw [stateAt_of_grown grown follows.agreed_long]
    exact follows.replica
  lastApplied := follows.lastApplied
  image_old := follows.image_old
  image image held := by
    rw [stateAt_of_grown grown (Nat.le_trans (follows.image_old image held) follows.agreed_long)]
    exact follows.image image held

/-- Handlers move channels, and nothing else of the server. -/
theorem channels (follows : Follows agreed placed peer kv) {other : KVServer}
    (replica : other.replica = kv.replica) (lastApplied : other.lastApplied = kv.lastApplied) :
    Follows agreed placed peer other :=
  { follows with
    replica := replica.trans follows.replica
    lastApplied := lastApplied ▸ follows.lastApplied }

/-- Raft changes the log beyond what was applied. -/
theorem relog (follows : Follows agreed placed peer kv) {term : Nat} {leading : Bool}
    {log : List Entry} (long : peer.applied ≤ log.length)
    (agrees : log.take peer.applied = agreed.take peer.applied)
    (known : ∀ position entry, log[position]? = some entry → (position, entry) ∈ placed) :
    Follows agreed placed { peer with term, leading, log } kv :=
  { follows with log_long := long, log_agrees := agrees, log_placed := known }

/-- A delivered command moves server and peer one command on. -/
theorem advance (follows : Follows agreed placed peer kv) {next : KVServer} {entry : Entry}
    {snapshot : Bool} (present : agreed[peer.applied]? = some entry)
    (found : peer.log[peer.applied]? = some entry)
    (replica : next.replica = (kv.replica.apply entry.op).1)
    (lastApplied : next.lastApplied ≤ peer.applied + 1) :
    Follows agreed placed { peer with
      applied := peer.applied + 1
      snapshot := if snapshot then some (next.makeSnapshot (peer.applied + 1))
        else peer.snapshot } next := by
  have reached : next.replica = stateAt agreed (peer.applied + 1) := by
    rw [replica, follows.replica, stateAt_succ present]
  refine ⟨(List.getElem?_eq_some_iff.mp present).1, (List.getElem?_eq_some_iff.mp found).1, ?_,
    follows.log_placed, reached, lastApplied, ?_, ?_⟩
  · simp only [List.take_add_one, present, found, follows.log_agrees]
  · intro image held
    cases snapshot with
    | false => exact Nat.le_succ_of_le (follows.image_old image held)
    | true =>
        cases held
        exact Nat.le_refl _
  · intro image held
    cases snapshot with
    | false => exact follows.image image held
    | true =>
        cases held
        exact reached

/-- A snapshot moves both to its index. -/
theorem jump (follows : Follows agreed placed peer kv) {image : Image}
    (long : image.index ≤ agreed.length) (within : image.index ≤ peer.log.length)
    (agrees : peer.log.take image.index = agreed.take image.index)
    (replica : image.replica = stateAt agreed image.index) :
    Follows agreed placed { peer with applied := image.index, snapshot := some image }
      (kv.applySnapshot image) where
  agreed_long := long
  log_long := within
  log_agrees := agrees
  log_placed := follows.log_placed
  replica := replica
  lastApplied := Nat.le_refl _
  image_old _ held := by
    cases held
    exact Nat.le_refl _
  image _ held := by
    cases held
    exact replica

/-- A new process starts where the image of its persister stands. -/
theorem reboot (follows : Follows agreed placed peer kv) :
    Follows agreed placed { peer with
      leading := false
      applied := match peer.snapshot with
        | none => 0
        | some image => image.index } (.start peer.snapshot) := by
  cases held : peer.snapshot with
  | none =>
      refine ⟨Nat.zero_le _, Nat.zero_le _, rfl, follows.log_placed, rfl, Nat.le_refl _, ?_, ?_⟩
      all_goals simp
  | some image =>
      have old := follows.image_old image held
      refine ⟨Nat.le_trans old follows.agreed_long, Nat.le_trans old follows.log_long, ?_,
        follows.log_placed, follows.image image held, Nat.zero_le _, ?_, ?_⟩
      · have shorter := congrArg (List.take image.index) follows.log_agrees
        simpa [List.take_take, Nat.min_eq_left old] using shorter
      · intro other kept
        cases kept
        exact Nat.le_refl _
      · intro other kept
        cases kept
        exact follows.image image held

end Follows

namespace KVCluster

variable {n : Nat} {cluster next : KVCluster n} {event : KVEvent n}

structure Agreement (cluster : KVCluster n) : Prop where
  follows : ∀ server,
    Follows cluster.agreed cluster.placed (cluster.peers server) (cluster.servers server)
  agreed_placed : ∀ position entry, cluster.agreed[position]? = some entry →
    (position, entry) ∈ cluster.placed

/-- Only the server that takes the step has to be looked at. -/
theorem Agreement.update (agreement : cluster.Agreement) (server : Fin n)
    (grown : cluster.agreed <+: next.agreed) (kept : cluster.placed ⊆ next.placed)
    (others : ∀ other, other ≠ server →
      next.peers other = cluster.peers other ∧ next.servers other = cluster.servers other)
    (here : Follows next.agreed next.placed (next.peers server) (next.servers server))
    (known : ∀ position entry, next.agreed[position]? = some entry →
      (position, entry) ∈ next.placed) : next.Agreement := by
  refine ⟨?_, known⟩
  intro other
  by_cases same : other = server
  · subst same
    exact here
  · rw [(others other same).1, (others other same).2]
    exact (agreement.follows other).mono grown kept

variable {server : Fin n}

/-- The log that Raft moves to holds what was applied and only placed entries. -/
theorem raftAllows_log {term : Nat} {leading : Bool} {log : List Entry}
    (allowed : cluster.raftAllows server term leading log = true) :
    (cluster.peers server).applied ≤ log.length ∧
      log.take (cluster.peers server).applied =
        cluster.agreed.take (cluster.peers server).applied ∧
      ∀ position entry, log[position]? = some entry → (position, entry) ∈ cluster.placed := by
  simp only [raftAllows, Bool.and_eq_true, decide_eq_true_eq, beq_iff_eq, List.all_eq_true,
    List.contains_iff_mem] at allowed
  refine ⟨allowed.1.1.1.2, allowed.1.1.2, ?_⟩
  intro position entry present
  exact allowed.1.2 (entry, position) (List.mk_mem_zipIdx_iff_getElem?.mpr present)

theorem applyCommand_replica {kv kv' : KVServer} {index : Nat} {op : Op} {isLeader : Bool}
    (fresh : kv.lastApplied < index) (handled : kv.applyCommand index op isLeader = some kv') :
    kv'.replica = (kv.replica.apply op).1 ∧ kv'.lastApplied = index := by
  rcases KVServer.applyCommand_cases fresh handled with
    ⟨-, rfl⟩ | ⟨-, opened, channel, opening, -, rfl⟩
  · exact ⟨rfl, rfl⟩
  · rcases KVServer.getNotifyChannel_cases
      { kv with lastApplied := index, replica := (kv.replica.apply op).1 } index with
      ⟨_, _, shape⟩ | ⟨_, shape⟩
    all_goals
      rw [shape] at opening
      cases opening
      exact ⟨rfl, rfl⟩

theorem getNotifyChannel_replica (kv : KVServer) (index : Nat) :
    (kv.getNotifyChannel index).1.replica = kv.replica ∧
      (kv.getNotifyChannel index).1.lastApplied = kv.lastApplied := by
  rcases kv.getNotifyChannel_cases index with ⟨_, _, shape⟩ | ⟨_, shape⟩ <;> simp [shape]

theorem Agreement.channels (agreement : cluster.Agreement) {kv : KVServer}
    (peers : next.peers = cluster.peers)
    (servers : next.servers = Function.update cluster.servers server kv)
    (agreed : next.agreed = cluster.agreed) (placed : next.placed = cluster.placed)
    (replica : kv.replica = (cluster.servers server).replica)
    (lastApplied : kv.lastApplied = (cluster.servers server).lastApplied) :
    next.Agreement := by
  apply agreement.update server
  · simp [agreed]
  · simp [placed]
  · intro other away
    rw [peers, servers, Function.update_of_ne away]
    exact ⟨rfl, rfl⟩
  · rw [agreed, placed, peers, servers, Function.update_self]
    exact (agreement.follows server).channels replica lastApplied
  · rw [agreed, placed]
    exact agreement.agreed_placed

theorem Agreement.raft (agreement : cluster.Agreement) {term : Nat} {leading : Bool}
    {log : List Entry} {led : List Nat}
    (allowed : cluster.raftAllows server term leading log = true) :
    ({ cluster.setPeer server { cluster.peers server with term, leading, log } with
      led } : KVCluster n).Agreement := by
  obtain ⟨long, agrees, known⟩ := raftAllows_log allowed
  apply agreement.update server
  · exact List.prefix_rfl
  · exact List.Subset.refl _
  · intro other away
    simp [setPeer, away]
  · simp only [setPeer, Function.update_self]
    exact (agreement.follows server).relog long agrees known
  · exact agreement.agreed_placed

theorem Agreement.start (agreement : cluster.Agreement) {entry : Entry}
    (peers : next.peers = Function.update cluster.peers server
      { cluster.peers server with log := (cluster.peers server).log ++ [entry] })
    (servers : next.servers = cluster.servers) (agreed : next.agreed = cluster.agreed)
    (placed : next.placed = cluster.placed ++ [((cluster.peers server).log.length, entry)]) :
    next.Agreement := by
  have kept : cluster.placed ⊆ next.placed := by simp [placed]
  have follows := (agreement.follows server).mono (List.prefix_refl _) kept
  apply agreement.update server (by simp [agreed]) kept
  · intro other away
    simp [peers, servers, away]
  · rw [agreed, peers, servers, Function.update_self]
    apply follows.relog
    · simp only [List.length_append]
      have := follows.log_long
      omega
    · rw [List.take_append_of_le_length follows.log_long]
      exact follows.log_agrees
    · intro position other present
      rcases getElem?_concat present with old | ⟨rfl, rfl⟩
      · exact follows.log_placed position other old
      · simp [placed]
  · intro position other present
    rw [agreed] at present
    exact kept (agreement.agreed_placed position other present)

theorem Agreement.apply (agreement : cluster.Agreement) {entry : Entry} {kv : KVServer}
    {snapshot : Bool}
    (found : (cluster.peers server).log[(cluster.peers server).applied]? = some entry)
    (agrees : settle cluster.agreed (cluster.peers server).applied entry = some agreed)
    (handled : (cluster.servers server).applyCommand ((cluster.peers server).applied + 1)
      entry.op (cluster.peers server).leading = some kv) :
    ({ (cluster.setServer server kv).setPeer server { cluster.peers server with
        applied := (cluster.peers server).applied + 1
        snapshot := if snapshot then
            some (kv.makeSnapshot ((cluster.peers server).applied + 1))
          else (cluster.peers server).snapshot } with
      agreed } : KVCluster n).Agreement := by
  have follows := agreement.follows server
  obtain ⟨grown, present⟩ := settle_grown agrees follows.agreed_long
  obtain ⟨replica, lastApplied⟩ :=
    applyCommand_replica (Nat.lt_succ_of_le follows.lastApplied) handled
  apply agreement.update server
  · exact grown
  · exact List.Subset.refl _
  · intro other away
    simp [setPeer, setServer, away]
  · simp only [setPeer, setServer, Function.update_self]
    exact (follows.mono grown (List.Subset.refl _)).advance present found replica
      (Nat.le_of_eq lastApplied)
  · intro position other held
    rcases settle_cases agrees with ⟨beyond, rfl⟩ | ⟨-, rfl⟩
    · rcases getElem?_concat held with old | ⟨rfl, rfl⟩
      · exact agreement.agreed_placed position other old
      · have long := follows.agreed_long
        obtain here : (cluster.peers server).applied = cluster.agreed.length := by omega
        exact follows.log_placed _ _ (here ▸ found)
    · exact agreement.agreed_placed position other held

theorem Agreement.install (agreement : cluster.Agreement) {source : Fin n} {image : Image}
    (held : (cluster.peers source).snapshot = some image)
    (within : image.index ≤ (cluster.peers server).log.length)
    (agrees : (cluster.peers server).log.take image.index = cluster.agreed.take image.index) :
    ((cluster.setServer server ((cluster.servers server).applySnapshot image)).setPeer server
      { cluster.peers server with
        applied := image.index, snapshot := some image }).Agreement := by
  have made := agreement.follows source
  apply agreement.update server
  · exact List.prefix_rfl
  · exact List.Subset.refl _
  · intro other away
    simp [setPeer, setServer, away]
  · simp only [setPeer, setServer, Function.update_self]
    exact (agreement.follows server).jump
      (Nat.le_trans (made.image_old image held) made.agreed_long) within agrees
      (made.image image held)
  · exact agreement.agreed_placed

theorem Agreement.restart (agreement : cluster.Agreement) (server : Fin n) :
    (cluster.restart server).Agreement := by
  apply agreement.update server
  · exact List.prefix_rfl
  · exact List.Subset.refl _
  · intro other away
    simp [KVCluster.restart, setPeer, setServer, away]
  · simp only [KVCluster.restart, setPeer, setServer, Function.update_self]
    exact (agreement.follows server).reboot
  · exact agreement.agreed_placed

theorem Agreement.step (agreement : cluster.Agreement) (stepped : cluster.Step event next) :
    next.Agreement := by
  cases stepped with
  | raft server term leading log allowed => exact agreement.raft allowed
  | started id rpc op _ _ _ _ => exact agreement.start rfl rfl rfl rfl
  | registered id rpc index term _ _ =>
      obtain ⟨replica, lastApplied⟩ :=
        getNotifyChannel_replica (cluster.servers rpc.server) index
      exact agreement.channels rfl rfl rfl rfl replica lastApplied
  | received => exact agreement.channels rfl rfl rfl rfl rfl rfl
  | cleaned => exact agreement.channels rfl rfl rfl rfl rfl rfl
  | applied server snapshot entry agreed kv found agrees handled =>
      exact agreement.apply found agrees handled
  | installed server source image held _ within agrees =>
      exact agreement.install held within agrees
  | restarted server => exact agreement.restart server
  | _ => exact ⟨agreement.follows, agreement.agreed_placed⟩

theorem agreement_initial : (KVCluster.initial n).Agreement := by
  constructor
  · intro server
    constructor <;> simp [initial, KVServer.start, stateAt, Replica.replay]
  · simp [initial]

end KVCluster

end MultiRaft.KVRaft
