import MultiRaft.KVRaft.Replies
import MultiRaft.Porcupine.KvModel

/-!
# The operations of the clients of a kvraft cluster

The test harness notes for every operation of a `Clerk` when it was called, what it
returned and when.  The clock here ticks with every step of the cluster.  Every call of a
`Get` has a record of its own, whose interval lies within the loop of the `Clerk`.
-/

namespace MultiRaft.KVRaft

open Porcupine (KvInput KvOutput)

/-- A write is known by its two numbers, a `Get` by its remote call. -/
inductive Tag where
  | write (clientId seqId : Nat)
  | read (rpc : Nat)
  deriving DecidableEq

/-- `ret` is missing as long as the operation has not returned. -/
structure Record where
  tag : Tag
  input : KvInput
  call : Nat
  output : KvOutput
  ret : Option Nat

/-- The code of an operation in `KvInput`. -/
def OperationType.code : OperationType → UInt8
  | .get => 0
  | .put => 1
  | .append => 2

def opCode (word : String) : UInt8 := if word = "Put" then 1 else 2

structure Recorded (n : Nat) where
  cluster : KVCluster n
  clock : Nat
  records : List Record

/-- The operation has returned. -/
def complete (records : List Record) (tag : Tag) (output : KvOutput) (clock : Nat) :
    List Record :=
  records.map fun record =>
    if record.tag = tag then { record with output, ret := some clock } else record

/-- What the clients note at a step that leads from one cluster to the next. -/
def note {n : Nat} (cluster next : KVCluster n) (clock : Nat) (records : List Record) :
    KVEvent n → List Record
  | .write clientId key value op =>
      records ++ [{
        tag := .write clientId (cluster.clerks clientId).seqId
        input := { op := opCode op, key, value }, call := clock, output := { value := "" }
        ret := none }]
  | .read _ key =>
      records ++ [{
        tag := .read cluster.rpcs.length
        input := { op := 0, key, value := "" }, call := clock, output := { value := "" }
        ret := none }]
  | .acknowledge id =>
      match cluster.rpcs[id]? with
      | some { args := .putAppend args, .. } =>
          complete records (.write args.clientId args.seqId) { value := "" } clock
      | _ => records
  | .receive id =>
      match next.rpcs[id]? with
      | some { args := .get _, phase := .replied err value _ _, .. } =>
          if err = .errWrongLeader ∨ err = .errTimeout then records
          else complete records (.read id) { value } clock
      | _ => records
  | _ => records

def recordedSystem (n : Nat) : System (Recorded n) (KVEvent n) where
  init recorded := recorded = { cluster := .initial n, clock := 0, records := [] }
  step recorded event := (recorded.cluster.step event).map fun next =>
    { cluster := next
      clock := recorded.clock + 1
      records := note recorded.cluster next recorded.clock recorded.records event }

def Args.tag (id : Nat) : Args → Tag
  | .get _ => .read id
  | .putAppend args => .write args.clientId args.seqId

def PutAppendArgs.input (args : PutAppendArgs) : KvInput :=
  { op := opCode args.op, key := args.key, value := args.value }

def Args.input : Args → KvInput
  | .get args => { op := 0, key := args.key, value := "" }
  | .putAppend args => args.input

def Op.input (op : Op) : KvInput := { op := op.opType.code, key := op.key, value := op.value }

def Entry.tag (entry : Entry) : Tag :=
  if entry.op.opType = .get then .read entry.rpc else .write entry.op.clientId entry.op.seqId

/-- `Start` passes the input on. -/
theorem Args.op_input {args : Args} {op : Op} (asks : args.op = some op) :
    op.input = args.input := by
  cases args with
  | get args =>
      cases asks
      rfl
  | putAppend args =>
      obtain ⟨opType, known, made⟩ := Option.bind_eq_some_iff.mp asks
      cases made
      unfold getOperationType at known
      simp only [Op.input, Args.input, PutAppendArgs.input, opCode]
      split at known
      · rename_i isPut
        cases known
        rw [if_pos isPut]
        rfl
      · rename_i notPut
        split at known
        · cases known
          rw [if_neg notPut]
          rfl
        · cases known

theorem Args.op_tag {args : Args} {op : Op} (asks : args.op = some op) (term id : Nat) :
    ({ term, op, rpc := id } : Entry).tag = args.tag id := by
  cases args with
  | get args =>
      cases asks
      rfl
  | putAppend args =>
      obtain ⟨writes, client, number⟩ := Args.op_putAppend asks
      rw [Entry.tag, if_neg writes, client, number]
      rfl

theorem writes_iff_tag {agreed : List Entry} {position clientId seqId : Nat} :
    Writes agreed position clientId seqId ↔
      ∃ entry, agreed[position]? = some entry ∧ entry.tag = .write clientId seqId := by
  refine exists_congr fun entry => and_congr_right fun _ => ?_
  rw [Entry.tag]
  split
  · rename_i reads
    simp [reads]
  · rename_i writes
    simp [writes]

/-- The operation with this tag and input has been called. -/
def Noted (records : List Record) (tag : Tag) (input : KvInput) : Prop :=
  ∃ record ∈ records, record.tag = tag ∧ record.input = input

/-- The operation took effect at a position that was agreed by then. -/
def TakesEffect (agreed : List Entry) (bound : Nat) (record : Record) : Prop :=
  ∃ position < bound, ∃ entry, agreed[position]? = some entry ∧ entry.tag = record.tag ∧
    (∀ id, record.tag = .read id →
      record.output.value = ((stateAt agreed position).stateMachine.get record.input.key).1)

/-- The records fit the cluster; `len` is the length of the agreed sequence at each time. -/
structure Logged {n : Nat} (len : Nat → Nat) (clock : Nat) (records : List Record)
    (cluster : KVCluster n) : Prop where
  now : len clock = cluster.agreed.length
  mono : ∀ early late, early ≤ late → late ≤ clock → len early ≤ len late
  apart : (records.map (·.tag)).Nodup
  called : ∀ record ∈ records, record.call < clock
  numbers : ∀ record ∈ records, ∀ clientId seqId, record.tag = .write clientId seqId →
    seqId < (cluster.clerks clientId).seqId ∨
      seqId = (cluster.clerks clientId).seqId ∧ (cluster.clerks clientId).pending.isSome
  reads : ∀ record ∈ records, ∀ id, record.tag = .read id → id < cluster.rpcs.length
  pending : ∀ clientId args, (cluster.clerks clientId).pending = some args →
    Noted records (.write args.clientId args.seqId) args.input
  requests : ∀ (id : Nat) (args : Args), (cluster.rpcs.map (·.args))[id]? = some args →
    Noted records (args.tag id) args.input
  placed : ∀ slot ∈ cluster.placed, Noted records slot.2.tag slot.2.op.input
  fresh : ∀ record ∈ records, ∀ (position : Nat) (entry : Entry), cluster.agreed[position]? = some entry →
    entry.tag = record.tag → len record.call ≤ position
  answered : ∀ record ∈ records, ∀ time, record.ret = some time →
    time < clock ∧ TakesEffect cluster.agreed (len time) record

theorem TakesEffect.of_grown {agreed settled : List Entry} {bound : Nat} {record : Record}
    (served : TakesEffect agreed bound record) (grown : agreed <+: settled) :
    TakesEffect settled bound record := by
  obtain ⟨position, early, entry, present, isTag, value⟩ := served
  have inside := (List.getElem?_eq_some_iff.mp present).1
  refine ⟨position, early, entry, getElem?_of_grown grown present, isTag, ?_⟩
  rwa [stateAt_of_grown grown (Nat.le_of_lt inside)]

/-- The length from a time on. -/
def extend (len : Nat → Nat) (clock later : Nat) (time : Nat) : Nat :=
  if time ≤ clock then len time else later

theorem extend_of_le {len : Nat → Nat} {clock later time : Nat} (early : time ≤ clock) :
    extend len clock later time = len time :=
  if_pos early

theorem extend_succ {len : Nat → Nat} {clock later : Nat} :
    extend len clock later (clock + 1) = later :=
  if_neg (Nat.not_succ_le_self clock)

section Steps

variable {n : Nat} {len : Nat → Nat} {clock : Nat} {records : List Record}
  {cluster next : KVCluster n}

theorem length_rpcs (rpcs : next.rpcs.map (·.args) = cluster.rpcs.map (·.args)) :
    next.rpcs.length = cluster.rpcs.length := by
  have sizes := congrArg List.length rpcs
  rwa [List.length_map, List.length_map] at sizes

/-- Time passes, and more may be agreed. -/
theorem Logged.tick (logged : Logged len clock records cluster)
    (grown : cluster.agreed <+: next.agreed) (clerks : next.clerks = cluster.clerks)
    (rpcs : next.rpcs.map (·.args) = cluster.rpcs.map (·.args))
    (placed : next.placed = cluster.placed) :
    Logged (extend len clock next.agreed.length) (clock + 1) records next := by
  have size := length_rpcs rpcs
  have shorter := grown.length_le
  have now := logged.now
  refine ⟨extend_succ, ?_, logged.apart, ?_, ?_, ?_, ?_, ?_, ?_, ?_, ?_⟩
  · intro early late order inside
    by_cases past : late ≤ clock
    · rw [extend_of_le past, extend_of_le (order.trans past)]
      exact logged.mono early late order past
    · obtain rfl : late = clock + 1 := by omega
      rw [extend_succ]
      by_cases before : early ≤ clock
      · rw [extend_of_le before]
        exact (logged.mono early clock before (Nat.le_refl _)).trans (now.trans_le shorter)
      · obtain rfl : early = clock + 1 := by omega
        rw [extend_succ]
  · exact fun record member => Nat.lt_succ_of_lt (logged.called record member)
  · simpa only [clerks] using logged.numbers
  · simpa only [size] using logged.reads
  · simpa only [clerks] using logged.pending
  · simpa only [rpcs] using logged.requests
  · simpa only [placed] using logged.placed
  · intro record member position entry present isTag
    have called := logged.called record member
    rw [extend_of_le (Nat.le_of_lt called)]
    by_cases old : position < cluster.agreed.length
    · refine logged.fresh record member position entry ?_ isTag
      obtain ⟨rest, same⟩ := grown
      rwa [← same, List.getElem?_append_left old] at present
    · have bound := logged.mono _ _ (Nat.le_of_lt called) (Nat.le_refl _)
      omega
  · intro record member time isTime
    obtain ⟨past, served⟩ := logged.answered record member time isTime
    rw [extend_of_le (Nat.le_of_lt past)]
    exact ⟨Nat.lt_succ_of_lt past, served.of_grown grown⟩

theorem Logged.wait (logged : Logged len clock records cluster) :
    Logged (extend len clock cluster.agreed.length) (clock + 1) records cluster :=
  logged.tick List.prefix_rfl rfl rfl rfl

theorem Noted.append {tag : Tag} {input : KvInput} (noted : Noted records tag input)
    (more : List Record) : Noted (records ++ more) tag input := by
  obtain ⟨record, member, same⟩ := noted
  exact ⟨record, List.mem_append_left _ member, same⟩

/-- An operation is called under a tag that is new. -/
theorem Logged.begin (logged : Logged len clock records cluster) {record : Record}
    (new : record.tag ∉ records.map (·.tag)) (soon : record.call < clock)
    (open_ : record.ret = none) (agreement : cluster.Agreement)
    (agreed : next.agreed = cluster.agreed) (placed : next.placed = cluster.placed)
    (numbers : ∀ other ∈ records ++ [record], ∀ clientId seqId, other.tag = .write clientId seqId →
      seqId < (next.clerks clientId).seqId ∨
        seqId = (next.clerks clientId).seqId ∧ (next.clerks clientId).pending.isSome)
    (reads : ∀ other ∈ records ++ [record], ∀ id, other.tag = .read id → id < next.rpcs.length)
    (pending : ∀ clientId args, (next.clerks clientId).pending = some args →
      Noted (records ++ [record]) (.write args.clientId args.seqId) args.input)
    (requests : ∀ (id : Nat) (args : Args), (next.rpcs.map (·.args))[id]? = some args →
      Noted (records ++ [record]) (args.tag id) args.input) :
    Logged len clock (records ++ [record]) next := by
  refine ⟨agreed ▸ logged.now, logged.mono, ?_, ?_, numbers, reads, pending, requests, ?_, ?_, ?_⟩
  · rw [List.map_append, List.nodup_append]
    refine ⟨logged.apart, List.nodup_singleton _, ?_⟩
    rintro tag old _ last rfl
    rw [List.map_singleton] at last
    exact new (List.mem_singleton.mp last ▸ old)
  · intro other member
    rcases List.mem_append.mp member with old | last
    · exact logged.called other old
    · rw [List.mem_singleton.mp last]
      exact soon
  · intro slot member
    rw [placed] at member
    exact (logged.placed slot member).append _
  · intro other member position entry present isTag
    rw [agreed] at present
    rcases List.mem_append.mp member with old | last
    · exact logged.fresh other old position entry present isTag
    · rw [List.mem_singleton.mp last] at isTag
      obtain ⟨known, inside, same, -⟩ :=
        logged.placed _ (agreement.agreed_placed position entry present)
      exact absurd (List.mem_map.mpr ⟨known, inside, same.trans isTag⟩) new
  · intro other member time isTime
    rw [agreed]
    rcases List.mem_append.mp member with old | last
    · exact logged.answered other old time isTime
    · rw [List.mem_singleton.mp last, open_] at isTime
      cases isTime

theorem complete_tags (records : List Record) (tag : Tag) (output : KvOutput) (clock : Nat) :
    (complete records tag output clock).map (·.tag) = records.map (·.tag) := by
  rw [complete, List.map_map]
  refine List.map_congr_left fun record _ => ?_
  simp only [Function.comp]
  split <;> rfl

/-- A record keeps all but its end. -/
theorem mem_complete {tag : Tag} {output : KvOutput} {clock : Nat} {record : Record}
    (member : record ∈ complete records tag output clock) :
    ∃ old ∈ records, record.tag = old.tag ∧ record.input = old.input ∧ record.call = old.call ∧
      (record = old ∨ record.tag = tag ∧ record.output = output ∧ record.ret = some clock) := by
  obtain ⟨old, inside, rfl⟩ := List.mem_map.mp member
  refine ⟨old, inside, ?_⟩
  split
  · rename_i same
    exact ⟨rfl, rfl, rfl, .inr ⟨same, rfl, rfl⟩⟩
  · exact ⟨rfl, rfl, rfl, .inl rfl⟩

theorem Noted.complete {tag : Tag} {input : KvInput} (noted : Noted records tag input)
    (other : Tag) (output : KvOutput) (clock : Nat) :
    Noted (complete records other output clock) tag input := by
  obtain ⟨record, member, isTag, isInput⟩ := noted
  refine ⟨_, List.mem_map_of_mem member, ?_, ?_⟩
  · split <;> exact isTag
  · split <;> exact isInput

/-- An operation returns.  At a write the clerk goes on to its next number. -/
theorem Logged.finish (logged : Logged len clock records cluster) {tag : Tag} {output : KvOutput}
    {time : Nat} (past : time < clock) (agreed : next.agreed = cluster.agreed)
    (placed : next.placed = cluster.placed)
    (rpcs : next.rpcs.map (·.args) = cluster.rpcs.map (·.args))
    (numbers : ∀ record ∈ records, ∀ clientId seqId, record.tag = .write clientId seqId →
      seqId < (next.clerks clientId).seqId ∨
        seqId = (next.clerks clientId).seqId ∧ (next.clerks clientId).pending.isSome)
    (pending : ∀ clientId args, (next.clerks clientId).pending = some args →
      (cluster.clerks clientId).pending = some args)
    (served : ∀ record, record.tag = tag → record.output = output →
      (∃ old ∈ records, old.tag = tag ∧ old.input = record.input) →
      TakesEffect cluster.agreed (len time) record) :
    Logged len clock (complete records tag output time) next := by
  have size := length_rpcs rpcs
  refine ⟨agreed ▸ logged.now, logged.mono, ?_, ?_, ?_, ?_, ?_, ?_, ?_, ?_, ?_⟩
  · rw [complete_tags]
    exact logged.apart
  · intro record member
    obtain ⟨old, inside, -, -, isCall, -⟩ := mem_complete member
    rw [isCall]
    exact logged.called old inside
  · intro record member clientId seqId isTag
    obtain ⟨old, inside, same, -⟩ := mem_complete member
    exact numbers old inside clientId seqId (same.symm.trans isTag)
  · intro record member id isTag
    obtain ⟨old, inside, same, -⟩ := mem_complete member
    rw [size]
    exact logged.reads old inside id (same.symm.trans isTag)
  · exact fun clientId args isPending =>
      (logged.pending clientId args (pending clientId args isPending)).complete _ _ _
  · rw [rpcs]
    exact fun id args found => (logged.requests id args found).complete _ _ _
  · rw [placed]
    exact fun slot member => (logged.placed slot member).complete _ _ _
  · intro record member position entry present isTag
    obtain ⟨old, inside, same, -, isCall, -⟩ := mem_complete member
    rw [isCall]
    rw [agreed] at present
    exact logged.fresh old inside position entry present (isTag.trans same)
  · intro record member at_ isTime
    rw [agreed]
    obtain ⟨old, inside, same, isInput, -, rfl | ⟨isTag, isOutput, isRet⟩⟩ := mem_complete member
    · exact logged.answered record inside at_ isTime
    · cases isRet.symm.trans isTime
      refine ⟨past, served record isTag isOutput ⟨old, inside, same.symm.trans isTag, ?_⟩⟩
      exact isInput.symm

/-- A request is sent for an operation that has been called. -/
theorem Logged.send (logged : Logged len clock records cluster) {server : Fin n} {args : Args}
    {phase : Phase} (noted : Noted records (args.tag cluster.rpcs.length) args.input) :
    Logged len clock records
      { cluster with rpcs := cluster.rpcs ++ [{ server, args, phase }] } := by
  refine { logged with reads := ?_, requests := ?_ }
  · intro record member id isTag
    have inside := logged.reads record member id isTag
    simp only [List.length_append, List.length_singleton]
    omega
  · intro id other found
    rw [List.map_append] at found
    rcases getElem?_concat found with old | ⟨isLast, rfl⟩
    · exact logged.requests id other old
    · rw [isLast, List.length_map]
      exact noted

/-- `Start` places the command of a request. -/
theorem Logged.place (logged : Logged len clock records cluster) {position : Nat} {entry : Entry}
    (clerks : next.clerks = cluster.clerks) (agreed : next.agreed = cluster.agreed)
    (rpcs : next.rpcs.map (·.args) = cluster.rpcs.map (·.args))
    (placed : next.placed = cluster.placed ++ [(position, entry)])
    (noted : Noted records entry.tag entry.op.input) : Logged len clock records next := by
  have size := length_rpcs rpcs
  refine ⟨agreed ▸ logged.now, logged.mono, logged.apart, logged.called, ?_, ?_, ?_, ?_, ?_, ?_, ?_⟩
  · simpa only [clerks] using logged.numbers
  · simpa only [size] using logged.reads
  · simpa only [clerks] using logged.pending
  · simpa only [rpcs] using logged.requests
  · intro slot member
    rw [placed] at member
    rcases List.mem_append.mp member with old | last
    · exact logged.placed slot old
    · rw [List.mem_singleton.mp last]
      exact noted
  · simpa only [agreed] using logged.fresh
  · simpa only [agreed] using logged.answered

theorem setPhase_args {id : Nat} {rpc : Rpc n} {phase : Phase}
    (found : cluster.rpcs[id]? = some rpc) :
    (cluster.rpcs.set id { rpc with phase }).map (·.args) = cluster.rpcs.map (·.args) := by
  rw [List.map_set]
  refine List.ext_getElem? fun other => ?_
  by_cases same : id = other
  · subst same
    obtain ⟨inside, rfl⟩ := List.getElem?_eq_some_iff.mp found
    simp [inside]
  · rw [List.getElem?_set_ne same]

theorem setPhase_found {id : Nat} {rpc : Rpc n} (found : cluster.rpcs[id]? = some rpc)
    (phase : Phase) : (cluster.rpcs.set id { rpc with phase })[id]? = some { rpc with phase } :=
  List.getElem?_set_self (List.getElem?_eq_some_iff.mp found).1

theorem restart_args (server : Fin n) :
    (cluster.restart server).rpcs.map (·.args) = cluster.rpcs.map (·.args) := by
  rw [KVCluster.restart, List.map_map]
  refine List.map_congr_left fun rpc _ => ?_
  simp only [Function.comp]
  split
  · split <;> rfl
  · rfl

theorem Logged.write (logged : Logged len clock records cluster)
    (agreement : cluster.Agreement) {clientId : Nat} {key value op : String}
    (idle : (cluster.clerks clientId).pending = none) :
    Logged (extend len clock cluster.agreed.length) (clock + 1)
      (note cluster next clock records (.write clientId key value op))
      (cluster.setClerk clientId { cluster.clerks clientId with
        pending := some { key, value, op, clientId, seqId := (cluster.clerks clientId).seqId } }) := by
  have ticked := logged.wait
  refine ticked.begin ?_ (Nat.lt_succ_self _) rfl agreement rfl rfl ?_ ?_ ?_ ?_
  · intro known
    obtain ⟨record, member, isTag⟩ := List.mem_map.mp known
    rcases logged.numbers record member _ _ isTag with less | ⟨-, busy⟩
    · exact absurd less (Nat.lt_irrefl _)
    · rw [idle] at busy
      cases busy
  · intro record member other seqId isTag
    by_cases same : other = clientId
    · subst same
      simp only [KVCluster.setClerk, Function.update_self, Option.isSome_some, and_true]
      rcases List.mem_append.mp member with old | last
      · exact (logged.numbers record old other seqId isTag).imp_right And.left
      · rw [List.mem_singleton.mp last] at isTag
        cases isTag
        exact .inr rfl
    · simp only [KVCluster.setClerk, Function.update_of_ne same]
      rcases List.mem_append.mp member with old | last
      · exact logged.numbers record old other seqId isTag
      · rw [List.mem_singleton.mp last] at isTag
        cases isTag
        exact absurd rfl same
  · intro record member id isTag
    rcases List.mem_append.mp member with old | last
    · exact logged.reads record old id isTag
    · rw [List.mem_singleton.mp last] at isTag
      cases isTag
  · intro other args isPending
    by_cases same : other = clientId
    · subst same
      simp only [KVCluster.setClerk, Function.update_self, Option.some.injEq] at isPending
      subst isPending
      exact ⟨_, List.mem_append_right _ (List.mem_singleton_self _), rfl, rfl⟩
    · simp only [KVCluster.setClerk, Function.update_of_ne same] at isPending
      exact (logged.pending other args isPending).append _
  · exact fun id args found => (logged.requests id args found).append _

theorem Logged.read (logged : Logged len clock records cluster)
    (agreement : cluster.Agreement) (server : Fin n) (key : String) :
    Logged (extend len clock cluster.agreed.length) (clock + 1)
      (note cluster next clock records (.read server key)) (cluster.read server key) := by
  have ticked := logged.wait
  refine ticked.begin ?_ (Nat.lt_succ_self _) rfl agreement rfl rfl ?_ ?_ ?_ ?_
  · intro known
    obtain ⟨record, member, isTag⟩ := List.mem_map.mp known
    exact absurd (logged.reads record member _ isTag) (Nat.lt_irrefl _)
  · intro record member other seqId isTag
    rcases List.mem_append.mp member with old | last
    · exact logged.numbers record old other seqId isTag
    · rw [List.mem_singleton.mp last] at isTag
      cases isTag
  · intro record member id isTag
    simp only [KVCluster.read, List.length_append, List.length_singleton]
    rcases List.mem_append.mp member with old | last
    · have inside := logged.reads record old id isTag
      omega
    · rw [List.mem_singleton.mp last] at isTag
      cases isTag
      exact Nat.lt_succ_self _
  · exact fun other args isPending => (logged.pending other args isPending).append _
  · intro id args found
    simp only [KVCluster.read, List.map_append] at found
    rcases getElem?_concat found with old | ⟨isLast, isArgs⟩
    · exact (logged.requests id args old).append _
    · subst isArgs
      rw [isLast, List.length_map]
      exact ⟨_, List.mem_append_right _ (List.mem_singleton_self _), rfl, rfl⟩

/-- The end of a clerk's loop: its write is agreed. -/
theorem Logged.acknowledge (logged : Logged len clock records cluster) {args : PutAppendArgs}
    (agreed : ∃ position, Writes cluster.agreed position args.clientId args.seqId) :
    Logged (extend len clock cluster.agreed.length) (clock + 1)
      (complete records (.write args.clientId args.seqId) { value := "" } clock)
      (cluster.setClerk args.clientId
        { seqId := (cluster.clerks args.clientId).seqId + 1, pending := none }) := by
  have ticked := logged.wait
  refine ticked.finish (Nat.lt_succ_self _) rfl rfl rfl ?_ ?_ ?_
  · intro record member other seqId isTag
    by_cases same : other = args.clientId
    · subst same
      simp only [KVCluster.setClerk, Function.update_self]
      rcases logged.numbers record member _ seqId isTag with less | ⟨isLast, -⟩
      · exact .inl (Nat.lt_succ_of_lt less)
      · exact .inl (isLast ▸ Nat.lt_succ_self _)
    · simp only [KVCluster.setClerk, Function.update_of_ne same]
      exact logged.numbers record member other seqId isTag
  · intro other request isPending
    by_cases same : other = args.clientId
    · subst same
      simp only [KVCluster.setClerk, Function.update_self] at isPending
      cases isPending
    · simpa only [KVCluster.setClerk, Function.update_of_ne same] using isPending
  · intro record isTag _ _
    obtain ⟨position, writes⟩ := agreed
    obtain ⟨entry, present, isWrite⟩ := writes_iff_tag.mp writes
    rw [extend_of_le (Nat.le_refl _), logged.now]
    refine ⟨position, writes.lt_length, entry, present, isWrite.trans isTag.symm, ?_⟩
    intro id isRead
    cases isTag.symm.trans isRead

/-- A `Get` is answered with what its own command read. -/
theorem Logged.answer (logged : Logged len clock records cluster) {id applied : Nat}
    {args : GetArgs} {err : Err} {value : String}
    (clerks : next.clerks = cluster.clerks) (agreed : next.agreed = cluster.agreed)
    (placed : next.placed = cluster.placed)
    (rpcs : next.rpcs.map (·.args) = cluster.rpcs.map (·.args))
    (asks : (cluster.rpcs.map (·.args))[id]? = some (.get args))
    (honest : Honest cluster.agreed id err value applied (.get args)) :
    Logged (extend len clock cluster.agreed.length) (clock + 1)
      (complete records (.read id) { value } clock) next := by
  have ticked := logged.wait
  refine ticked.finish (Nat.lt_succ_self _) agreed placed rpcs ?_ ?_ ?_
  · simpa only [clerks] using ticked.numbers
  · simp only [clerks, imp_self, implies_true]
  · rintro record isTag isOutput ⟨old, member, oldTag, oldInput⟩
    obtain ⟨position, -, entry, present, reads, own, result⟩ := honest
    have inside := (List.getElem?_eq_some_iff.mp present).1
    rw [extend_of_le (Nat.le_refl _), logged.now]
    refine ⟨position, inside, entry, present, ?_, ?_⟩
    · rw [Entry.tag, reads, if_pos rfl, own, isTag]
    · intro _ _
      obtain ⟨noted, inRecords, notedTag, notedInput⟩ := logged.requests id _ asks
      have same : noted = old := List.inj_on_of_nodup_map logged.apart inRecords member
        (notedTag.trans oldTag.symm)
      rw [isOutput, ← oldInput, ← same, notedInput]
      exact congrArg Prod.fst result

theorem Logged.step (logged : Logged len clock records cluster)
    (consistent : cluster.Consistent) (reached : next.Consistent) {event : KVEvent n}
    (stepped : cluster.Step event next) :
    ∃ len', Logged len' (clock + 1) (note cluster next clock records event) next := by
  have quiet : next.agreed = cluster.agreed → next.clerks = cluster.clerks →
      next.rpcs.map (·.args) = cluster.rpcs.map (·.args) → next.placed = cluster.placed →
      ∃ len', Logged len' (clock + 1) records next := by
    intro agreed clerks rpcs placed
    exact ⟨_, logged.tick (agreed ▸ List.prefix_rfl) clerks rpcs placed⟩
  cases stepped with
  | write clientId key value op idle => exact ⟨_, logged.write consistent.agreement idle⟩
  | read server key => exact ⟨_, logged.read consistent.agreement server key⟩
  | send clientId server args pending =>
      have ticked := logged.wait
      exact ⟨_, ticked.send (logged.pending clientId args pending)⟩
  | started id rpc op found asks phase leading =>
      have ticked := logged.wait
      refine ⟨_, ticked.place rfl rfl (setPhase_args found) rfl ?_⟩
      have noted := logged.requests id rpc.args (by rw [List.getElem?_map, found]; rfl)
      rw [Args.op_tag asks, Args.op_input asks]
      exact noted
  | acknowledged id rpc args err value applied cleanup found asks phase pending led intime =>
      have honest := (consistent.handlers.handled id rpc found).honest _ _ _ _ phase led intime
      rw [asks] at honest
      obtain ⟨position, -, writes⟩ := honest
      obtain ⟨server, _, phase⟩ := rpc
      cases asks
      simp only [note, found]
      exact ⟨_, logged.acknowledge ⟨position, writes⟩⟩
  | received id rpc index term channel result value found phase buffered takes =>
      have replied := setPhase_found found
        (.replied result.err value (cluster.peers rpc.server).applied (some index))
      have honest := (reached.handlers.handled id _ replied).honest _ _ _ _ rfl
      obtain ⟨server, args, _⟩ := rpc
      simp only [note, KVCluster.setPhase, KVCluster.setServer, replied]
      cases args with
      | putAppend args => exact quiet rfl rfl (setPhase_args found) rfl
      | get args =>
          dsimp only
          split
          · exact quiet rfl rfl (setPhase_args found) rfl
          · rename_i answered
            obtain ⟨led, intime⟩ := not_or.mp answered
            refine ⟨_, logged.answer rfl rfl rfl (setPhase_args found) ?_ (honest led intime)⟩
            rw [List.getElem?_map, found]
            rfl
  | applied server snapshot entry agreed kv found agrees handled =>
      have grown := (settle_grown agrees (consistent.agreement.follows server).agreed_long).1
      exact ⟨_, logged.tick grown rfl rfl rfl⟩
  | duplicate id rpc args found _ _ => exact quiet rfl rfl (setPhase_args found) rfl
  | checked id rpc found => exact quiet rfl rfl (setPhase_args found) rfl
  | refused id rpc found => exact quiet rfl rfl (setPhase_args found) rfl
  | registered id rpc _ _ found _ => exact quiet rfl rfl (setPhase_args found) rfl
  | timedOut id rpc _ found => exact quiet rfl rfl (setPhase_args found) rfl
  | cleaned id rpc _ _ _ _ found _ => exact quiet rfl rfl (setPhase_args found) rfl
  | restarted server => exact quiet rfl rfl (restart_args server) rfl
  | raft => exact quiet rfl rfl rfl rfl
  | installed => exact quiet rfl rfl rfl rfl

theorem logged_initial (n : Nat) : Logged (fun _ => 0) 0 [] (KVCluster.initial n) := by
  constructor <;> simp [KVCluster.initial]

end Steps

/-- The records do not disturb the cluster. -/
theorem consistent_of_recorded {n : Nat} {recorded : Recorded n}
    (reached : (recordedSystem n).Reachable
      (fun state event => state.cluster.notifiesInTerm event = true) recorded) :
    recorded.cluster.Consistent ∧
      ∃ len, Logged len recorded.clock recorded.records recorded.cluster := by
  have start : ∀ state : Recorded n, (recordedSystem n).init state → state.cluster.Consistent ∧
      ∃ len, Logged len state.clock state.records state.cluster := by
    rintro _ rfl
    exact ⟨⟨KVCluster.agreement_initial, KVCluster.clients_initial, KVCluster.handlers_initial⟩,
      _, logged_initial n⟩
  apply reached.preserves start
  rintro state event _ ⟨consistent, len, logged⟩ guarded stepped
  obtain ⟨next, moved, rfl⟩ := Option.map_eq_some_iff.mp stepped
  have after := consistent.step guarded moved
  exact ⟨after, logged.step consistent after (KVCluster.step_cases moved)⟩

end MultiRaft.KVRaft
