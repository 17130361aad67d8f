import MultiRaft.KVRaft.ExactlyOnce
import MultiRaft.KVRaft.History
import MultiRaft.Porcupine.CheckOperations

/-!
# A kvraft cluster is linearizable

An operation takes effect where its command stands in the agreed sequence, a write where it
stands for the first time.  As long as no result is sent to a handler of another term, this
puts all operations in one row that a key/value map allows and that respects real time.
Hence the checker of the test harness never calls the history of a run illegal.
-/

namespace MultiRaft.KVRaft

open Porcupine (KvInput KvOutput kvModel kvStep Operation LinearizableStore)

namespace Replica

variable {replica : Replica} {op : Op} {clientId seqId : Nat}

/-- The number recorded for a client never falls. -/
theorem requestDuplicated_apply (known : replica.requestDuplicated clientId seqId = true)
    (op : Op) : (replica.apply op).1.requestDuplicated clientId seqId = true := by
  by_cases reads : op.opType = .get
  · rwa [apply_of_get reads]
  · cases repeated : replica.requestDuplicated op.clientId op.seqId with
    | true => rwa [apply_of_duplicate repeated]
    | false =>
        obtain ⟨-, reply, table⟩ := apply_of_new reads repeated
        rw [requestDuplicated_iff] at known ⊢
        obtain ⟨info, found, small⟩ := known
        by_cases same : clientId = op.clientId
        · subst same
          have large : info.seqId < op.seqId := by
            by_contra covered
            rw [Bool.eq_false_iff, Ne, requestDuplicated_iff] at repeated
            exact repeated ⟨info, found, Nat.le_of_not_lt covered⟩
          exact ⟨_, table ▸ Function.update_self .., small.trans (Nat.le_of_lt large)⟩
        · exact ⟨info, table ▸ (Function.update_of_ne same ..).trans found, small⟩

theorem requestDuplicated_of_applied (writes : op.opType ≠ .get) :
    (replica.apply op).1.requestDuplicated op.clientId op.seqId = true := by
  cases repeated : replica.requestDuplicated op.clientId op.seqId with
  | true => rwa [apply_of_duplicate repeated]
  | false =>
      obtain ⟨-, reply, table⟩ := apply_of_new writes repeated
      rw [requestDuplicated_iff]
      exact ⟨_, table ▸ Function.update_self .., Nat.le_refl _⟩

end Replica

/-- From its first position on, a write is known to the table. -/
theorem duplicated_of_writes {agreed : List Entry} {position clientId seqId count : Nat}
    (writes : Writes agreed position clientId seqId) (later : position < count)
    (inside : count ≤ agreed.length) :
    (stateAt agreed count).requestDuplicated clientId seqId = true := by
  induction count, later using Nat.le_induction with
  | base =>
      obtain ⟨entry, present, isWrite, rfl, rfl⟩ := writes
      rw [stateAt_succ present]
      exact Replica.requestDuplicated_of_applied isWrite
  | succ count later inductionHypothesis =>
      rw [stateAt_succ (List.getElem?_eq_getElem inside)]
      exact Replica.requestDuplicated_apply (inductionHypothesis (Nat.le_of_lt inside)) _

/-- The values after the first `count` agreed commands. -/
def storeAt (agreed : List Entry) (count : Nat) (key : String) : String :=
  ((stateAt agreed count).stateMachine.get key).1

theorem get_fst (mkv : MemoryKVStateMachine) (key : String) :
    (mkv.get key).1 = (mkv.kv key).getD "" := by
  unfold MemoryKVStateMachine.get
  cases mkv.kv key <;> rfl

theorem getD_update (kv : String → Option String) (key value : String) :
    (fun other => (Function.update kv key (some value) other).getD "") =
      Function.update (fun other => (kv other).getD "") key value :=
  Function.comp_update (fun found : Option String => found.getD "") kv key (some value)

/-- What the model of the checker does for a record. -/
def Record.step (store : String → String) (record : Record) : Option (String → String) :=
  let result := kvStep (store record.input.key) record.input record.output
  if result.1 then some (Function.update store record.input.key result.2) else none

section Store

variable {agreed : List Entry} {position : Nat} {entry : Entry} {record : Record}

/-- A read takes effect where its value is that of the store. -/
theorem step_of_read (present : agreed[position]? = some entry) (reads : entry.op.opType = .get)
    (input : record.input = entry.op.input)
    (value : record.output.value = storeAt agreed position record.input.key) :
    record.step (storeAt agreed position) = some (storeAt agreed (position + 1)) := by
  have isGet : record.input.op = 0 := by rw [input, Op.input, reads]; rfl
  have kept : storeAt agreed (position + 1) = storeAt agreed position := by
    funext key
    rw [storeAt, stateAt_succ present, Replica.apply_of_get reads, storeAt]
  simp [Record.step, kvStep, isGet, value, kept]

/-- A write takes effect where the table does not know it. -/
theorem step_of_write (present : agreed[position]? = some entry) (writes : entry.op.opType ≠ .get)
    (new : (stateAt agreed position).requestDuplicated entry.op.clientId entry.op.seqId = false)
    (input : record.input = entry.op.input) :
    record.step (storeAt agreed position) = some (storeAt agreed (position + 1)) := by
  obtain ⟨written, -⟩ := Replica.apply_of_new writes new
  have after : storeAt agreed (position + 1) = fun key =>
      (((stateAt agreed position).stateMachine.write entry.op).kv key).getD "" := by
    funext key
    rw [storeAt, stateAt_succ present, written, get_fst]
  have before : storeAt agreed position = fun key =>
      ((stateAt agreed position).stateMachine.kv key).getD "" := by
    funext key
    rw [storeAt, get_fst]
  rw [after, before, Record.step, input, Op.input, MemoryKVStateMachine.write]
  cases kind : entry.op.opType with
  | get => exact absurd kind writes
  | put => exact congrArg some (getD_update _ _ _).symm
  | append => exact congrArg some (getD_update _ _ _).symm

/-- Elsewhere the store stays as it is. -/
theorem storeAt_succ_of_skip (present : agreed[position]? = some entry)
    (skips : entry.op.opType ≠ .get →
      (stateAt agreed position).requestDuplicated entry.op.clientId entry.op.seqId = true) :
    storeAt agreed (position + 1) = storeAt agreed position := by
  have kept : ((stateAt agreed position).apply entry.op).1 = stateAt agreed position := by
    by_cases reads : entry.op.opType = .get
    · exact Replica.apply_of_get reads
    · exact Replica.apply_of_duplicate (skips reads)
  funext key
  rw [storeAt, stateAt_succ present, kept, storeAt]

end Store

/-- The operation takes effect at this position: there its command stands, that of a write for
the first time, and a read finds its value. -/
structure Place (agreed : List Entry) (record : Record) (position : Nat) : Prop where
  stands : ∃ entry, agreed[position]? = some entry ∧ entry.tag = record.tag
  first : ∀ clientId seqId, record.tag = .write clientId seqId →
    ∀ earlier < position, ¬ Writes agreed earlier clientId seqId
  value : ∀ id, record.tag = .read id →
    record.output.value = storeAt agreed position record.input.key

/-- An agreed write has a place, no later than where it stands. -/
theorem exists_place_of_writes {agreed : List Entry} {record : Record}
    {position clientId seqId : Nat} (isWrite : record.tag = .write clientId seqId)
    (writes : Writes agreed position clientId seqId) :
    ∃ place ≤ position, Place agreed record place := by
  classical
  have agreed_ : ∃ place, Writes agreed place clientId seqId := ⟨position, writes⟩
  refine ⟨Nat.find agreed_, Nat.find_min' agreed_ writes, ?_, ?_, ?_⟩
  · rw [isWrite]
    exact writes_iff_tag.mp (Nat.find_spec agreed_)
  · intro other number same earlier before
    cases isWrite.symm.trans same
    exact Nat.find_min agreed_ before
  · intro id isRead
    cases isWrite.symm.trans isRead

theorem TakesEffect.exists_place {agreed : List Entry} {record : Record} {bound : Nat}
    (effect : TakesEffect agreed bound record) : ∃ place < bound, Place agreed record place := by
  obtain ⟨position, early, entry, present, isTag, value⟩ := effect
  cases kind : record.tag with
  | write clientId seqId =>
      have writes : Writes agreed position clientId seqId :=
        writes_iff_tag.mpr ⟨entry, present, isTag.trans kind⟩
      obtain ⟨place, before, isPlace⟩ := exists_place_of_writes kind writes
      exact ⟨place, before.trans_lt early, isPlace⟩
  | read id =>
      refine ⟨position, early, ⟨entry, present, isTag⟩, ?_, fun _ => value _⟩
      intro clientId seqId isWrite
      cases kind.symm.trans isWrite

/-- The operation has returned, or it is a write that is agreed. -/
def Record.effective (agreed : List Entry) (record : Record) : Bool :=
  record.ret.isSome || match record.tag with
    | .write .. => (agreed.map Entry.tag).contains record.tag
    | .read _ => false

/-- The operation as the harness hands it to the checker.  One that has not returned may still
return now. -/
def Record.operation (now : Nat) (record : Record) : Operation KvInput KvOutput where
  clientId := match record.tag with
    | .write clientId _ => clientId
    | .read _ => 0
  input := record.input
  call := record.call
  output := record.output
  ret := record.ret.getD now

def Recorded.history {n : Nat} (recorded : Recorded n) : List (Operation KvInput KvOutput) :=
  (recorded.records.filter (Record.effective recorded.cluster.agreed)).map
    (Record.operation recorded.clock)

/-- The operation is the one of the record, with an interval that includes the one of the
record. -/
structure Record.Spans (now : Nat) (record : Record) (op : Operation KvInput KvOutput) : Prop where
  input : op.input = record.input
  output : op.output = record.output
  call : op.call ≤ record.call
  ret : ((record.ret.getD now : Nat) : Int) ≤ op.ret

theorem Record.spans_operation (now : Nat) (record : Record) :
    record.Spans now (record.operation now) :=
  ⟨rfl, rfl, Int.le_refl _, Int.le_refl _⟩

section History

variable {n : Nat} {len : Nat → Nat} {clock : Nat} {records : List Record}
  {cluster : KVCluster n}

/-- What an operation asks is what its command asks. -/
theorem Logged.input (logged : Logged len clock records cluster) (agreement : cluster.Agreement)
    {record : Record} (member : record ∈ records) {position : Nat} {entry : Entry}
    (present : cluster.agreed[position]? = some entry) (isTag : entry.tag = record.tag) :
    record.input = entry.op.input := by
  obtain ⟨noted, inside, same, isInput⟩ :=
    logged.placed _ (agreement.agreed_placed position entry present)
  have isRecord : noted = record :=
    List.inj_on_of_nodup_map logged.apart inside member (same.trans isTag)
  rw [← isRecord, isInput]

/-- Each operation that counts has a place between its call and its return. -/
theorem Logged.exists_place (logged : Logged len clock records cluster) {record : Record}
    (member : record ∈ records) (counts : record.effective cluster.agreed = true) :
    ∃ place, Place cluster.agreed record place ∧ len record.call ≤ place ∧
      ∀ time, record.ret = some time → place < len time := by
  have between : ∀ {place}, Place cluster.agreed record place → len record.call ≤ place := by
    intro place isPlace
    obtain ⟨entry, present, isTag⟩ := isPlace.stands
    exact logged.fresh record member place entry present isTag
  cases returned : record.ret with
  | some time =>
      obtain ⟨-, effect⟩ := logged.answered record member time returned
      obtain ⟨place, before, isPlace⟩ := effect.exists_place
      refine ⟨place, isPlace, between isPlace, ?_⟩
      rintro _ ⟨⟩
      exact before
  | none =>
      rw [Record.effective, returned] at counts
      cases kind : record.tag with
      | read id => simp [kind] at counts
      | write clientId seqId =>
          simp only [kind, Option.isSome_none, Bool.false_or, List.contains_iff_mem] at counts
          obtain ⟨entry, occurs, isTag⟩ := List.mem_map.mp counts
          obtain ⟨position, present⟩ := List.mem_iff_getElem?.mp occurs
          obtain ⟨place, -, isPlace⟩ := exists_place_of_writes kind
            (writes_iff_tag.mpr ⟨entry, present, isTag⟩)
          refine ⟨place, isPlace, between isPlace, ?_⟩
          rintro _ ⟨⟩

/-- An operation does what its command does. -/
theorem Logged.step_at (logged : Logged len clock records cluster)
    (consistent : cluster.Consistent) {record : Record} (member : record ∈ records)
    {place : Nat} (isPlace : Place cluster.agreed record place) :
    record.step (storeAt cluster.agreed place) = some (storeAt cluster.agreed (place + 1)) := by
  obtain ⟨entry, present, isTag⟩ := isPlace.stands
  have input := logged.input consistent.agreement member present isTag
  by_cases reads : entry.op.opType = .get
  · refine step_of_read present reads input (isPlace.value entry.rpc ?_)
    rw [← isTag, Entry.tag, if_pos reads]
  · refine step_of_write present reads ?_ input
    rw [Bool.eq_false_iff]
    intro duplicated
    obtain ⟨earlier, before, writes⟩ := consistent.clients.writes_of_duplicated duplicated
    refine isPlace.first _ _ ?_ earlier before writes
    rw [← isTag, Entry.tag, if_neg reads]

/-- Where no operation has its place, nothing happens to the store. -/
theorem Logged.skip_at (logged : Logged len clock records cluster)
    (agreement : cluster.Agreement) {chosen : List Record}
    (writes : ∀ record ∈ records, record.effective cluster.agreed = true →
      (∀ id, record.tag ≠ .read id) → record ∈ chosen)
    {place : Record → Nat} (places : ∀ record ∈ chosen, Place cluster.agreed record (place record))
    {position : Nat} (inside : position < cluster.agreed.length)
    (free : ∀ record ∈ chosen, place record ≠ position) :
    storeAt cluster.agreed (position + 1) = storeAt cluster.agreed position := by
  have present := List.getElem?_eq_getElem inside
  refine storeAt_succ_of_skip present fun isUpdate => ?_
  have isWrite : cluster.agreed[position].tag =
      .write cluster.agreed[position].op.clientId cluster.agreed[position].op.seqId :=
    if_neg isUpdate
  -- the write was called, so it has a place, which is an earlier one
  obtain ⟨record, member, isTag, -⟩ := logged.placed _ (agreement.agreed_placed _ _ present)
  have counts : record.effective cluster.agreed = true := by
    have occurs : record.tag ∈ cluster.agreed.map Entry.tag :=
      List.mem_map.mpr ⟨_, List.getElem_mem inside, isTag.symm⟩
    rw [isWrite] at isTag
    rw [isTag] at occurs
    simp [Record.effective, isTag, occurs]
  have chosen := writes record member counts (by rw [isTag, isWrite]; nofun)
  have isPlace := places record chosen
  have here : Writes cluster.agreed position _ _ := writes_iff_tag.mpr ⟨_, present, isWrite⟩
  have before : place record < position := by
    refine lt_of_le_of_ne (Nat.le_of_not_lt fun later => ?_) (free record chosen)
    exact isPlace.first _ _ (isTag.trans isWrite) position later here
  obtain ⟨entry, stands, same⟩ := isPlace.stands
  exact duplicated_of_writes
    (writes_iff_tag.mpr ⟨entry, stands, same.trans (isTag.trans isWrite)⟩) before inside.le

theorem Record.Spans.step_eq {now : Nat} {record : Record} {op : Operation KvInput KvOutput}
    (spans : record.Spans now op) (store : String → String) :
    record.step store = stepAt (fun op => op.input.key) kvModel.stepOperation store op := by
  cases op
  obtain ⟨rfl, rfl, -, -⟩ := spans
  unfold Record.step stepAt Porcupine.Model.stepOperation kvModel
  dsimp only
  split <;> rfl

/-- An operation that returned before another was called has the smaller place. -/
theorem Logged.place_lt (logged : Logged len clock records cluster) {one two : Record}
    {first second : Operation KvInput KvOutput} (ends : one.Spans clock first)
    (begins : two.Spans clock second) (member : two ∈ records) {early late : Nat}
    (before : ∀ time, one.ret = some time → early < len time) (after : len two.call ≤ late)
    (precedes : first.ret < second.call) : early < late := by
  have called := logged.called two member
  have apart := Int.ofNat_lt.mp (ends.ret.trans_lt (precedes.trans_le begins.call))
  cases returned : one.ret with
  | none =>
      rw [returned, Option.getD_none] at apart
      omega
  | some time =>
      rw [returned, Option.getD_some] at apart
      have shorter := logged.mono time two.call (Nat.le_of_lt apart) (Nat.le_of_lt called)
      have inside := before time returned
      omega

/-- Operations that span records are linearizable if all writes that took effect are among
them. -/
theorem Logged.linearizable (logged : Logged len clock records cluster)
    (consistent : cluster.Consistent) (pairs : List (Record × Operation KvInput KvOutput))
    (apart : (pairs.map Prod.fst).Nodup)
    (spans : ∀ pair ∈ pairs, pair.1 ∈ records ∧ pair.1.effective cluster.agreed = true ∧
      pair.1.Spans clock pair.2)
    (writes : ∀ record ∈ records, record.effective cluster.agreed = true →
      (∀ id, record.tag ≠ .read id) → record ∈ pairs.map Prod.fst) :
    LinearizableStore (pairs.map Prod.snd) := by
  have exist : ∀ record, ∃ place, record ∈ pairs.map Prod.fst →
      Place cluster.agreed record place ∧ len record.call ≤ place ∧
        ∀ time, record.ret = some time → place < len time := by
    intro record
    by_cases chosen : record ∈ pairs.map Prod.fst
    · obtain ⟨pair, inside, rfl⟩ := List.mem_map.mp chosen
      obtain ⟨member, counts, -⟩ := spans pair inside
      obtain ⟨place, facts⟩ := logged.exists_place member counts
      exact ⟨place, fun _ => facts⟩
    · exact ⟨0, fun inside => absurd inside chosen⟩
  choose place facts using exist
  have known := fun pair (inside : pair ∈ pairs) =>
    facts pair.1 (List.mem_map_of_mem (f := Prod.fst) inside)
  refine (linearizable_map (fun store pair inside => (spans pair inside).2.2.step_eq store)
    fun _ _ _ _ => Iff.rfl).mp ?_
  refine linearizable_of_log (fun pair => place pair.1) (storeAt cluster.agreed)
    cluster.agreed.length ?_ ?_ ?_ ?_ ?_
  · -- the command at a place tells the operation
    refine List.Nodup.map_on ?_ (apart.of_map _)
    intro one first two second same
    obtain ⟨entry, present, isOne⟩ := (known one first).1.stands
    obtain ⟨other, present', isTwo⟩ := (known two second).1.stands
    rw [← same, present] at present'
    cases present'
    refine List.inj_on_of_nodup_map apart first second ?_
    exact List.inj_on_of_nodup_map logged.apart (spans one first).1 (spans two second).1
      (isOne.symm.trans isTwo)
  · intro pair inside
    obtain ⟨entry, present, -⟩ := (known pair inside).1.stands
    exact (List.getElem?_eq_some_iff.mp present).1
  · exact fun pair inside =>
      logged.step_at consistent (spans pair inside).1 (known pair inside).1
  · intro position inside free
    refine logged.skip_at consistent.agreement writes (fun record chosen => (facts record chosen).1)
      inside fun record chosen => ?_
    obtain ⟨pair, member, rfl⟩ := List.mem_map.mp chosen
    exact free pair member
  · exact fun one first two second precedes =>
      logged.place_lt (spans one first).2.2 (spans two second).2.2 (spans two second).1
        (known one first).2.2 (known two second).2.1 precedes

theorem Logged.linearizable_effective (logged : Logged len clock records cluster)
    (consistent : cluster.Consistent) : LinearizableStore
      ((records.filter (Record.effective cluster.agreed)).map (Record.operation clock)) := by
  have linearizable := logged.linearizable consistent ((records.filter
    (Record.effective cluster.agreed)).map fun record => (record, record.operation clock))
  simp only [List.map_map, Function.comp_def, List.map_id', List.forall_mem_map] at linearizable
  refine linearizable ((logged.apart.of_map _).filter _) ?_ ?_
  · intro record chosen
    obtain ⟨member, counts⟩ := List.mem_filter.mp chosen
    exact ⟨member, counts, record.spans_operation _⟩
  · exact fun record member counts _ => List.mem_filter.mpr ⟨member, counts⟩

end History

section Results

variable {n : Nat} {recorded : Recorded n}

/-- If no result is sent to a handler of another term, then at every moment of every run the
operations that have returned, together with the writes that are agreed but not yet
acknowledged, are linearizable as operations on one key/value map. -/
theorem history_linearizable (reached : (recordedSystem n).Reachable
      (fun state event => state.cluster.notifiesInTerm event = true) recorded) :
    LinearizableStore recorded.history := by
  obtain ⟨consistent, len, logged⟩ := consistent_of_recorded reached
  exact logged.linearizable_effective consistent

/-- Three servers after some events, with the records of them. -/
def recordedRun (events : List (KVEvent 3)) : Recorded 3 :=
  (recordedSystem 3).after (fun state event => state.cluster.notifiesInTerm event)
    { cluster := .initial 3, clock := 0, records := [] } events

theorem recordedRun_reachable (events : List (KVEvent 3)) : (recordedSystem 3).Reachable
    (fun state event => state.cluster.notifiesInTerm event = true) (recordedRun events) :=
  ⟨_, rfl, System.run_after
    (fun (state : Recorded 3) event => state.cluster.notifiesInTerm event) _ _⟩

theorem history_linearizable_served :
    (recordedRun servedEvents).history =
        [⟨7, ⟨1, "x", "1"⟩, 1, ⟨""⟩, 9⟩, ⟨0, ⟨0, "x", ""⟩, 10, ⟨"1"⟩, 14⟩] ∧
      LinearizableStore (recordedRun servedEvents).history :=
  ⟨rfl, history_linearizable (recordedRun_reachable servedEvents)⟩

end Results

end MultiRaft.KVRaft
