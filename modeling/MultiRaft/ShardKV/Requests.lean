import MultiRaft.ShardKV.OneServer

/-!
# The operations of the clerks of shardkv

A clerk calls handlers of any groups until one of them answers it, and goes on to its next
number only then.  A handler hands the operation to the Raft of its group and waits for the
result of whatever command is applied at the index it got; a repeated write it may answer from
the duplicate table.  The clock ticks with every step.
-/

namespace MultiRaft.Shardkv

open ShardCtrler (Shard)
open KVRaft (Op getOperationType)

/-- An operation of a clerk: what it asks, when it was called and, once it has returned,
when and with which value. -/
structure Invocation where
  op : Op
  call : Nat
  answer : Option (Nat × String)

/-- A handler at a server of a group that had applied `time` commands; `Start` gave it the
index `index` for the operation of request `id`. -/
structure Handler where
  id : Nat
  gid : Int
  time : Nat
  index : Nat

/-- `submitted` tells which request put the command at a position of the journal there. -/
structure Clients where
  cluster : ShardCluster
  clock : Nat
  seqIds : Nat → Nat
  requests : List Invocation
  handlers : List Handler
  submitted : List (Nat × Nat)

inductive ClientEvent where
  | internal (event : ShardEvent)
  | write (clientId : Nat) (key value op : String)
  | read (key : String)
  | start (handler : Handler)
  | commit (number : Nat)
  | reply (number position : Nat)
  | repeated (id : Nat) (gid : Int) (time : Nat)

/-- The index that a command at a position of the journal has in the log of its group. -/
def ShardCluster.index (cluster : ShardCluster) (gid : Int) (position : Nat) : Nat :=
  (cluster.journal.take position).countP (fun entry => decide (entry.1 = gid)) + 1

namespace Clients

/-- A clerk is used for one operation at a time. -/
def busy (state : Clients) (clientId : Nat) : Bool :=
  state.requests.any fun request =>
    decide (request.op.opType ≠ .get ∧ request.op.clientId = clientId ∧ request.answer = none)

/-- `Clerk.PutAppend` begins. -/
def write (state : Clients) (clientId : Nat) (key value op : String) : Option Clients := do
  let opType ← getOperationType op
  if state.busy clientId then none
  else
    let op : Op := { key, value, opType, clientId, seqId := state.seqIds clientId }
    return { state with
      clock := state.clock + 1
      requests := state.requests ++ [{ op, call := state.clock, answer := none }] }

/-- `Clerk.Get` begins. -/
def read (state : Clients) (key : String) : Clients :=
  { state with
    clock := state.clock + 1
    requests := state.requests ++
      [{ op := { key, opType := .get }, call := state.clock, answer := none }] }

/-- `Get` or `PutAppend` serves the key and calls `Start`.  The index is one that the server has
not applied; whether the command gets there is not known. -/
def start (state : Clients) (handler : Handler) : Option Clients := do
  let request ← state.requests[handler.id]?
  if handler.time ≤ state.cluster.now ∧
      (state.cluster.group handler.gid handler.time).accepts request.op ∧
      state.cluster.index handler.gid handler.time ≤ handler.index then
    return { state with
      clock := state.clock + 1
      handlers := state.handlers ++ [handler] }
  else none

/-- The group applies the command of a handler, at the index that the handler got. -/
def commit (state : Clients) (number : Nat) : Option Clients := do
  let handler ← state.handlers[number]?
  let request ← state.requests[handler.id]?
  let cluster ← state.cluster.client handler.gid handler.time request.op
  if handler.index = state.cluster.index handler.gid state.cluster.now then
    return { state with
      cluster
      clock := state.clock + 1
      submitted := state.submitted ++ [(state.cluster.now, handler.id)] }
  else none

/-- The operation returns; a clerk counts its writes. -/
def finish (state : Clients) (id : Nat) (request : Invocation) (value : String) : Clients :=
  { state with
    clock := state.clock + 1
    seqIds := if request.op.opType = .get then state.seqIds
      else Function.update state.seqIds request.op.clientId
        (state.seqIds request.op.clientId + 1)
    requests := state.requests.set id { request with answer := some (state.clock, value) } }

/-- The clerk takes the answer as the end of its operation. -/
def ends (op : Op) (opReply : OpReply) : Bool :=
  decide (opReply.err = .ok ∨ op.opType = .get ∧ opReply.err = .errNoKey)

/-- A handler answers with the result of the command at its index.  The reply to a write has no
value. -/
def reply (state : Clients) (number position : Nat) : Option Clients := do
  let handler ← state.handlers[number]?
  let request ← state.requests[handler.id]?
  let (gid, command) ← state.cluster.journal[position]?
  let opReply := ((state.cluster.group gid position).apply command).2
  if gid = handler.gid ∧ state.cluster.index gid position = handler.index ∧
      request.answer = none ∧ ends request.op opReply then
    return state.finish handler.id request
      (if request.op.opType = .get then opReply.value else "")
  else none

/-- `PutAppend` finds the number of the request in the duplicate table. -/
def repeated (state : Clients) (id : Nat) (gid : Int) (time : Nat) : Option Clients := do
  let request ← state.requests[id]?
  let kv := state.cluster.group gid time
  let op := request.op
  if 0 < gid ∧ time ≤ state.cluster.now ∧ request.answer = none ∧ op.opType ≠ .get ∧
      kv.matchGroup op.key ∧ kv.requestDuplicated op.clientId op.seqId ∧
      ends op (kv.lastReply op.clientId) then
    return state.finish id request ""
  else none

def step (state : Clients) : ClientEvent → Option Clients
  | .internal (.client ..) => none
  | .internal event => (state.cluster.step event).map fun cluster =>
      { state with cluster, clock := state.clock + 1 }
  | .write clientId key value op => state.write clientId key value op
  | .read key => some (state.read key)
  | .start handler => state.start handler
  | .commit number => state.commit number
  | .reply number position => state.reply number position
  | .repeated id gid time => state.repeated id gid time

def initial : Clients where
  cluster := .initial
  clock := 0
  seqIds _ := 0
  requests := []
  handlers := []
  submitted := []

/-- Once there is a group, the next configuration also has one; and a handler does not get the
result of another command, which its group applied at the index in place of its own. -/
def permitted (state : Clients) : ClientEvent → Bool
  | .internal event => state.cluster.keepsGroups event
  | .reply number position => (state.handlers[number]?).all fun handler =>
      state.submitted.contains (position, handler.id)
  | _ => true

end Clients

def clientSystem : System Clients ClientEvent where
  init state := state = .initial
  step := Clients.step

namespace Clients

/-- The request takes effect at a position: there a write is executed, or a read finds its
value. -/
def Effect (state : Clients) (id : Nat) (request : Invocation) (value : String)
    (position : Nat) : Prop :=
  if request.op.opType = .get then
    (position, id) ∈ state.submitted ∧
      value = ((state.cluster.store position).kv request.op.key).getD ""
  else state.cluster.executed position = some request.op

/-- The requests fit the journal; `stamp` is the time at which a command got there. -/
structure Attended (stamp : Nat → Nat) (state : Clients) : Prop where
  reached : shardSystem.Reachable (fun state event => state.orderlyStep event = true) state.cluster
  early : ∀ position < state.cluster.now, stamp position < state.clock
  mono : ∀ first last, first < last → last < state.cluster.now → stamp first < stamp last
  logged : ∀ (position : Nat) gid op,
    state.cluster.journal[position]? = some (gid, .clientOperation op) →
      ∃ id, (position, id) ∈ state.submitted
  sent : ∀ position id, (position, id) ∈ state.submitted → ∃ gid request,
    state.cluster.journal[position]? = some (gid, .clientOperation request.op) ∧
      state.requests[id]? = some request ∧ request.call < stamp position
  apart : ∀ position one two, (position, one) ∈ state.submitted →
    (position, two) ∈ state.submitted → one = two
  called : ∀ (id : Nat) request, state.requests[id]? = some request → request.call < state.clock
  numbers : ∀ (id : Nat) request, state.requests[id]? = some request → request.op.opType ≠ .get →
    request.op.seqId < state.seqIds request.op.clientId ∧ request.answer.isSome = true ∨
      request.op.seqId = state.seqIds request.op.clientId ∧ request.answer = none
  unique : ∀ (one two : Nat) first second, state.requests[one]? = some first →
    state.requests[two]? = some second → first.op.opType ≠ .get → second.op.opType ≠ .get →
    first.op.clientId = second.op.clientId → first.op.seqId = second.op.seqId → one = two
  answered : ∀ (id : Nat) request time value, state.requests[id]? = some request →
    request.answer = some (time, value) → time < state.clock ∧
      ∃ position < state.cluster.now, stamp position < time ∧
        state.Effect id request value position

variable {state next : Clients} {stamp : Nat → Nat} {cluster : ShardCluster}

/-- The journal goes on, and what was executed stays. -/
structure Extends (old new : ShardCluster) : Prop where
  journal : old.journal <+: new.journal
  executed : ∀ position < old.now, new.executed position = old.executed position
  store : ∀ position ≤ old.now, new.store position = old.store position

theorem extends_append (cluster : ShardCluster) (entry : Int × RaftCommand) :
    Extends cluster { cluster with journal := cluster.journal ++ [entry] } := by
  refine ⟨List.prefix_append _ _, fun position past => ShardCluster.executed_append past, ?_⟩
  intro position past
  refine congrArg KVRaft.writeAll (List.filterMap_congr fun moment member => ?_)
  exact ShardCluster.executed_append ((List.mem_range.mp member).trans_le past)

variable {request : Invocation} {id : Nat}

theorem Effect.mono {value : String} {position : Nat}
    (effect : state.Effect id request value position)
    (extended : Extends state.cluster next.cluster) (past : position < state.cluster.now)
    (kept : state.submitted ⊆ next.submitted) :
    next.Effect id request value position := by
  unfold Effect at effect ⊢
  split
  · rename_i reads
    rw [if_pos reads] at effect
    exact ⟨kept effect.1, by rw [extended.store position (Nat.le_of_lt past)]; exact effect.2⟩
  · rename_i writes
    rw [if_neg writes] at effect
    rw [extended.executed position past]
    exact effect

/-- Times of the commands so far, and of one more. -/
def restamp (stamp : Nat → Nat) (now clock position : Nat) : Nat :=
  if position < now then stamp position else clock

theorem restamp_of_lt {now clock position : Nat} (past : position < now) :
    restamp stamp now clock position = stamp position :=
  if_pos past

theorem restamp_now {now clock : Nat} : restamp stamp now clock now = clock :=
  if_neg (Nat.lt_irrefl now)

/-- The controller makes a configuration, or a handler begins to wait. -/
theorem Attended.tick (attended : Attended stamp state) {ctrler : ShardCtrler.CtrlerStateMachine}
    (handlers : List Handler)
    (reached : shardSystem.Reachable (fun state event => state.orderlyStep event = true)
      { state.cluster with ctrler }) :
    Attended stamp { state with
      cluster := { state.cluster with ctrler }, clock := state.clock + 1, handlers } where
  reached := reached
  early position past := Nat.lt_succ_of_lt (attended.early position past)
  mono := attended.mono
  logged := attended.logged
  sent := attended.sent
  apart := attended.apart
  called id request found := Nat.lt_succ_of_lt (attended.called id request found)
  numbers := attended.numbers
  unique := attended.unique
  answered id request time value found returned := by
    obtain ⟨past, effect⟩ := attended.answered id request time value found returned
    exact ⟨Nat.lt_succ_of_lt past, effect⟩

/-- A command gets into the journal. -/
theorem Attended.commit (attended : Attended stamp state) {entry : Int × RaftCommand}
    (extra : List (Nat × Nat))
    (reached : shardSystem.Reachable (fun state event => state.orderlyStep event = true)
      { state.cluster with journal := state.cluster.journal ++ [entry] })
    (covers : ∀ gid op, entry = (gid, .clientOperation op) →
      ∃ id, (state.cluster.now, id) ∈ extra)
    (sent : ∀ position id, (position, id) ∈ extra → position = state.cluster.now ∧
      ∃ gid request, entry = (gid, .clientOperation request.op) ∧
        state.requests[id]? = some request)
    (apart : ∀ position one two, (position, one) ∈ extra → (position, two) ∈ extra → one = two) :
    Attended (restamp stamp state.cluster.now state.clock) { state with
      cluster := { state.cluster with journal := state.cluster.journal ++ [entry] }
      clock := state.clock + 1
      submitted := state.submitted ++ extra } := by
  have size : ({ state.cluster with journal := state.cluster.journal ++ [entry] } :
      ShardCluster).now = state.cluster.now + 1 := by
    simp [ShardCluster.now]
  have extended := extends_append state.cluster entry
  have inside : ∀ position id, (position, id) ∈ state.submitted →
      position < state.cluster.now := by
    intro position id member
    obtain ⟨gid, request, present, -⟩ := attended.sent position id member
    exact (List.getElem?_eq_some_iff.mp present).1
  refine ⟨reached, ?_, ?_, ?_, ?_, ?_, ?_, attended.numbers, attended.unique, ?_⟩
  · intro position past
    rw [size] at past
    unfold restamp
    split
    · rename_i old
      exact Nat.lt_succ_of_lt (attended.early position old)
    · exact Nat.lt_succ_self _
  · intro first last order past
    rw [size] at past
    have old : first < state.cluster.now := by omega
    rw [restamp_of_lt old]
    unfold restamp
    split
    · rename_i inner
      exact attended.mono first last order inner
    · exact attended.early first old
  · intro position gid op present
    rcases getElem?_concat present with old | ⟨rfl, rfl⟩
    · obtain ⟨id, member⟩ := attended.logged position gid op old
      exact ⟨id, List.mem_append_left _ member⟩
    · obtain ⟨id, member⟩ := covers gid op rfl
      exact ⟨id, List.mem_append_right _ member⟩
  · intro position id member
    rcases List.mem_append.mp member with old | new
    · obtain ⟨gid, request, present, found, before⟩ := attended.sent position id old
      have past := inside position id old
      refine ⟨gid, request, ?_, found, ?_⟩
      · rw [List.getElem?_append_left past]
        exact present
      · rwa [restamp_of_lt past]
    · obtain ⟨rfl, gid, request, rfl, found⟩ := sent position id new
      refine ⟨gid, request, List.getElem?_concat_length, found, ?_⟩
      rw [restamp_now]
      exact attended.called id request found
  · intro position one two first second
    rcases List.mem_append.mp first with old | new
    · rcases List.mem_append.mp second with old' | new'
      · exact attended.apart position one two old old'
      · exact absurd (sent position two new').1 (Nat.ne_of_lt (inside position one old))
    · rcases List.mem_append.mp second with old' | new'
      · exact absurd (sent position one new).1 (Nat.ne_of_lt (inside position two old'))
      · exact apart position one two new new'
  · exact fun id request found => Nat.lt_succ_of_lt (attended.called id request found)
  · intro id request time value found returned
    obtain ⟨past, position, old, before, effect⟩ :=
      attended.answered id request time value found returned
    refine ⟨Nat.lt_succ_of_lt past, position, by rw [size]; omega, ?_, ?_⟩
    · rwa [restamp_of_lt old]
    · exact effect.mono extended old (List.subset_append_left _ _)

/-- A command of the journal is that of some request. -/
theorem Attended.request_of_logged (attended : Attended stamp state) {position : Nat} {gid : Int}
    {op : Op} (present : state.cluster.journal[position]? = some (gid, .clientOperation op)) :
    ∃ id request, (position, id) ∈ state.submitted ∧ state.requests[id]? = some request ∧
      request.op = op := by
  obtain ⟨id, member⟩ := attended.logged position gid op present
  obtain ⟨other, request, present', found, -⟩ := attended.sent position id member
  cases present.symm.trans present'
  exact ⟨id, request, member, found, rfl⟩

/-- If the number of a request that is still open is covered, it has been executed. -/
theorem Attended.executed_of_covered (attended : Attended stamp state)
    (found : state.requests[id]? = some request) (writes : request.op.opType ≠ .get)
    (waits : request.answer = none) {time : Nat} {first : Op}
    (member : first ∈ state.cluster.writes time) (client : first.clientId = request.op.clientId)
    (bound : request.op.seqId ≤ first.seqId) :
    ∃ position < time, state.cluster.executed position = some request.op := by
  obtain ⟨position, before, executes⟩ := ShardCluster.mem_writes.mp member
  obtain ⟨gid, present, facts⟩ := ShardCluster.executed_iff.mp executes
  obtain ⟨other, request', -, found', rfl⟩ := attended.request_of_logged present
  have mine : request.op.seqId = state.seqIds request.op.clientId := by
    rcases attended.numbers id request found writes with ⟨-, answered⟩ | ⟨same, -⟩
    · rw [waits] at answered
      cases answered
    · exact same
  have theirs : request'.op.seqId ≤ state.seqIds request.op.clientId := by
    rw [← client]
    rcases attended.numbers other request' found' facts.write with ⟨less, -⟩ | ⟨same, -⟩
    · exact Nat.le_of_lt less
    · exact Nat.le_of_eq same
  have same := attended.unique other id request' request found' found facts.write writes client
    (by omega)
  subst same
  cases found.symm.trans found'
  exact ⟨position, before, executes⟩

theorem Attended.begin (attended : Attended stamp state) {op : Op}
    (fresh : op.opType ≠ .get → op.seqId = state.seqIds op.clientId ∧
      state.busy op.clientId = false) :
    Attended stamp { state with
      clock := state.clock + 1
      requests := state.requests ++ [{ op, call := state.clock, answer := none }] } := by
  have kept : ∀ (id : Nat) request, state.requests[id]? = some request →
      (state.requests ++ [{ op, call := state.clock, answer := none }])[id]? = some request := by
    intro id request found
    rw [List.getElem?_append_left (List.getElem?_eq_some_iff.mp found).1, found]
  -- all writes of the client have returned, so their numbers are smaller
  have smaller : op.opType ≠ .get → ∀ (id : Nat) request, state.requests[id]? = some request →
      request.op.opType ≠ .get → request.op.clientId = op.clientId →
      request.op.seqId ≠ op.seqId := by
    intro writes id request found writes' client same
    obtain ⟨number, idle⟩ := fresh writes
    rcases attended.numbers id request found writes' with ⟨less, -⟩ | ⟨-, waits⟩
    · rw [client] at less
      omega
    · rw [Bool.eq_false_iff] at idle
      refine idle (List.any_eq_true.mpr ⟨request, List.mem_of_getElem? found, ?_⟩)
      exact decide_eq_true ⟨writes', client, waits⟩
  refine ⟨attended.reached, fun position past => Nat.lt_succ_of_lt (attended.early position past),
    attended.mono, attended.logged, ?_, attended.apart, ?_, ?_, ?_, ?_⟩
  · intro position id member
    obtain ⟨gid, request, present, found, before⟩ := attended.sent position id member
    exact ⟨gid, request, present, kept id request found, before⟩
  · intro id request found
    rcases getElem?_concat found with old | ⟨-, rfl⟩
    · exact Nat.lt_succ_of_lt (attended.called id request old)
    · exact Nat.lt_succ_self _
  · intro id request found writes
    rcases getElem?_concat found with old | ⟨-, rfl⟩
    · exact attended.numbers id request old writes
    · exact .inr ⟨(fresh writes).1, rfl⟩
  · intro one two first second found found' writes writes' client number
    rcases getElem?_concat found with old | ⟨rfl, rfl⟩
    · rcases getElem?_concat found' with old' | ⟨rfl, rfl⟩
      · exact attended.unique one two first second old old' writes writes' client number
      · exact absurd number (smaller writes' one first old writes client)
    · rcases getElem?_concat found' with old' | ⟨rfl, rfl⟩
      · exact absurd number.symm (smaller writes two second old' writes' client.symm)
      · rfl
  · intro id request time value found returned
    rcases getElem?_concat found with old | ⟨-, rfl⟩
    · obtain ⟨past, effect⟩ := attended.answered id request time value old returned
      exact ⟨Nat.lt_succ_of_lt past, effect⟩
    · cases returned

/-- A request keeps what it asks when it returns. -/
theorem request_of_set {requests : List Invocation} {other : Nat} {found : Invocation}
    {answer : Option (Nat × String)} (old : requests[id]? = some request)
    (present : (requests.set id { request with answer })[other]? = some found) :
    ∃ before, requests[other]? = some before ∧ found.op = before.op ∧
      found.call = before.call ∧ (other ≠ id ∧ found = before ∨ other = id ∧ found.answer = answer) := by
  rw [List.getElem?_set] at present
  split at present
  · rename_i here
    subst here
    split at present
    · cases present
      exact ⟨request, old, rfl, rfl, .inr ⟨rfl, rfl⟩⟩
    · cases present
  · rename_i away
    exact ⟨found, present, rfl, rfl, .inl ⟨Ne.symm away, rfl⟩⟩

theorem Attended.finish (attended : Attended stamp state) {value : String}
    (found : state.requests[id]? = some request) (waits : request.answer = none) {position : Nat}
    (past : position < state.cluster.now) (effect : state.Effect id request value position) :
    Attended stamp (state.finish id request value) := by
  have inside := (List.getElem?_eq_some_iff.mp found).1
  refine ⟨attended.reached, fun position past => Nat.lt_succ_of_lt (attended.early position past),
    attended.mono, attended.logged, ?_, attended.apart, ?_, ?_, ?_, ?_⟩
  · intro position other member
    obtain ⟨gid, request', present, found', before⟩ := attended.sent position other member
    by_cases here : other = id
    · subst here
      cases found.symm.trans found'
      exact ⟨gid, { request with answer := some (state.clock, value) }, present,
        List.getElem?_set_self inside, before⟩
    · exact ⟨gid, request', present, (List.getElem?_set_ne (Ne.symm here)).trans found', before⟩
  · intro other request' found'
    obtain ⟨before, old, -, call, -⟩ := request_of_set found found'
    rw [call]
    exact Nat.lt_succ_of_lt (attended.called other before old)
  · intro other request' found' writes
    obtain ⟨before, old, same, -, which⟩ := request_of_set found found'
    rw [same] at writes ⊢
    have open_ : request.op.opType ≠ .get →
        request.op.seqId = state.seqIds request.op.clientId := by
      intro writes'
      rcases attended.numbers id request found writes' with ⟨-, answered⟩ | ⟨number, -⟩
      · rw [waits] at answered
        cases answered
      · exact number
    rcases which with ⟨away, rfl⟩ | ⟨rfl, answer⟩
    · have counted := attended.numbers other request' old writes
      by_cases reads : request.op.opType = .get
      · simpa only [Clients.finish, if_pos reads] using counted
      · simp only [Clients.finish, if_neg reads]
        by_cases client : request'.op.clientId = request.op.clientId
        · rw [client] at counted ⊢
          rw [Function.update_self]
          rcases counted with ⟨less, answered⟩ | ⟨number, -⟩
          · exact .inl ⟨Nat.lt_succ_of_lt less, answered⟩
          · exact absurd (attended.unique other id request' request old found writes reads client
              (number.trans (open_ reads).symm)) away
        · rwa [Function.update_of_ne client]
    · cases found.symm.trans old
      refine .inl ⟨?_, by rw [answer]; rfl⟩
      simp only [Clients.finish, if_neg writes, Function.update_self, open_ writes]
      exact Nat.lt_succ_self _
  · intro one two first second found₁ found₂ writes writes' client number
    obtain ⟨before₁, old₁, same₁, -⟩ := request_of_set found found₁
    obtain ⟨before₂, old₂, same₂, -⟩ := request_of_set found found₂
    rw [same₁] at writes client number
    rw [same₂] at writes' client number
    exact attended.unique one two before₁ before₂ old₁ old₂ writes writes' client number
  · intro other request' time value' found' returned
    obtain ⟨before, old, same, -, ⟨-, rfl⟩ | ⟨rfl, answer⟩⟩ := request_of_set found found'
    · obtain ⟨early, rest⟩ := attended.answered other request' time value' old returned
      exact ⟨Nat.lt_succ_of_lt early, rest⟩
    · cases answer.symm.trans returned
      cases found.symm.trans old
      refine ⟨Nat.lt_succ_self _, position, past, attended.early position past, ?_⟩
      unfold Effect at effect ⊢
      rwa [same]

theorem Attended.done_of_answered (attended : Attended stamp state)
    (found : state.requests[id]? = some request) (writes : request.op.opType ≠ .get)
    (answered : request.answer.isSome = true) :
    state.cluster.done request.op.clientId request.op.seqId = true := by
  obtain ⟨⟨time, value⟩, returned⟩ := Option.isSome_iff_exists.mp answered
  obtain ⟨-, position, past, -, effect⟩ := attended.answered id request time value found returned
  rw [Effect, if_neg writes] at effect
  exact List.any_eq_true.mpr ⟨request.op, ShardCluster.mem_writes.mpr ⟨position, past, effect⟩,
    decide_eq_true ⟨rfl, rfl⟩⟩

/-- Of two writes of one clerk, the one with the smaller number has returned. -/
theorem Attended.done_of_lt (attended : Attended stamp state) {one two : Nat}
    {first second : Invocation} (found : state.requests[one]? = some first)
    (found' : state.requests[two]? = some second) (writes : first.op.opType ≠ .get)
    (writes' : second.op.opType ≠ .get) (client : first.op.clientId = second.op.clientId)
    (smaller : first.op.seqId < second.op.seqId) :
    state.cluster.done first.op.clientId first.op.seqId = true := by
  have bound : second.op.seqId ≤ state.seqIds second.op.clientId := by
    rcases attended.numbers two second found' writes' with ⟨less, -⟩ | ⟨same, -⟩
    · exact Nat.le_of_lt less
    · exact Nat.le_of_eq same
  rcases attended.numbers one first found writes with ⟨-, answered⟩ | ⟨same, -⟩
  · exact attended.done_of_answered found writes answered
  · rw [client] at same
    omega

theorem keepsGroups_client (cluster : ShardCluster) (gid : Int) (time : Nat) (op : Op) :
    cluster.keepsGroups (.client gid time op) = true := by
  unfold ShardCluster.keepsGroups
  split
  · rfl
  · rename_i next stepped
    simp only [ShardCluster.step, ShardCluster.client] at stepped
    split at stepped
    · obtain ⟨-, rfl⟩ := ShardCluster.commit_eq stepped
      exact decide_eq_true fun some_group => some_group
    · cases stepped

theorem Attended.request_of_mem (attended : Attended stamp state) {holder : Int} {old : Op}
    (member : (holder, RaftCommand.clientOperation old) ∈ state.cluster.journal) :
    ∃ (id : Nat) (request : Invocation), state.requests[id]? = some request ∧ request.op = old := by
  obtain ⟨position, present⟩ := List.mem_iff_getElem?.mp member
  obtain ⟨id, request, -, found, same⟩ := attended.request_of_logged present
  exact ⟨id, request, found, same⟩

theorem Attended.numbersWrites (attended : Attended stamp state)
    (found : state.requests[id]? = some request) (gid : Int) (time : Nat) :
    state.cluster.numbersWrites (.client gid time request.op) = true := by
  refine List.all_eq_true.mpr fun entry member => ?_
  obtain ⟨holder, command⟩ := entry
  cases command with
  | clientOperation old =>
      refine decide_eq_true fun writes writes' client number => ?_
      obtain ⟨other, request', found', rfl⟩ := attended.request_of_mem member
      have same := attended.unique other id request' request found' found writes writes' client
        number
      subst same
      cases found.symm.trans found'
      rfl
  | _ => rfl

theorem Attended.ordersWrites (attended : Attended stamp state)
    (found : state.requests[id]? = some request) (gid : Int) (time : Nat) :
    state.cluster.ordersWrites (.client gid time request.op) = true := by
  refine List.all_eq_true.mpr fun entry member => ?_
  obtain ⟨holder, command⟩ := entry
  cases command with
  | clientOperation old =>
      refine decide_eq_true fun writes writes' client number => ?_
      obtain ⟨other, request', found', rfl⟩ := attended.request_of_mem member
      rcases Nat.lt_or_gt_of_ne number with smaller | larger
      · rw [min_eq_left (Nat.le_of_lt smaller), ← client]
        exact attended.done_of_lt found' found writes writes' client smaller
      · rw [min_eq_right (Nat.le_of_lt larger)]
        exact attended.done_of_lt found found' writes' writes client.symm larger
  | _ => rfl

theorem Attended.start (attended : Attended stamp state) {handler : Handler}
    (stepped : state.start handler = some next) : Attended stamp next := by
  obtain ⟨request, -, rest⟩ := Option.bind_eq_some_iff.mp stepped
  split at rest
  · cases rest
    exact attended.tick _ attended.reached
  · cases rest

theorem Attended.submit (attended : Attended stamp state) {number : Nat}
    (stepped : state.commit number = some next) : ∃ stamp', Attended stamp' next := by
  obtain ⟨⟨id, gid, time, index⟩, -, rest⟩ := Option.bind_eq_some_iff.mp stepped
  obtain ⟨request, found, rest⟩ := Option.bind_eq_some_iff.mp rest
  obtain ⟨cluster, moved, rest⟩ := Option.bind_eq_some_iff.mp rest
  split at rest
  · cases rest
    have allowed : state.cluster.orderlyStep (.client gid time request.op) = true := by
      rw [ShardCluster.orderlyStep, keepsGroups_client, attended.numbersWrites found,
        attended.ordersWrites found]
      rfl
    have reached := attended.reached.run (.tail (.refl _) allowed moved)
    unfold ShardCluster.client at moved
    split at moved
    · obtain ⟨-, rfl⟩ := ShardCluster.commit_eq moved
      refine ⟨_, attended.commit [(state.cluster.now, id)] reached ?_ ?_ ?_⟩
      · exact fun _ _ _ => ⟨id, List.mem_singleton_self _⟩
      · intro position other member
        cases List.mem_singleton.mp member
        exact ⟨rfl, gid, request, rfl, found⟩
      · intro position one two first second
        cases List.mem_singleton.mp first
        cases List.mem_singleton.mp second
        rfl
    · cases moved
  · cases rest

theorem Attended.internal (attended : Attended stamp state) {event : ShardEvent}
    (apart : ∀ gid time op, event ≠ .client gid time op)
    (guarded : state.cluster.keepsGroups event = true)
    (moved : state.cluster.step event = some cluster) :
    ∃ stamp', Attended stamp' { state with cluster, clock := state.clock + 1 } := by
  have allowed : state.cluster.orderlyStep event = true := by
    have free : state.cluster.numbersWrites event = true ∧
        state.cluster.ordersWrites event = true := by
      cases event with
      | client gid time op => exact absurd rfl (apart gid time op)
      | _ => exact ⟨rfl, rfl⟩
    rw [ShardCluster.orderlyStep, guarded, free.1, free.2]
    rfl
  have reached := attended.reached.run (.tail (.refl _) allowed moved)
  rcases ShardCluster.step_cases (ShardCluster.legal_of_reachable attended.reached) moved with
    ⟨shards, groups, -, rfl⟩ | ⟨gid, command, -, -, sent, rfl⟩
  · exact ⟨stamp, attended.tick _ reached⟩
  · have grown := attended.commit [] reached ?_ ?_ ?_
    · rw [List.append_nil] at grown
      exact ⟨_, grown⟩
    · rintro _ op ⟨⟩
      obtain ⟨time, isClient⟩ := sent op rfl
      exact absurd isClient (apart gid time op)
    · intro position other member
      cases member
    · intro position one two first
      cases first

/-- A write that a table knows was executed, so it may return. -/
theorem Attended.finish_of_known (attended : Attended stamp state)
    (found : state.requests[id]? = some request) (writes : request.op.opType ≠ .get)
    (waits : request.answer = none) {gid : Int} {time : Nat} (past : time ≤ state.cluster.now)
    (known : (state.cluster.group gid time).requestDuplicated request.op.clientId
      request.op.seqId = true) (value : String) :
    Attended stamp (state.finish id request value) := by
  obtain ⟨info, recorded, bound⟩ := ShardKV.requestDuplicated_iff.mp known
  obtain ⟨-, first, member, client, number⟩ :=
    (ShardCluster.legal_of_reachable attended.reached).recorded recorded
  obtain ⟨position, before, executes⟩ :=
    attended.executed_of_covered found writes waits member client (number ▸ bound)
  refine attended.finish found waits (before.trans_le past) ?_
  rwa [Effect, if_neg writes]

theorem matchGroup_of_ends {kv : ShardKV} {op : Op}
    (ends : Clients.ends op (kv.applyClientOperation op).2 = true) :
    kv.matchGroup op.key = true := by
  by_contra away
  rw [ShardKV.applyClientOperation, if_neg away] at ends
  simp [Clients.ends] at ends

/-- A read finds in the served copy what the one map has. -/
theorem value_of_get (orderly : cluster.Orderly) {gid : Int} {position : Nat} {op : Op}
    (present : cluster.journal[position]? = some (gid, .clientOperation op))
    (reads : op.opType = .get)
    (ends : Clients.ends op ((cluster.group gid position).applyClientOperation op).2 = true) :
    ((cluster.group gid position).applyClientOperation op).2.value =
      ((cluster.store position).kv op.key).getD "" := by
  have serves := matchGroup_of_ends ends
  have copy := orderly.legal.served_copy orderly.populated
    (orderly.legal.positive position gid _ present) (orderly.legal.matchGroup_iff.mp serves)
  simp only [ShardKV.applyClientOperation, serves, reads, ShardKV.applyToStateMachine,
    MemoryKVStateMachine.get, copy, ne_eq, not_true_eq_false, false_and, if_false, if_true]
  cases (cluster.store position).kv op.key with
  | none => rfl
  | some value => rfl

theorem Attended.reply (attended : Attended stamp state) {number position : Nat}
    (guarded : state.permitted (.reply number position) = true)
    (stepped : state.reply number position = some next) : Attended stamp next := by
  obtain ⟨⟨id, gid, time, index⟩, waiting, rest⟩ := Option.bind_eq_some_iff.mp stepped
  obtain ⟨request, found, rest⟩ := Option.bind_eq_some_iff.mp rest
  obtain ⟨⟨holder, command⟩, present, rest⟩ := Option.bind_eq_some_iff.mp rest
  dsimp only at found rest
  split at rest
  · rename_i taken
    obtain ⟨-, -, waits, ends⟩ := taken
    cases rest
    have member : (position, id) ∈ state.submitted := by
      simpa [permitted, waiting] using guarded
    have orderly := ShardCluster.orderly_of_reachable attended.reached
    have past : position < state.cluster.now := (List.getElem?_eq_some_iff.mp present).1
    obtain ⟨group, request', present', found', -⟩ := attended.sent position id member
    cases found.symm.trans found'
    cases present.symm.trans present'
    dsimp only [ShardKV.apply] at ends ⊢
    by_cases reads : request.op.opType = .get
    · refine attended.finish found waits past ?_
      rw [Effect, if_pos reads, if_pos reads]
      exact ⟨member, value_of_get orderly present reads ends⟩
    · by_cases executes : (state.cluster.group holder position).Executes request.op
      · refine attended.finish found waits past ?_
        rw [Effect, if_neg reads]
        exact ShardCluster.executed_iff.mpr ⟨holder, present, executes⟩
      · have known : (state.cluster.group holder position).requestDuplicated request.op.clientId
            request.op.seqId = true := by
          by_contra fresh
          exact executes ⟨reads, matchGroup_of_ends ends, Bool.eq_false_iff.mpr fresh⟩
        exact attended.finish_of_known found reads waits (Nat.le_of_lt past) known _
  · cases rest

theorem Attended.repeated (attended : Attended stamp state) {gid : Int} {time : Nat}
    (stepped : state.repeated id gid time = some next) : Attended stamp next := by
  obtain ⟨request, found, rest⟩ := Option.bind_eq_some_iff.mp stepped
  dsimp only at rest
  split at rest
  · rename_i allowed
    obtain ⟨-, past, waits, writes, -, known, -⟩ := allowed
    cases rest
    exact attended.finish_of_known found writes waits past known ""
  · cases rest

theorem Attended.write (attended : Attended stamp state) {clientId : Nat} {key value op : String}
    (stepped : state.write clientId key value op = some next) : Attended stamp next := by
  obtain ⟨opType, known, rest⟩ := Option.bind_eq_some_iff.mp stepped
  split at rest
  · cases rest
  · rename_i idle
    cases rest
    exact attended.begin fun _ => ⟨rfl, Bool.eq_false_iff.mpr idle⟩

theorem Attended.step (attended : Attended stamp state) {event : ClientEvent}
    (guarded : state.permitted event = true) (stepped : state.step event = some next) :
    ∃ stamp', Attended stamp' next := by
  cases event with
  | internal event =>
      have apart : ∀ gid time op, event ≠ .client gid time op := by
        rintro gid time op rfl
        cases stepped
      have moved : (state.cluster.step event).map (fun cluster =>
          { state with cluster, clock := state.clock + 1 }) = some next := by
        cases event with
        | client gid time op => exact absurd rfl (apart gid time op)
        | _ => exact stepped
      obtain ⟨cluster, taken, rfl⟩ := Option.map_eq_some_iff.mp moved
      exact attended.internal apart guarded taken
  | write clientId key value op => exact ⟨stamp, attended.write stepped⟩
  | read key =>
      cases stepped
      exact ⟨stamp, attended.begin fun writes => absurd rfl writes⟩
  | start handler => exact ⟨stamp, attended.start stepped⟩
  | commit number => exact attended.submit stepped
  | reply number position => exact ⟨stamp, attended.reply guarded stepped⟩
  | repeated id gid time => exact ⟨stamp, attended.repeated stepped⟩

theorem attended_initial : Attended (fun _ => 0) .initial := by
  refine ⟨⟨_, rfl, .refl _⟩, ?_, ?_, ?_, ?_, ?_, ?_, ?_, ?_, ?_⟩
  · intro position past
    cases past
  · intro first last order past
    cases past
  · intro position gid op present
    cases present
  · intro position id member
    cases member
  · intro position one two member
    cases member
  · intro id request found
    cases found
  · intro id request found
    cases found
  · intro one two first second found
    cases found
  · intro id request time value found
    cases found

theorem attended_of_reachable
    (reached : clientSystem.Reachable (fun state event => state.permitted event = true) state) :
    ∃ stamp, Attended stamp state := by
  have start : ∀ state, clientSystem.init state → ∃ stamp, Attended stamp state := by
    rintro _ rfl
    exact ⟨_, attended_initial⟩
  refine reached.preserves start ?_
  rintro state event next ⟨stamp, attended⟩ guarded stepped
  exact attended.step guarded stepped

end Clients

end MultiRaft.Shardkv
