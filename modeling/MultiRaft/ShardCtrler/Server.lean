import MultiRaft.Lib.System
import MultiRaft.ShardCtrler.StateMachine

/-!
# The servers of the shard controller and their clerks

A server is what the commands of the Raft log make of an empty one, as far as it has applied
them.  A handler waits for the result of whatever command is applied at the index that `Start`
gave it, and a clerk calls handlers until one of them answers.  Calls are repeated and come late,
but the duplicate table lets only the first command of a request through.
-/

namespace MultiRaft.ShardCtrler

def CtrlerOp.isQuery : CtrlerOp → Bool
  | .query _ => true
  | .join _ | .leave _ | .move _ _ => false

/-- The command of a query names no client. -/
structure Op where
  kind : CtrlerOp
  clientId : Nat := 0
  seqId : Nat := 0

/-- Of a reply only the configuration is kept: the error is always OK. -/
structure LastOperationInfo where
  seqId : Nat
  reply : Config

/-- A `ShardCtrler` without the means it uses to wait and to answer. -/
structure CtrlerServer where
  stateMachine : CtrlerStateMachine
  duplicateTable : Nat → Option LastOperationInfo

namespace CtrlerServer

def startServer : CtrlerServer := { stateMachine := .new, duplicateTable := fun _ => none }

def requestDuplicated (sc : CtrlerServer) (clientId seqId : Nat) : Bool :=
  match sc.duplicateTable clientId with
  | some info => decide (seqId ≤ info.seqId)
  | none => false

/-- `duplicateTable[clientId].Reply`; it is read only where the entry exists. -/
def lastReply (sc : CtrlerServer) (clientId : Nat) : Config :=
  match sc.duplicateTable clientId with
  | some info => info.reply
  | none => defaultConfig

/-- The part of `applyTask` between taking a command and answering it. -/
def apply (sc : CtrlerServer) (op : Op) : Option (CtrlerServer × Config) :=
  if op.kind.isQuery = false ∧ sc.requestDuplicated op.clientId op.seqId = true then
    some (sc, sc.lastReply op.clientId)
  else do
    let (stateMachine, reply) ← sc.stateMachine.applyToStateMachine op.kind
    let sc := { sc with stateMachine }
    if op.kind.isQuery then return (sc, reply)
    else
      let info : LastOperationInfo := { seqId := op.seqId, reply }
      let table := Function.update sc.duplicateTable op.clientId (some info)
      return ({ sc with duplicateTable := table }, reply)

/-- The server after a sequence of commands. -/
def replay (ops : List Op) : Option CtrlerServer :=
  ops.foldlM (fun sc op => (sc.apply op).map Prod.fst) startServer

/-- The command is not a query, and its number is new. -/
def executes (sc : CtrlerServer) (op : Op) : Bool :=
  !op.kind.isQuery && !sc.requestDuplicated op.clientId op.seqId

end CtrlerServer

/-- `waiting` is the request that the clerk repeats and `round` the number of its requests so
far.  Those that have returned are in `finished`, or for queries their results in `configs`. -/
structure Clerk where
  seqId : Nat
  round : Nat
  waiting : Option CtrlerOp
  finished : List CtrlerOp
  configs : List Config

def Clerk.op (clerk : Clerk) (clientId : Nat) (kind : CtrlerOp) : Op :=
  if kind.isQuery then { kind } else { kind, clientId, seqId := clerk.seqId }

/-- The request returns; a clerk does not count its queries. -/
def Clerk.finish (clerk : Clerk) (kind : CtrlerOp) (reply : Config) : Clerk :=
  { clerk with
    seqId := clerk.seqId + if kind.isQuery then 0 else 1
    waiting := none
    finished := clerk.finished ++ if kind.isQuery then [] else [kind]
    configs := clerk.configs ++ if kind.isQuery then [reply] else [] }

/-- The handler of a call that a clerk made in some round; `Start` gave it the index. -/
structure Handler where
  op : Op
  clientId : Nat
  round : Nat
  index : Nat

/-- The log has the handlers whose commands were applied; `executed` lists the commands that
changed the state machine. -/
structure Controllers where
  log : List Handler
  executed : List Op
  clerks : Nat → Clerk
  handlers : List Handler

inductive ControllerEvent where
  | begin (clientId : Nat) (kind : CtrlerOp)
  | start (clientId time index : Nat)
  | commit (number : Nat)
  | reply (number : Nat)
  | repeated (clientId time : Nat)

namespace Controllers

/-- A server that has applied the first `time` commands. -/
def server (state : Controllers) (time : Nat) : Option CtrlerServer :=
  CtrlerServer.replay ((state.log.take time).map Handler.op)

def setClerk (state : Controllers) (clientId : Nat) (clerk : Clerk) : Controllers :=
  { state with clerks := Function.update state.clerks clientId clerk }

/-- `Clerk.Query`, `Join`, `Leave` or `Move` begins. -/
def begin (state : Controllers) (clientId : Nat) (kind : CtrlerOp) : Option Controllers :=
  let clerk := state.clerks clientId
  match clerk.waiting with
  | some _ => none
  | none => some (state.setClerk clientId
      { clerk with round := clerk.round + 1, waiting := some kind })

/-- `command` calls `Start`.  The index is one that the server has not applied; whether the
command gets there is not known. -/
def start (state : Controllers) (clientId time index : Nat) : Option Controllers := do
  let clerk := state.clerks clientId
  let kind ← clerk.waiting
  let sc ← state.server time
  let op := clerk.op clientId kind
  if time < index ∧ (kind.isQuery ∨ sc.executes op) then
    return { state with
      handlers := state.handlers ++ [{ op, clientId, round := clerk.round, index }] }
  else none

/-- The command of a handler is applied at its index.  No server gets past a command on which
`applyTask` panics. -/
def commit (state : Controllers) (number : Nat) : Option Controllers := do
  let handler ← state.handlers[number]?
  let sc ← state.server state.log.length
  let _ ← sc.apply handler.op
  if handler.index = state.log.length + 1 then
    return { state with
      log := state.log ++ [handler]
      executed := state.executed ++ if sc.executes handler.op then [handler.op] else [] }
  else none

/-- A handler answers with the result of the command at its index, and its clerk still waits
for it. -/
def reply (state : Controllers) (number : Nat) : Option Controllers := do
  let handler ← state.handlers[number]?
  let entry ← state.log[handler.index - 1]?
  let sc ← state.server (handler.index - 1)
  let (_, reply) ← sc.apply entry.op
  let clerk := state.clerks handler.clientId
  let kind ← clerk.waiting
  if handler.round = clerk.round then
    return state.setClerk handler.clientId (clerk.finish kind reply)
  else none

/-- `command` finds the number of the request in the duplicate table. -/
def repeated (state : Controllers) (clientId time : Nat) : Option Controllers := do
  let clerk := state.clerks clientId
  let kind ← clerk.waiting
  let sc ← state.server time
  if kind.isQuery = false ∧ sc.requestDuplicated clientId clerk.seqId then
    return state.setClerk clientId (clerk.finish kind (sc.lastReply clientId))
  else none

def step (state : Controllers) : ControllerEvent → Option Controllers
  | .begin clientId kind => state.begin clientId kind
  | .start clientId time index => state.start clientId time index
  | .commit number => state.commit number
  | .reply number => state.reply number
  | .repeated clientId time => state.repeated clientId time

def initial : Controllers where
  log := []
  executed := []
  clerks _ := { seqId := 0, round := 0, waiting := none, finished := [], configs := [] }
  handlers := []

/-- A handler does not get the result of another request, whose command was applied at its
index in place of its own. -/
def permitted (state : Controllers) : ControllerEvent → Bool
  | .reply number => (state.handlers[number]?).all fun handler =>
      (state.log[handler.index - 1]?).all fun entry =>
        entry.clientId == handler.clientId && entry.round == handler.round
  | _ => true

end Controllers

def controllerSystem : System Controllers ControllerEvent where
  init state := state = .initial
  step := Controllers.step

/-- The state machine alone, after a sequence of operations. -/
def CtrlerStateMachine.replay (kinds : List CtrlerOp) : Option CtrlerStateMachine :=
  kinds.foldlM (fun csm kind => (csm.applyToStateMachine kind).map Prod.fst) .new

/-- The operations of one clerk. -/
def operationsOf (ops : List Op) (clientId : Nat) : List CtrlerOp :=
  (ops.filter fun op => op.clientId == clientId).map Op.kind

theorem operationsOf_concat (ops : List Op) (op : Op) (clientId : Nat) :
    operationsOf (ops ++ [op]) clientId =
      operationsOf ops clientId ++ if op.clientId = clientId then [op.kind] else [] := by
  by_cases same : op.clientId = clientId <;> simp [operationsOf, same]

theorem CtrlerStateMachine.eq_of_query {csm next : CtrlerStateMachine} {kind : CtrlerOp}
    {config : Config} (query : kind.isQuery = true)
    (made : csm.applyToStateMachine kind = some (next, config)) : next = csm := by
  cases kind with
  | query num =>
      cases made
      rfl
  | _ => cases query

/-- A command that is not executed changes nothing. -/
theorem CtrlerServer.apply_cases {sc next : CtrlerServer} {op : Op} {reply : Config}
    (applied : sc.apply op = some (next, reply)) :
    (sc.executes op = false ∧ next = sc) ∨
    (sc.executes op = true ∧
      (sc.stateMachine.applyToStateMachine op.kind).map Prod.fst = some next.stateMachine ∧
      ∀ other number, next.requestDuplicated other number =
        if other = op.clientId then decide (number ≤ op.seqId)
        else sc.requestDuplicated other number) := by
  unfold apply at applied
  split at applied
  · rename_i known
    cases applied
    exact .inl ⟨by simp [executes, known], rfl⟩
  · rename_i unknown
    obtain ⟨⟨csm, config⟩, made, rest⟩ := Option.bind_eq_some_iff.mp applied
    cases query : op.kind.isQuery with
    | true =>
        simp only [query, if_true] at rest
        cases rest
        rw [CtrlerStateMachine.eq_of_query query made]
        exact .inl ⟨by simp [executes, query], rfl⟩
    | false =>
        simp only [query, Bool.false_eq_true, if_false] at rest
        cases rest
        refine .inr ⟨by simpa [executes, query] using unknown, by rw [made]; rfl, ?_⟩
        intro other number
        unfold requestDuplicated
        by_cases same : other = op.clientId <;> simp [same]

/-- A handler was called by the clerk, in this round or an earlier one. -/
structure Handler.Fits (handler : Handler) (clerk : Clerk) : Prop where
  round : handler.round ≤ clerk.round
  op : handler.round = clerk.round → ∀ kind, clerk.waiting = some kind →
    handler.op = clerk.op handler.clientId kind
  write : handler.op.kind.isQuery = false → handler.op.clientId = handler.clientId ∧
    (handler.op.seqId < clerk.seqId ∨
      handler.op.seqId = clerk.seqId ∧ clerk.waiting = some handler.op.kind)

/-- Of the operations of the clerk those that have returned are executed, and perhaps the one
for which it waits. -/
structure Clerk.Sound (clerk : Clerk) (clientId : Nat) (executed : List CtrlerOp)
    (handlers : List Handler) : Prop where
  seqId : clerk.finished.length = clerk.seqId
  ran : executed = clerk.finished ∨ ∃ kind, clerk.waiting = some kind ∧ kind.isQuery = false ∧
    executed = clerk.finished ++ [kind]
  called : ∀ handler ∈ handlers, handler.clientId = clientId → handler.Fits clerk

namespace Controllers

variable {state next : Controllers} {sc : CtrlerServer} {clientId number : Nat} {kind : CtrlerOp}

/-- The server has executed these commands, and the numbers in its table are theirs. -/
structure Kept (clerks : Nat → Clerk) (handlers : List Handler) (executed : List Op)
    (sc : CtrlerServer) : Prop where
  csm : CtrlerStateMachine.replay (executed.map Op.kind) = some sc.stateMachine
  table : ∀ clientId number, sc.requestDuplicated clientId number = true ↔
    number < (operationsOf executed clientId).length
  sound : ∀ clientId, (clerks clientId).Sound clientId (operationsOf executed clientId) handlers

/-- `sc` is a server that has applied the whole log. -/
structure Once (state : Controllers) (sc : CtrlerServer) : Prop where
  current : state.server state.log.length = some sc
  kept : Kept state.clerks state.handlers state.executed sc
  lags : ∀ time old, state.server time = some old → ∀ clientId number,
    old.requestDuplicated clientId number = true → sc.requestDuplicated clientId number = true
  logged : ∀ entry ∈ state.log, entry ∈ state.handlers ∧ (entry.op.kind.isQuery = false →
    sc.requestDuplicated entry.op.clientId entry.op.seqId = true)

theorem Once.setClerk (once : Once state sc) {clerk : Clerk}
    (sound : clerk.Sound clientId (operationsOf state.executed clientId) state.handlers) :
    Once (state.setClerk clientId clerk) sc := by
  refine ⟨once.current, ⟨once.kept.csm, once.kept.table, fun other => ?_⟩, once.lags, once.logged⟩
  by_cases same : other = clientId
  · subst same
    simpa [Controllers.setClerk] using sound
  · simpa [Controllers.setClerk, same] using once.kept.sound other

theorem Once.begin (once : Once state sc) (stepped : state.begin clientId kind = some next) :
    Once next sc := by
  simp only [Controllers.begin] at stepped
  split at stepped
  · cases stepped
  · rename_i idle
    cases stepped
    obtain ⟨seqId, ran, called⟩ := once.kept.sound clientId
    refine once.setClerk ⟨seqId, .inl ?_, fun handler member mine => ?_⟩
    · rcases ran with all | ⟨_, waits, -⟩
      · exact all
      · cases idle.symm.trans waits
    · have fits := called handler member mine
      refine ⟨Nat.le_succ_of_le fits.round, fun round => ?_, fun write => ?_⟩
      · exact absurd fits.round (by rw [round]; exact Nat.not_succ_le_self _)
      · obtain ⟨client, earlier | ⟨-, waits⟩⟩ := fits.write write
        · exact ⟨client, .inl earlier⟩
        · cases idle.symm.trans waits

theorem Once.finish (once : Once state sc) (waits : (state.clerks clientId).waiting = some kind)
    (known : kind.isQuery = false →
      sc.requestDuplicated clientId (state.clerks clientId).seqId = true) (reply : Config) :
    Once (state.setClerk clientId ((state.clerks clientId).finish kind reply)) sc := by
  obtain ⟨seqId, ran, called⟩ := once.kept.sound clientId
  refine once.setClerk ⟨?_, .inl ?_, fun handler member mine => ?_⟩
  · simp only [Clerk.finish]
    split <;> simpa using seqId
  · rcases ran with all | ⟨other, waits', write, more⟩
    · cases query : kind.isQuery with
      | true => simpa [Clerk.finish, query] using all
      | false =>
          have covered := (once.kept.table clientId _).mp (known query)
          rw [all, seqId] at covered
          exact absurd covered (Nat.lt_irrefl _)
    · cases waits.symm.trans waits'
      simpa [Clerk.finish, write] using more
  · have fits := called handler member mine
    refine ⟨fits.round, fun _ _ => nofun, fun write => ?_⟩
    obtain ⟨client, earlier | ⟨same, waits'⟩⟩ := fits.write write
    · exact ⟨client, .inl (Nat.lt_add_right _ earlier)⟩
    · cases waits.symm.trans waits'
      exact ⟨client, .inl (by simp [Clerk.finish, write, same])⟩

theorem Once.start (once : Once state sc) {time index : Nat}
    (stepped : state.start clientId time index = some next) : Once next sc := by
  obtain ⟨kind, waits, rest⟩ := Option.bind_eq_some_iff.mp stepped
  obtain ⟨old, -, rest⟩ := Option.bind_eq_some_iff.mp rest
  dsimp only at rest
  split at rest
  · cases rest
    refine ⟨once.current, ⟨once.kept.csm, once.kept.table, fun other => ?_⟩, once.lags, ?_⟩
    · obtain ⟨seqId, ran, called⟩ := once.kept.sound other
      refine ⟨seqId, ran, fun handler member mine => ?_⟩
      rcases List.mem_append.mp member with old | new
      · exact called handler old mine
      · cases List.mem_singleton.mp new
        subst mine
        refine ⟨Nat.le_refl _, fun _ other waits' => ?_, fun write => ?_⟩
        · cases waits.symm.trans waits'
          rfl
        · cases query : kind.isQuery with
          | true => simp [Clerk.op, query] at write
          | false => simp [Clerk.op, query, waits]
    · exact fun entry member => (once.logged entry member).imp_left (List.mem_append_left _)
  · cases rest

/-- The server applies the command of a handler. -/
theorem Kept.apply {clerks : Nat → Clerk} {handlers : List Handler} {executed : List Op}
    {after : CtrlerServer} {handler : Handler} {reply : Config}
    (kept : Kept clerks handlers executed sc) (called : handler ∈ handlers)
    (applied : sc.apply handler.op = some (after, reply)) :
    Kept clerks handlers (executed ++ if sc.executes handler.op then [handler.op] else []) after ∧
      (handler.op.kind.isQuery = false →
        after.requestDuplicated handler.op.clientId handler.op.seqId = true) := by
  rcases CtrlerServer.apply_cases applied with ⟨skips, rfl⟩ | ⟨runs, csm, table⟩
  · rw [skips, if_neg Bool.false_ne_true, List.append_nil]
    exact ⟨kept, fun write => by simpa [CtrlerServer.executes, write] using skips⟩
  · rw [if_pos runs]
    simp only [CtrlerServer.executes, Bool.and_eq_true, Bool.not_eq_true', ← Bool.not_eq_true,
      kept.table] at runs
    obtain ⟨write, fresh⟩ := runs
    rw [Bool.not_eq_true] at write
    obtain ⟨seqId, ran, fits⟩ := kept.sound handler.clientId
    obtain ⟨client, number⟩ := (fits handler called rfl).write write
    rw [client] at fresh table ⊢
    -- the clerk waits for it, and it has not been executed
    have all : operationsOf executed handler.clientId = (clerks handler.clientId).finished := by
      refine ran.resolve_right fun ⟨_, _, _, more⟩ => fresh ?_
      rw [more, List.length_append, List.length_singleton, seqId]
      omega
    rw [all, seqId] at fresh
    obtain ⟨same, waits⟩ := number.resolve_left fresh
    refine ⟨⟨?_, fun other number => ?_, fun other => ?_⟩, fun _ => by simp [table]⟩
    · have before := kept.csm
      simp only [CtrlerStateMachine.replay] at before ⊢
      rw [List.map_append, List.foldlM_append, before]
      simpa using csm
    · rw [table, operationsOf_concat, client]
      by_cases mine : other = handler.clientId
      · simp only [mine, all, seqId, same, if_true, decide_eq_true_eq, List.length_append,
          List.length_singleton]
        omega
      · simp [mine, Ne.symm mine, kept.table]
    · rw [operationsOf_concat, client]
      by_cases mine : handler.clientId = other
      · subst mine
        exact ⟨seqId, .inr ⟨_, waits, write, by rw [all, if_pos rfl]⟩, fits⟩
      · rw [if_neg mine, List.append_nil]
        exact kept.sound other

theorem Once.commit (once : Once state sc) (stepped : state.commit number = some next) :
    ∃ after, Once next after := by
  obtain ⟨handler, found, rest⟩ := Option.bind_eq_some_iff.mp stepped
  obtain ⟨_, now, rest⟩ := Option.bind_eq_some_iff.mp rest
  cases once.current.symm.trans now
  obtain ⟨⟨after, reply⟩, applied, rest⟩ := Option.bind_eq_some_iff.mp rest
  split at rest
  case isFalse => cases rest
  cases rest
  obtain ⟨kept, covers⟩ := once.kept.apply (List.mem_of_getElem? found) applied
  have keeps : ∀ clientId number, sc.requestDuplicated clientId number = true →
      after.requestDuplicated clientId number = true := by
    intro clientId number known
    rw [once.kept.table] at known
    refine (kept.table clientId number).mpr (known.trans_le ?_)
    simp [operationsOf]
  have current : CtrlerServer.replay ((state.log ++ [handler]).map Handler.op) = some after := by
    rw [server, List.take_length] at now
    simp only [CtrlerServer.replay] at now ⊢
    rw [List.map_append, List.foldlM_append, now]
    simp [applied]
  refine ⟨after, by rwa [server, List.take_length], kept, ?_, ?_⟩
  · intro time old before clientId number known
    rcases Nat.lt_or_ge state.log.length time with now | earlier
    · rw [server, List.take_of_length_le (by rwa [List.length_append]), current] at before
      cases before
      exact known
    · rw [server, List.take_append_of_le_length earlier] at before
      exact keeps _ _ (once.lags time old before clientId number known)
  · intro entry member
    rcases List.mem_append.mp member with old | new
    · exact ⟨(once.logged entry old).1, fun write => keeps _ _ ((once.logged entry old).2 write)⟩
    · cases List.mem_singleton.mp new
      exact ⟨List.mem_of_getElem? found, covers⟩

theorem Once.reply (once : Once state sc) (own : state.permitted (.reply number) = true)
    (stepped : state.reply number = some next) : Once next sc := by
  obtain ⟨handler, found, rest⟩ := Option.bind_eq_some_iff.mp stepped
  obtain ⟨entry, logged, rest⟩ := Option.bind_eq_some_iff.mp rest
  obtain ⟨old, -, rest⟩ := Option.bind_eq_some_iff.mp rest
  obtain ⟨⟨after, reply⟩, -, rest⟩ := Option.bind_eq_some_iff.mp rest
  obtain ⟨kind, waits, rest⟩ := Option.bind_eq_some_iff.mp rest
  split at rest
  · rename_i round
    cases rest
    refine once.finish waits (fun write => ?_) reply
    obtain ⟨client, same⟩ : entry.clientId = handler.clientId ∧ entry.round = handler.round := by
      simpa [permitted, found, logged] using own
    obtain ⟨called, known⟩ := once.logged entry (List.mem_of_getElem? logged)
    have op := ((once.kept.sound _).called entry called client).op (same.trans round) kind waits
    simpa [op, Clerk.op, write, client] using known
  · cases rest

theorem Once.repeated (once : Once state sc) {time : Nat}
    (stepped : state.repeated clientId time = some next) : Once next sc := by
  obtain ⟨kind, waits, rest⟩ := Option.bind_eq_some_iff.mp stepped
  obtain ⟨old, before, rest⟩ := Option.bind_eq_some_iff.mp rest
  split at rest
  · rename_i found
    cases rest
    exact once.finish waits (fun _ => once.lags time old before clientId _ found.2) _
  · cases rest

theorem once_initial : Once .initial .startServer where
  current := rfl
  kept := ⟨rfl, fun _ _ => by simp [CtrlerServer.requestDuplicated, CtrlerServer.startServer,
    initial, operationsOf], fun _ => ⟨rfl, .inl rfl, nofun⟩⟩
  lags time old before clientId number known := by
    rw [server, initial, List.take_nil] at before
    cases before
    exact known
  logged := nofun

theorem once_of_reachable
    (reached : controllerSystem.Reachable (fun state event => state.permitted event = true)
      state) : ∃ sc, Once state sc := by
  have start : ∀ state, controllerSystem.init state → ∃ sc, Once state sc := by
    rintro _ rfl
    exact ⟨_, once_initial⟩
  refine reached.preserves start ?_
  rintro state event next ⟨sc, once⟩ permitted stepped
  cases event with
  | begin clientId kind => exact ⟨sc, once.begin stepped⟩
  | start clientId time index => exact ⟨sc, once.start stepped⟩
  | commit number => exact once.commit stepped
  | reply number => exact ⟨sc, once.reply permitted stepped⟩
  | repeated clientId time => exact ⟨sc, once.repeated stepped⟩

end Controllers

/-- Let no handler get the result of another request.  Then a server that has applied the whole
log has the configurations that the state machine makes of the executed operations, and those
are for every clerk the operations that have returned, each once and in their order, and perhaps
the one for which it waits. -/
theorem controllers_execute_once {state : Controllers}
    (reached : controllerSystem.Reachable (fun state event => state.permitted event = true)
      state) :
    (∃ csm, (state.server state.log.length).map CtrlerServer.stateMachine = some csm ∧
      CtrlerStateMachine.replay (state.executed.map Op.kind) = some csm) ∧
    ∀ clientId, let clerk := state.clerks clientId
      operationsOf state.executed clientId = clerk.finished ∨
      ∃ kind, clerk.waiting = some kind ∧ kind.isQuery = false ∧
        operationsOf state.executed clientId = clerk.finished ++ [kind] := by
  obtain ⟨sc, once⟩ := Controllers.once_of_reachable reached
  refine ⟨⟨sc.stateMachine, by rw [once.current]; rfl, once.kept.csm⟩, fun clientId => ?_⟩
  exact (once.kept.sound clientId).ran

/-- A clerk calls `Join` at two servers; both commands are applied, and the second answers. -/
def joinedTwice : Controllers :=
  controllerSystem.after Controllers.permitted .initial
    [.begin 7 (.join (AList.singleton 1 ["a"])), .start 7 0 1, .start 7 0 2, .commit 0, .commit 1,
     .reply 1]

theorem controllers_execute_once_joinedTwice :
    joinedTwice.log.length = 2 ∧ (joinedTwice.clerks 7).finished.length = 1 ∧
      ∃ csm, (joinedTwice.server 2).map CtrlerServer.stateMachine = some csm ∧
        CtrlerStateMachine.replay (joinedTwice.executed.map Op.kind) = some csm := by
  refine ⟨by decide +kernel, by decide +kernel, (controllers_execute_once ?_).1⟩
  exact ⟨.initial, rfl, System.run_after Controllers.permitted _ _⟩

end MultiRaft.ShardCtrler
