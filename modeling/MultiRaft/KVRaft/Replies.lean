import MultiRaft.KVRaft.Handlers

/-!
# A call is answered with the result of its own command
-/

namespace MultiRaft.KVRaft

namespace KVCluster

variable {n : Nat} {cluster next : KVCluster n} {event : KVEvent n}

/-- Where `applyTask` sends a result, the term of `GetState` is the one that
`Start` returned to every handler of the server that waits at the index. -/
def notifiesInTerm (cluster : KVCluster n) : KVEvent n → Bool
  | .apply server _ =>
      let peer := cluster.peers server
      !peer.leading || cluster.rpcs.all fun rpc =>
        match rpc.phase.awaits with
        | some (index, term) =>
            decide (rpc.server = server → index = peer.applied + 1 → term = peer.term)
        | none => true
  | _ => true

variable {rpc : Rpc n} {server : Fin n}

theorem term_of_notifiesInTerm {snapshot : Bool} {id term : Nat}
    (guarded : cluster.notifiesInTerm (.apply server snapshot) = true)
    (leading : (cluster.peers server).leading = true) (found : cluster.rpcs[id]? = some rpc)
    (here : rpc.server = server)
    (awaits : rpc.phase.awaits = some ((cluster.peers server).applied + 1, term)) :
    (cluster.peers server).term = term := by
  simp only [notifiesInTerm, leading, Bool.not_true, Bool.false_or, List.all_eq_true] at guarded
  have checked := guarded rpc (List.mem_of_getElem? found)
  simp only [awaits, decide_eq_true_eq] at checked
  exact (checked here trivial).symm

structure Handlers (cluster : KVCluster n) : Prop where
  led : ∀ server, (cluster.peers server).leading = true →
    (cluster.peers server).term ∈ cluster.led
  wired : ∀ server, Wired (cluster.servers server) (cluster.peers server).applied
  handled : ∀ id rpc, cluster.rpcs[id]? = some rpc →
    Handled cluster.agreed cluster.led (cluster.peers rpc.server) (cluster.servers rpc.server)
      id rpc.args rpc.phase

/-- A step happens at one server; calls at the others see the sequence and the
terms grow. -/
theorem Handlers.update (handlers : cluster.Handlers) (server : Fin n)
    (grown : cluster.agreed <+: next.agreed) (kept : cluster.led ⊆ next.led)
    (others : ∀ other, other ≠ server →
      next.peers other = cluster.peers other ∧ next.servers other = cluster.servers other)
    (led : (next.peers server).leading = true → (next.peers server).term ∈ next.led)
    (wired : Wired (next.servers server) (next.peers server).applied)
    (here : ∀ id rpc, rpc.server = server → cluster.rpcs[id]? = some rpc →
      next.rpcs[id]? = some rpc → Handled next.agreed next.led (next.peers server)
        (next.servers server) id rpc.args rpc.phase)
    (rpcs : ∀ id rpc, next.rpcs[id]? = some rpc → cluster.rpcs[id]? = some rpc ∨
      Handled next.agreed next.led (next.peers rpc.server) (next.servers rpc.server) id rpc.args
        rpc.phase) :
    next.Handlers := by
  refine ⟨?_, ?_, ?_⟩
  · intro other leading
    by_cases same : other = server
    · subst same
      exact led leading
    · rw [(others other same).1] at leading ⊢
      exact kept (handlers.led other leading)
  · intro other
    by_cases same : other = server
    · subst same
      exact wired
    · rw [(others other same).1, (others other same).2]
      exact handlers.wired other
  · intro id rpc found
    rcases rpcs id rpc found with old | new
    · by_cases same : rpc.server = server
      · have handled := here id rpc same old found
        rw [← same] at handled
        exact handled
      · rw [(others _ same).1, (others _ same).2]
        have before := handlers.handled id rpc old
        exact before.mono grown kept (Nat.le_refl _) before.own
    · exact new

theorem rpcs_set {id other : Nat} {now : Rpc n} {rpcs : List (Rpc n)}
    (found : (rpcs.set id now)[other]? = some rpc) :
    rpcs[other]? = some rpc ∨ (other = id ∧ rpc = now) := by
  rw [List.getElem?_set] at found
  split at found
  · rename_i same
    split at found
    · cases found
      exact .inr ⟨same.symm, rfl⟩
    · cases found
  · exact .inl found

/-- Steps of a handler move its phase and perhaps the channels of its server. -/
theorem Handlers.move (handlers : cluster.Handlers) {id : Nat} {phase : Phase} {kv : KVServer}
    (peers : next.peers = cluster.peers)
    (servers : next.servers = Function.update cluster.servers rpc.server kv)
    (agreed : next.agreed = cluster.agreed) (led : next.led = cluster.led)
    (rpcs : next.rpcs = cluster.rpcs.set id { rpc with phase })
    (wired : Wired kv (cluster.peers rpc.server).applied)
    (channels : ∀ other args old, Handled cluster.agreed cluster.led (cluster.peers rpc.server)
      (cluster.servers rpc.server) other args old →
      Handled cluster.agreed cluster.led (cluster.peers rpc.server) kv other args old)
    (moved : Handled cluster.agreed cluster.led (cluster.peers rpc.server) kv id rpc.args phase) :
    next.Handlers := by
  apply handlers.update rpc.server
  · simp [agreed]
  · simp [led]
  · intro other away
    simp [peers, servers, away]
  · rw [peers, led]
    exact handlers.led rpc.server
  · rw [peers, servers, Function.update_self]
    exact wired
  · intro other call same found _
    rw [agreed, led, peers, servers, Function.update_self]
    have before := handlers.handled other call found
    rw [same] at before
    exact channels other _ _ before
  · intro other call found
    rw [rpcs] at found
    rcases rpcs_set found with old | ⟨rfl, rfl⟩
    · exact .inl old
    · rw [agreed, led, peers, servers, Function.update_self]
      exact .inr moved

/-- Steps of a handler that touch no channel. -/
theorem Handlers.phase (handlers : cluster.Handlers) {id : Nat} {phase : Phase}
    (moved : Handled cluster.agreed cluster.led (cluster.peers rpc.server)
      (cluster.servers rpc.server) id rpc.args phase) :
    (cluster.setPhase id rpc phase).Handlers := by
  have servers : (cluster.setPhase id rpc phase).servers =
      Function.update cluster.servers rpc.server (cluster.servers rpc.server) :=
    (Function.update_eq_self _ _).symm
  exact handlers.move rfl servers rfl rfl rfl (handlers.wired rpc.server)
    (fun _ _ _ before => before) moved

/-- A new call awaits nothing. -/
theorem Handlers.call (handlers : cluster.Handlers) {args : Args} {phase : Phase}
    (silent : phase.awaits = none)
    (fresh : ∀ err value applied cleanup, phase ≠ .replied err value applied cleanup) :
    ({ cluster with rpcs := cluster.rpcs ++ [{ server, args, phase }] } :
      KVCluster n).Handlers := by
  refine { handlers with handled := ?_ }
  intro id rpc found
  rw [List.getElem?_append] at found
  split at found
  · exact handlers.handled id rpc found
  · have now := List.mem_singleton.mp (List.mem_of_getElem? found)
    subst now
    apply Handled.idle silent
    intro err value applied cleanup replied
    exact absurd replied (fresh err value applied cleanup)

theorem Handlers.raft (handlers : cluster.Handlers) {term : Nat} {leading : Bool} {log : List Entry}
    (allowed : cluster.raftAllows server term leading log = true) :
    ({ cluster.setPeer server { cluster.peers server with term, leading, log } with
      led := if leading then term :: cluster.led else cluster.led } : KVCluster n).Handlers := by
  have kept : cluster.led ⊆ if leading then term :: cluster.led else cluster.led := by
    cases leading <;> simp
  apply handlers.update server
  · exact List.prefix_rfl
  · exact kept
  · intro other away
    simp [setPeer, away]
  · intro leads
    simp only [setPeer, Function.update_self] at leads ⊢
    simp [leads]
  · simp only [setPeer, Function.update_self]
    exact handlers.wired server
  · intro id rpc same found _
    simp only [setPeer, Function.update_self]
    have before := handlers.handled id rpc found
    rw [same] at before
    refine before.mono List.prefix_rfl kept (Nat.le_refl _) ?_
    intro index awaited awaits leads now
    -- either the leadership goes on with its log, or nobody led in this term before
    simp only [raftAllows, Bool.and_eq_true, Bool.or_eq_true, Bool.not_eq_true', beq_iff_eq,
      List.contains_eq_mem, decide_eq_false_iff_not] at allowed
    dsimp only at leads now
    rcases allowed.2 with (stopped | ⟨⟨led, unchanged⟩, logs⟩) | unled
    · simp [leads] at stopped
    · rw [logs]
      exact before.own index awaited awaits led (unchanged ▸ now)
    · exact absurd (now ▸ (before.positive index awaited awaits).2) unled
  · intro id rpc found
    exact .inl found

theorem Handlers.start (handlers : cluster.Handlers) (agreement : cluster.Agreement) {id : Nat}
    {op : Op} (found : cluster.rpcs[id]? = some rpc) (asks : rpc.args.op = some op)
    (leading : (cluster.peers rpc.server).leading = true) {entry : Entry}
    (made : entry = { term := (cluster.peers rpc.server).term, op, rpc := id })
    (peers : next.peers = Function.update cluster.peers rpc.server
      { cluster.peers rpc.server with log := (cluster.peers rpc.server).log ++ [entry] })
    (servers : next.servers = cluster.servers) (agreed : next.agreed = cluster.agreed)
    (led : next.led = cluster.led)
    (rpcs : next.rpcs = cluster.rpcs.set id { rpc with
      phase := .started ((cluster.peers rpc.server).log.length + 1)
        (cluster.peers rpc.server).term }) : next.Handlers := by
  apply handlers.update rpc.server
  · simp [agreed]
  · simp [led]
  · intro other away
    simp [peers, servers, away]
  · simp only [peers, led, Function.update_self]
    exact handlers.led rpc.server
  · simp only [peers, servers, Function.update_self]
    exact handlers.wired rpc.server
  · intro other call same held _
    simp only [agreed, led, peers, servers, Function.update_self]
    have before := handlers.handled other call held
    rw [same] at before
    refine before.mono List.prefix_rfl (List.Subset.refl _) (Nat.le_refl _) ?_
    intro index term awaits leads now
    obtain ⟨own, present, mine⟩ := before.own index term awaits leads now
    exact ⟨own, getElem?_of_grown (List.prefix_append _ _) present, mine⟩
  · intro other call held
    rw [rpcs] at held
    rcases rpcs_set held with old | ⟨rfl, rfl⟩
    · exact .inl old
    · right
      simp only [agreed, led, peers, servers, Function.update_self]
      refine ⟨?_, ?_, ?_, ?_, ?_⟩
      · intro index term awaits
        cases awaits
        exact ⟨Nat.succ_pos _, handlers.led rpc.server leading⟩
      · intro index term awaits _ _
        cases awaits
        exact ⟨entry, by simp, by simp [made], by simp [made, asks]⟩
      · intro index term begun channel reply at_index buffered
        cases begun
        -- the server has not applied as far as the new index
        have filled := (handlers.wired rpc.server).filled _ _ _ at_index buffered
        have long := (agreement.follows rpc.server).log_long
        omega
      · intro index term channel waits
        cases waits
      · intro err value applied cleanup replied
        cases replied

theorem Handlers.register (handlers : cluster.Handlers) {id index term : Nat}
    (found : cluster.rpcs[id]? = some rpc) (begun : rpc.phase = .started index term) :
    ((cluster.setServer rpc.server
      ((cluster.servers rpc.server).getNotifyChannel index).1).setPhase id rpc
        (.waiting index term
          ((cluster.servers rpc.server).getNotifyChannel index).2)).Handlers := by
  have wired := handlers.wired rpc.server
  obtain ⟨opened, at_index⟩ := wired.openChannel index
  have before := (handlers.handled id rpc found).openChannel wired index
  rw [begun] at before
  refine handlers.move rfl rfl rfl rfl rfl opened
    (fun _ _ _ old => old.openChannel wired index) ⟨?_, ?_, ?_, ?_, ?_⟩
  · exact before.positive
  · exact before.own
  · intro place other now
    cases now
  · intro place other channel waits
    cases waits
    refine ⟨opened.made _ _ at_index, ?_, ?_⟩
    · intro place at_place
      exact opened.apart _ _ _ at_place at_index
    · intro reply buffered
      exact ⟨opened.filled _ _ _ at_index buffered,
        before.mapped index term rfl _ reply at_index buffered⟩
  · intro err value applied cleanup replied
    cases replied

theorem Handlers.receive (handlers : cluster.Handlers) {id index term channel : Nat}
    {result : OpReply} {value : String} (found : cluster.rpcs[id]? = some rpc)
    (waits : rpc.phase = .waiting index term channel)
    (buffered : (cluster.servers rpc.server).buffers channel = some result)
    (takes : ∀ args, rpc.args = .get args → value = result.value) :
    ((cluster.setServer rpc.server { cluster.servers rpc.server with
      buffers := Function.update (cluster.servers rpc.server).buffers channel none }).setPhase
        id rpc (.replied result.err value (cluster.peers rpc.server).applied
          (some index))).Handlers := by
  have emptied : ∀ other reply,
      Function.update (cluster.servers rpc.server).buffers channel none other = some reply →
      (cluster.servers rpc.server).buffers other = some reply := by
    intro other reply held
    by_cases same : other = channel
    · subst same
      simp at held
    · simpa [same] using held
  have before := handlers.handled id rpc found
  obtain ⟨-, -, answered⟩ := before.held index term channel waits
  obtain ⟨done, answers⟩ := answered result buffered
  have positive := (before.positive index term (by simp [waits, Phase.awaits])).1
  refine handlers.move rfl rfl rfl rfl rfl ?_ ?_ ?_
  · apply (handlers.wired rpc.server).drain
    · exact fun _ _ held => held
    · exact emptied
    · rfl
  · intro other args phase old
    apply old.drain
    · exact fun _ _ held => held
    · exact emptied
    · rfl
  · apply Handled.idle rfl
    intro err shown applied cleanup replied _ _
    cases replied
    exact answers.honest positive done takes

theorem Handlers.cleanup (handlers : cluster.Handlers) {id index applied : Nat} {err : Err}
    {value : String} (found : cluster.rpcs[id]? = some rpc)
    (replied : rpc.phase = .replied err value applied (some index)) :
    ((cluster.setServer rpc.server
      ((cluster.servers rpc.server).removeNotifyChannel index)).setPhase id rpc
        (.replied err value applied none)).Handlers := by
  have fewer : ∀ other channel,
      ((cluster.servers rpc.server).removeNotifyChannel index).notifyChans other =
        some channel → (cluster.servers rpc.server).notifyChans other = some channel := by
    intro other channel held
    by_cases same : other = index
    · subst same
      simp [KVServer.removeNotifyChannel] at held
    · simpa [KVServer.removeNotifyChannel, same] using held
  refine handlers.move rfl rfl rfl rfl rfl ?_ ?_ ?_
  · exact (handlers.wired rpc.server).drain fewer (fun _ _ held => held) rfl
  · intro other args phase old
    exact old.drain fewer (fun _ _ held => held) rfl
  · apply Handled.idle rfl
    intro shown text reached pending now
    cases now
    exact (handlers.handled id rpc found).honest _ _ _ _ replied

/-- What `applyTask` sends to the handlers at an index is their own result. -/
theorem Handlers.apply (handlers : cluster.Handlers) (agreement : cluster.Agreement)
    {snapshot : Bool} {entry : Entry} {agreed : List Entry} {kv : KVServer} {peer : RaftPeer}
    (guarded : cluster.notifiesInTerm (.apply server snapshot) = true)
    (found : (cluster.peers server).log[(cluster.peers server).applied]? = some entry)
    (agrees : settle cluster.agreed (cluster.peers server).applied entry = some agreed)
    (handled : (cluster.servers server).applyCommand ((cluster.peers server).applied + 1)
      entry.op (cluster.peers server).leading = some kv)
    (reached : peer.applied = (cluster.peers server).applied + 1)
    (sameLog : peer.log = (cluster.peers server).log)
    (sameTerm : peer.term = (cluster.peers server).term)
    (sameLeading : peer.leading = (cluster.peers server).leading) :
    ({ (cluster.setServer server kv).setPeer server peer with agreed } :
      KVCluster n).Handlers := by
  have follows := agreement.follows server
  obtain ⟨grown, present⟩ := settle_grown agrees follows.agreed_long
  have wired := handlers.wired server
  have later : (cluster.peers server).applied ≤ peer.applied := by omega
  -- the calls of this server, before its channels change
  have before : ∀ id rpc, rpc.server = server → cluster.rpcs[id]? = some rpc →
      Handled agreed cluster.led peer (cluster.servers server) id rpc.args rpc.phase := by
    intro id rpc same held
    have old := handlers.handled id rpc held
    rw [same] at old
    refine old.mono grown (List.Subset.refl _) later ?_
    rw [sameLog, sameTerm, sameLeading]
    exact old.own
  have bare : Wired { cluster.servers server with
      lastApplied := (cluster.peers server).applied + 1
      replica := ((cluster.servers server).replica.apply entry.op).1 } peer.applied :=
    wired.replica later
  have calls : Wired kv peer.applied ∧ ∀ id rpc, rpc.server = server →
      cluster.rpcs[id]? = some rpc →
      Handled agreed cluster.led peer kv id rpc.args rpc.phase := by
    rcases KVServer.applyCommand_cases (Nat.lt_succ_of_le follows.lastApplied) handled with
      ⟨-, rfl⟩ | ⟨leading, opened, channel, opening, -, rfl⟩
    · exact ⟨bare, fun id rpc same held => (before id rpc same held).replica⟩
    · obtain ⟨ready, at_index⟩ := bare.openChannel ((cluster.peers server).applied + 1)
      rw [opening] at ready at_index
      refine ⟨ready.fill at_index (Nat.le_of_eq reached.symm), ?_⟩
      intro id rpc same held
      have free := (before id rpc same held).replica.openChannel bare
        ((cluster.peers server).applied + 1)
      rw [opening] at free
      apply free.fill ready at_index (Nat.le_of_eq reached.symm)
      intro term awaits
      have now := term_of_notifiesInTerm guarded leading held same awaits
      have old := handlers.handled id rpc held
      rw [same] at old
      obtain ⟨own, placed, mine⟩ := old.own _ _ awaits leading now
      simp only [Nat.add_sub_cancel, found, Option.some.injEq] at placed
      subst placed
      refine ⟨entry, present, mine, ?_⟩
      simp only [Nat.add_sub_cancel]
      rw [follows.replica, stateAt_of_grown grown follows.agreed_long]
  apply handlers.update server
  · exact grown
  · exact List.Subset.refl _
  · intro other away
    simp [setPeer, setServer, away]
  · simp only [setPeer, Function.update_self, sameLeading, sameTerm]
    exact handlers.led server
  · simp only [setPeer, setServer, Function.update_self]
    exact calls.1
  · intro id rpc same held _
    simp only [setPeer, setServer, Function.update_self]
    exact calls.2 id rpc same held
  · intro id rpc held
    exact .inl held

theorem Handlers.install (handlers : cluster.Handlers) {image : Image}
    (ahead : (cluster.peers server).applied < image.index) :
    ((cluster.setServer server ((cluster.servers server).applySnapshot image)).setPeer server
      { cluster.peers server with
        applied := image.index, snapshot := some image }).Handlers := by
  apply handlers.update server
  · exact List.prefix_rfl
  · exact List.Subset.refl _
  · intro other away
    simp [setPeer, setServer, away]
  · simp only [setPeer, setServer, Function.update_self]
    exact handlers.led server
  · simp only [setPeer, setServer, Function.update_self]
    exact (handlers.wired server).replica (Nat.le_of_lt ahead)
  · intro id rpc same held _
    simp only [setPeer, setServer, Function.update_self]
    have old := handlers.handled id rpc held
    rw [same] at old
    apply Handled.replica
    apply old.mono List.prefix_rfl (List.Subset.refl _) (Nat.le_of_lt ahead)
    exact old.own
  · intro id rpc held
    exact .inl held

/-- The handlers of a process that stops are gone, but not what they have sent. -/
theorem restart_rpcs {id : Nat} (found : (cluster.restart server).rpcs[id]? = some rpc) :
    ∃ old, cluster.rpcs[id]? = some old ∧ ((rpc.server ≠ server ∧ rpc = old) ∨
      (rpc.server = server ∧ rpc.args = old.args ∧ (rpc.phase = .dead ∨
        ∃ err value applied cleanup, old.phase = .replied err value applied cleanup ∧
          rpc.phase = .replied err value applied none))) := by
  simp only [KVCluster.restart, List.getElem?_map, Option.map_eq_some_iff] at found
  obtain ⟨old, held, rfl⟩ := found
  refine ⟨old, held, ?_⟩
  by_cases here : old.server = server
  · right
    simp only [if_pos here]
    cases phase : old.phase <;> simp [here]
  · exact .inl (by simp [here])

theorem Handlers.restart (handlers : cluster.Handlers) (server : Fin n) :
    (cluster.restart server).Handlers := by
  have stopped : ∀ id rpc, (cluster.restart server).rpcs[id]? = some rpc →
      rpc.server = server → Handled cluster.agreed cluster.led
        ((cluster.restart server).peers server) ((cluster.restart server).servers server) id
        rpc.args rpc.phase := by
    intro id rpc found here
    obtain ⟨old, held, ⟨away, -⟩ | ⟨-, args, dead | ⟨err, value, applied, cleanup, was, now⟩⟩⟩ :=
      restart_rpcs found
    · exact absurd here away
    · rw [dead]
      apply Handled.idle rfl
      intro err value applied cleanup replied
      cases replied
    · rw [now, args]
      apply Handled.idle rfl
      intro err' value' applied' cleanup' replied
      cases replied
      exact (handlers.handled id old held).honest err value applied cleanup was
  apply handlers.update server
  · exact List.prefix_rfl
  · exact List.Subset.refl _
  · intro other away
    simp [KVCluster.restart, setPeer, setServer, away]
  · simp [KVCluster.restart, setPeer]
  · simp only [KVCluster.restart, setPeer, setServer, Function.update_self]
    constructor <;> simp [KVServer.start]
  · intro id rpc same _ found
    exact stopped id rpc found same
  · intro id rpc found
    by_cases same : rpc.server = server
    · right
      rw [same]
      exact stopped id rpc found same
    · obtain ⟨old, held, ⟨-, rfl⟩ | ⟨here, -⟩⟩ := restart_rpcs found
      · exact .inl held
      · exact absurd here same

theorem Handlers.step (handlers : cluster.Handlers) (agreement : cluster.Agreement)
    (clients : cluster.Clients) (guarded : cluster.notifiesInTerm event = true)
    (stepped : cluster.Step event next) : next.Handlers := by
  cases stepped with
  | raft server term leading log allowed => exact handlers.raft allowed
  | write => exact ⟨handlers.led, handlers.wired, handlers.handled⟩
  | acknowledged => exact ⟨handlers.led, handlers.wired, handlers.handled⟩
  | send => exact handlers.call rfl (by simp)
  | read => exact handlers.call rfl (by simp)
  | duplicate id rpc args found asks duplicated =>
      apply handlers.phase
      apply Handled.idle rfl
      intro err value applied cleanup replied _ _
      cases replied
      rw [(agreement.follows rpc.server).replica] at duplicated
      rw [asks]
      exact clients.writes_of_duplicated duplicated
  | checked id rpc found =>
      apply handlers.phase
      apply Handled.idle rfl
      simp
  | refused id rpc found =>
      apply handlers.phase
      apply Handled.idle rfl
      intro err value applied cleanup replied led
      cases replied
      exact absurd rfl led
  | timedOut id rpc index found =>
      apply handlers.phase
      apply Handled.idle rfl
      intro err value applied cleanup replied _ intime
      cases replied
      exact absurd rfl intime
  | started id rpc op found asks phase leading =>
      exact handlers.start agreement found asks leading rfl rfl rfl rfl rfl rfl
  | registered id rpc index term found phase => exact handlers.register found phase
  | received id rpc index term channel result value found phase buffered takes =>
      exact handlers.receive found phase buffered takes
  | cleaned id rpc err value applied index found phase => exact handlers.cleanup found phase
  | applied server snapshot entry agreed kv found agrees handled =>
      exact handlers.apply agreement guarded found agrees handled rfl rfl rfl rfl
  | installed server source image held ahead within agrees => exact handlers.install ahead
  | restarted server => exact handlers.restart server

theorem handlers_initial : (KVCluster.initial n).Handlers := by
  constructor
  · simp [initial]
  · intro server
    constructor <;> simp [initial, KVServer.start]
  · simp [initial]

/-- What holds of a cluster whose servers answer in the term of the call. -/
structure Consistent (cluster : KVCluster n) : Prop where
  agreement : cluster.Agreement
  clients : cluster.Clients
  handlers : cluster.Handlers

theorem Consistent.step (consistent : cluster.Consistent)
    (guarded : cluster.notifiesInTerm event = true) (stepped : cluster.step event = some next) :
    next.Consistent := by
  have cases := step_cases stepped
  refine ⟨consistent.agreement.step cases, ?_,
    consistent.handlers.step consistent.agreement consistent.clients guarded cases⟩
  apply consistent.clients.step consistent.agreement cases
  intro id rpc args err value applied cleanup found asks replied led intime
  have honest := (consistent.handlers.handled id rpc found).honest _ _ _ _ replied led intime
  rw [asks] at honest
  exact honest

theorem consistent_of_reachable
    (reached : (kvSystem n).Reachable (fun state event => state.notifiesInTerm event = true)
      cluster) : cluster.Consistent := by
  have start : ∀ state : KVCluster n, (kvSystem n).init state → state.Consistent := by
    rintro _ rfl
    exact ⟨agreement_initial, clients_initial, handlers_initial⟩
  apply reached.preserves start
  intro state event next consistent guarded stepped
  exact consistent.step guarded stepped

end KVCluster

/-- If no result is sent to a handler that called `Start` in another term, then a
`PutAppend` that replies OK is agreed no later than where its server stands, and the
reply of a `Get` is read at the position of the command that the call itself made. -/
theorem reply_answers_own_operation {n : Nat} {cluster : KVCluster n}
    (reached : (kvSystem n).Reachable (fun state event => state.notifiesInTerm event = true)
      cluster)
    {id applied : Nat} {rpc : Rpc n} {err : Err} {value : String} {cleanup : Option Nat}
    (found : cluster.rpcs[id]? = some rpc)
    (replied : rpc.phase = .replied err value applied cleanup) :
    (∀ args, rpc.args = .putAppend args → err = .ok →
      ∃ position < applied, ∃ entry, cluster.agreed[position]? = some entry ∧
        entry.op.opType ≠ .get ∧ entry.op.clientId = args.clientId ∧
        entry.op.seqId = args.seqId) ∧
    (∀ args, rpc.args = .get args → err = .ok ∨ err = .errNoKey →
      ∃ position < applied, ∃ entry, cluster.agreed[position]? = some entry ∧
        entry.op = { key := args.key, opType := .get } ∧ entry.rpc = id ∧
        (value, err) = (Replica.replay ((cluster.agreed.take position).map
          Entry.op)).stateMachine.get args.key) := by
  have handled := (KVCluster.consistent_of_reachable reached).handlers.handled id rpc found
  have honest := handled.honest err value applied cleanup replied
  constructor
  · intro args asks succeeded
    rw [asks, succeeded] at honest
    exact honest (by simp) (by simp)
  · intro args asks answered
    rw [asks] at honest
    apply honest
    · rcases answered with rfl | rfl <;> simp
    · rcases answered with rfl | rfl <;> simp

/-- A write and a read by way of a leader that stays. -/
def servedEvents : List (KVEvent 3) :=
  let op : Op := { key := "x", value := "1", opType := .put, clientId := 7, seqId := 0 }
  [.raft 0 1 true [], .write 7 "x" "1" "Put", .send 7 0, .check 0, .start 0, .register 0,
   .raft 1 1 false [{ term := 1, op, rpc := 0 }], .apply 0 false, .receive 0, .acknowledge 0,
   .read 0 "x", .start 1, .register 1, .apply 0 false, .receive 1]

def servedCluster : KVCluster 3 :=
  (kvSystem 3).after KVCluster.notifiesInTerm (.initial 3) servedEvents

theorem reply_answers_own_operation_served :
    (∃ position < 1, ∃ entry, servedCluster.agreed[position]? = some entry ∧
      entry.op.opType ≠ .get ∧ entry.op.clientId = 7 ∧ entry.op.seqId = 0) ∧
    (∃ position < 2, ∃ entry, servedCluster.agreed[position]? = some entry ∧
      entry.op = { key := "x", opType := .get } ∧ entry.rpc = 1 ∧
      ("1", Err.ok) = (Replica.replay ((servedCluster.agreed.take position).map
        Entry.op)).stateMachine.get "x") := by
  have reached : (kvSystem 3).Reachable
      (fun state event => state.notifiesInTerm event = true) servedCluster :=
    ⟨.initial 3, rfl, System.run_after KVCluster.notifiesInTerm _ _⟩
  have put : servedCluster.rpcs[0]? = some ⟨0, .putAppend ⟨"x", "1", "Put", 7, 0⟩,
      .replied .ok "" 1 (some 1)⟩ := rfl
  have get : servedCluster.rpcs[1]? = some ⟨0, .get ⟨"x"⟩, .replied .ok "1" 2 (some 2)⟩ := rfl
  constructor
  · exact (reply_answers_own_operation reached put rfl).1 _ rfl rfl
  · exact (reply_answers_own_operation reached get rfl).2 _ rfl (.inl rfl)

/-- Server 0 loses its lead and the entry of client 7, and leads again before it
applies the entry of client 8 that took its place. -/
def regainedCluster : KVCluster 3 :=
  let kept : Op := { key := "y", value := "2", opType := .put, clientId := 8, seqId := 0 }
  let last : Op := { key := "z", opType := .get }
  let log : List Entry :=
    [{ term := 2, op := kept, rpc := 1 }, { term := 3, op := last, rpc := 2 }]
  (kvSystem 3).after (fun _ _ => true) (.initial 3)
    [.raft 0 1 true [], .write 7 "x" "1" "Put", .send 7 0, .check 0, .start 0, .register 0,
     .raft 1 2 true [], .write 8 "y" "2" "Put", .send 8 1, .check 1, .start 1, .register 1,
     .raft 0 2 false (log.take 1), .raft 2 2 false (log.take 1), .raft 0 3 true (log.take 1),
     .read 0 "z", .start 2, .raft 2 3 false log, .apply 0 false, .receive 0]

/-- Client 7 gets an OK, and no command of client 7 was ever agreed. -/
theorem regained_leader_answers_lost_write :
    (kvSystem 3).Reachable System.anyStep regainedCluster ∧
    regainedCluster.rpcs[0]? = some ⟨0, .putAppend ⟨"x", "1", "Put", 7, 0⟩,
      .replied .ok "" 1 (some 1)⟩ ∧
    (regainedCluster.agreed.map fun entry => (entry.op.clientId, entry.op.seqId)) =
      [(8, 0)] := by
  refine ⟨⟨.initial 3, rfl, ?_⟩, rfl, rfl⟩
  exact (System.run_after (fun _ _ => true) _ _).mono fun _ _ _ => trivial

end MultiRaft.KVRaft
