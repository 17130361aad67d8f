import MultiRaft.KVRaft.Deployment
import MultiRaft.KVRaft.Linearizability

/-!
# The labrpc Raft does what the kvraft cluster assumes

Every step of a deployment is a step of the cluster over an assumed Raft: a step inside Raft
becomes a change of one server that `raftAllows` permits, a delivery becomes the next entry of
the agreed sequence.  What holds of the cluster therefore holds of the deployment.
-/

namespace MultiRaft.KVRaft

open Porcupine (LinearizableStore)

variable {n : Nat} {deployment next : Deployment n} {history new : History n Proposal}
  {agreed : List (LogEntry Proposal)} {placed : List (Nat × Entry)} {led : List Nat}

/-- The history of the assumed Raft fits that of the servers. -/
structure Deployed (deployment : Deployment n) (history : History n Proposal)
    (agreed : List (LogEntry Proposal)) (placed : List (Nat × Entry)) (led : List Nat) :
    Prop where
  replicates : deployment.raft.Replicates history agreed
  placed : deployment.raft.Placed placed
  led : ∀ term ∈ led, history.Elected term

/-- What `raftAllows` asks of a server that changes. -/
theorem raftAllows_of_replicates {raft : Cluster n Proposal}
    (replicates : raft.Replicates new agreed) (all : raft.Placed placed) (led : List Nat)
    (server : Fin n)
    (term : (deployment.raft.servers server).currentTerm ≤ (raft.servers server).currentTerm)
    (applyCh : (raft.servers server).applyCh = (deployment.raft.servers server).applyCh)
    (leads : (raft.servers server).role = .leader →
      ((deployment.raft.servers server).role = .leader ∧
        (raft.servers server).currentTerm = (deployment.raft.servers server).currentTerm ∧
        (raft.servers server).log = (deployment.raft.servers server).log) ∨
      (raft.servers server).currentTerm ∉ led) :
    (deployment.view (agreed.map ofLogEntry) placed led).raftAllows server
      (raft.servers server).currentTerm ((raft.servers server).role = .leader)
      ((raft.servers server).log.entries.map ofLogEntry) = true := by
  obtain ⟨long, same⟩ := replicates.agreed.applied replicates.refines replicates.uncompacted server
  rw [applyCh] at long same
  simp only [KVCluster.raftAllows, Deployment.view, Deployment.peer, peerOf, Bool.and_eq_true,
    decide_eq_true_eq, beq_iff_eq, List.all_eq_true, Bool.or_eq_true, List.length_map]
  refine ⟨⟨⟨⟨decide_eq_true term, long⟩, ?_⟩, ?_⟩, ?_⟩
  · rw [← List.map_take, ← List.map_take, same]
  · rintro ⟨entry, position⟩ member
    rw [List.mem_zipIdx_iff_getElem?, List.getElem?_map] at member
    obtain ⟨logEntry, found, rfl⟩ := Option.map_eq_some_iff.mp member
    exact List.contains_iff_mem.mpr (all.logs server position logEntry found).2.2
  · by_cases leader : (raft.servers server).role = .leader
    · rcases leads leader with ⟨was, sameTerm, log⟩ | fresh
      · exact .inl (.inr (by simp [was, sameTerm, log]))
      · exact .inr (by simpa using fresh)
    · exact .inl (.inl (by simp [leader]))

variable {event : Event n Proposal}

/-- A term that had a leader gets no other, and a leader does not begin again. -/
theorem Deployed.leads (deployed : Deployed deployment history agreed placed led)
    {raft : Cluster n Proposal} (stepped : deployment.raft.Step event raft)
    (refined : raft.Refines True new) (extended : history.Extends new)
    (passive : ∀ server command, event ≠ .start server command) (allowed : event.uncompacted = true)
    {server : Fin n} (leads : (raft.servers server).role = .leader) :
    ((deployment.raft.servers server).role = .leader ∧
        (raft.servers server).currentTerm = (deployment.raft.servers server).currentTerm ∧
        (raft.servers server).log = (deployment.raft.servers server).log) ∨
      (raft.servers server).currentTerm ∉ led := by
  have voting := deployed.replicates.refines.voting
  rcases stepped.mover with same | ⟨mover, call, moves⟩ | ⟨mover, -, rfl⟩
  · rw [same] at leads ⊢
    exact .inl ⟨leads, rfl, rfl⟩
  · by_cases here : server = mover
    · subst here
      rcases (Raft.electionStep_handle (voting.selfVoted server) moves.handled).leads leads with
        ⟨was, sameTerm⟩ | ⟨term, votes, reply, rfl, isCandidate, sameTerm, nowTerm, -⟩
      · refine .inl ⟨was, sameTerm, ?_⟩
        have asks := moves.asks
        cases (Raft.proceeds_handle moves.handled).log with
        | kept log => exact log
        | append => exact absurd asks (passive server _)
        | adopt _ role => cases leads.symm.trans role
        | install _ role => cases leads.symm.trans role
        | compact =>
            obtain rfl : event = _ := asks
            cases allowed
      · -- the term was led by nobody else, since this server leads it now
        refine .inr fun known => ?_
        obtain ⟨leader, ledBefore⟩ := deployed.led _ known
        have now := refined.voting.tracks.leading server leads
        have unique := refined.sound.matching.lawful.unique _ _ _ now
          (extended.ballots.led_kept _ _ ledBefore)
        subst unique
        refine ((deployed.replicates.refines.servers server).candidate isCandidate).2 ?_
        rwa [sameTerm, ← nowTerm]
    · rw [moves.others server here] at leads ⊢
      exact .inl ⟨leads, rfl, rfl⟩
  · by_cases here : server = mover
    · subst here
      rw [Cluster.restart, Cluster.setServer_servers_self, Raft.make_role] at leads
      cases leads
    · rw [Cluster.restart, Cluster.setServer_servers_of_ne _ _ here] at leads ⊢
      exact .inl ⟨leads, rfl, rfl⟩

/-- Some server changes at most. -/
theorem exists_mover {raft next : Cluster n Proposal} (stepped : raft.step event = some next) :
    ∃ server, ∀ other, other ≠ server → next.servers other = raft.servers other := by
  rcases (Cluster.step_cases stepped).mover with same | ⟨mover, call, moves⟩ | ⟨mover, -, rfl⟩
  · have inhabited : Nonempty (Fin n) := by
      cases event with
      | electionTimeout server => exact ⟨server⟩
      | startElection index =>
          obtain ⟨pending, -, -⟩ := Option.bind_eq_some_iff.mp stepped
          exact ⟨pending.candidate⟩
      | deliver index =>
          obtain ⟨packet, -, -⟩ := Option.bind_eq_some_iff.mp stepped
          exact ⟨packet.caller⟩
      | startReplication server => exact ⟨server⟩
      | start server => exact ⟨server⟩
      | snapshot server => exact ⟨server⟩
      | collect server => exact ⟨server⟩
      | send server => exact ⟨server⟩
      | finish server => exact ⟨server⟩
      | restart server => exact ⟨server⟩
    obtain ⟨server⟩ := inhabited
    exact ⟨server, fun other _ => congrFun same other⟩
  · exact ⟨mover, moves.others⟩
  · exact ⟨mover, fun other different => Cluster.setServer_servers_of_ne raft _ different⟩

/-- Raft by itself neither starts commands nor delivers them. -/
theorem network_cases (stepped : deployment.network event = some next) :
    ∃ raft, deployment.raft.step event = some raft ∧ next = { deployment with raft } ∧
      event.uncompacted = true ∧ (∀ server command, event ≠ .start server command) ∧
      (∀ server, event ≠ .send server) ∧ ∀ server, event ≠ .restart server := by
  unfold Deployment.network at stepped
  split at stepped
  · cases stepped
  · cases stepped
  · cases stepped
  · cases stepped
  · rename_i notStart notSnapshot notSend notRestart
    obtain ⟨raft, moved, rfl⟩ := Option.map_eq_some_iff.mp stepped
    refine ⟨raft, moved, rfl, ?_, notStart, notSend, notRestart⟩
    cases event with
    | snapshot => exact absurd rfl (notSnapshot _ _ _)
    | _ => rfl

theorem applyCh_of_step {raft next : Cluster n Proposal} (stepped : raft.Step event next)
    (silent : ∀ server, event ≠ .send server) (alive : ∀ server, event ≠ .restart server)
    (server : Fin n) :
    (next.servers server).applyCh = (raft.servers server).applyCh := by
  rcases stepped.mover with same | ⟨mover, call, moves⟩ | ⟨mover, isRestart, -⟩
  · rw [same]
  · by_cases here : server = mover
    · subst here
      refine Raft.applyCh_of_handle moves.handled ?_
      rintro rfl
      exact silent server moves.asks
    · rw [moves.others server here]
  · exact absurd isRestart (alive mover)

/-- A step inside Raft is a change that the assumed Raft may make. -/
theorem Deployed.network (deployed : Deployed deployment history agreed placed led)
    (steady : deployment.raft.steady event = true)
    (stepped : deployment.network event = some next) :
    ∃ server term leading log new led',
      (deployment.view (agreed.map ofLogEntry) placed led).step (.raft server term leading log) =
        some (next.view (agreed.map ofLogEntry) placed led') ∧
      Deployed next new agreed placed led' := by
  obtain ⟨raft, moved, rfl, allowed, passive, silent, alive⟩ := network_cases stepped
  have taken := Cluster.step_cases moved
  obtain ⟨refines, uncompacted, -⟩ := deployed.replicates
  obtain ⟨new, replicates, extended⟩ := deployed.replicates.silent steady taken silent
  have all := deployed.placed.step refines uncompacted taken allowed passive
  obtain ⟨server, others⟩ := exists_mover moved
  have applyCh := applyCh_of_step taken silent alive server
  have permits := raftAllows_of_replicates replicates all led server
    (refines.voting.evolves taken server).term_le applyCh
    (deployed.leads taken replicates.refines extended passive allowed)
  refine ⟨server, _, _, _, new,
    if decide ((raft.servers server).role = .leader) = true
      then (raft.servers server).currentTerm :: led else led,
    (if_pos permits).trans (congrArg some ?_), replicates, all, ?_⟩
  · have peer : { deployment.peer server with
        term := (raft.servers server).currentTerm
        leading := (raft.servers server).role = .leader
        log := (raft.servers server).log.entries.map ofLogEntry } = peerOf (raft.servers server) := by
      simp only [Deployment.peer, peerOf, applyCh]
    have peers := deployment.update_peer { deployment with raft } server others
    exact congrArg (fun peers => KVCluster.mk peers _ _ _ _ _ _)
      ((congrArg (Function.update deployment.peer server) peer).trans peers)
  · intro term known
    split at known
    · rename_i leads
      rcases List.mem_cons.mp known with rfl | old
      · have isLeader : (raft.servers server).role = .leader := of_decide_eq_true leads
        exact ⟨server, replicates.refines.voting.tracks.leading server isLeader⟩
      · exact (deployed.led term old).mono extended.ballots
    · exact (deployed.led term known).mono extended.ballots

/-- A step that does not reach Raft. -/
def KVEvent.apart : KVEvent n → Bool
  | .raft .. | .start _ | .apply .. | .install .. | .restart _ => false
  | _ => true

/-- The cluster with another history of the assumed Raft. -/
def KVCluster.withHistory (cluster : KVCluster n) (agreed : List Entry)
    (placed : List (Nat × Entry)) (led : List Nat) : KVCluster n :=
  { cluster with agreed, placed, led }

/-- Such a step neither reads nor changes what Raft is. -/
theorem step_withHistory (cluster : KVCluster n) {event : KVEvent n} (apart : event.apart = true)
    (agreed : List Entry) (placed : List (Nat × Entry)) (led : List Nat) :
    (cluster.withHistory agreed placed led).step event =
      (cluster.step event).map fun next => next.withHistory agreed placed led := by
  cases event with
  | raft | start | apply | install | restart => cases apart
  | write clientId key value op =>
      simp only [KVCluster.step, KVCluster.write, KVCluster.withHistory]
      cases (cluster.clerks clientId).pending <;> rfl
  | send clientId server =>
      simp only [KVCluster.step, KVCluster.send, KVCluster.withHistory]
      cases (cluster.clerks clientId).pending <;> rfl
  | read server key => rfl
  | check id =>
      simp only [KVCluster.step, KVCluster.check, KVCluster.withHistory]
      cases cluster.rpcs[id]? with
      | none => rfl
      | some rpc =>
          obtain ⟨server, args, phase⟩ := rpc
          cases args with
          | get args => cases phase <;> rfl
          | putAppend args =>
              cases phase with
              | requested =>
                  cases duplicated :
                    (cluster.servers server).replica.requestDuplicated args.clientId args.seqId
                  · simp [duplicated, KVCluster.setPhase]
                  · simp [duplicated, KVCluster.setPhase]
              | _ => rfl
  | register id =>
      simp only [KVCluster.step, KVCluster.register, KVCluster.withHistory]
      cases cluster.rpcs[id]? with
      | none => rfl
      | some rpc =>
          obtain ⟨server, args, phase⟩ := rpc
          cases phase <;> rfl
  | receive id =>
      simp only [KVCluster.step, KVCluster.receive, KVCluster.withHistory]
      cases cluster.rpcs[id]? with
      | none => rfl
      | some rpc =>
          obtain ⟨server, args, phase⟩ := rpc
          cases phase with
          | waiting index term channel =>
              simp only [Option.bind_eq_bind, Option.bind_some]
              cases (cluster.servers server).buffers channel <;> rfl
          | _ => rfl
  | timeout id =>
      simp only [KVCluster.step, KVCluster.timeout, KVCluster.withHistory]
      cases cluster.rpcs[id]? with
      | none => rfl
      | some rpc =>
          obtain ⟨server, args, phase⟩ := rpc
          cases phase <;> rfl
  | cleanup id =>
      simp only [KVCluster.step, KVCluster.cleanup, KVCluster.withHistory]
      cases cluster.rpcs[id]? with
      | none => rfl
      | some rpc =>
          obtain ⟨server, args, phase⟩ := rpc
          cases phase with
          | replied err value applied cleanup => cases cleanup <;> rfl
          | _ => rfl
  | acknowledge id =>
      simp only [KVCluster.step, KVCluster.acknowledge, KVCluster.withHistory]
      cases cluster.rpcs[id]? with
      | none => rfl
      | some rpc =>
          obtain ⟨server, args, phase⟩ := rpc
          cases args with
          | get args => cases phase <;> rfl
          | putAppend args =>
              cases phase with
              | replied err value applied cleanup =>
                  by_cases ends : (cluster.clerks args.clientId).pending = some args ∧
                    err ≠ .errWrongLeader ∧ err ≠ .errTimeout
                  · simp [ends, KVCluster.setClerk]
                  · simp [ends]
              | _ => rfl

theorem peers_of_apart {cluster next : KVCluster n} {event : KVEvent n}
    (apart : event.apart = true) (stepped : cluster.step event = some next) :
    next.peers = cluster.peers := by
  cases KVCluster.step_cases stepped with
  | raft | started | refused | applied | installed | restarted => cases apart
  | _ => rfl

/-- Clerks and handlers go on as they do over the assumed Raft. -/
theorem handle_view {event : KVEvent n} (apart : event.apart = true)
    (stepped : deployment.handle event = some next) (agreed : List Entry)
    (placed : List (Nat × Entry)) (led : List Nat) :
    (deployment.view agreed placed led).step event = some (next.view agreed placed led) := by
  obtain ⟨cluster, moved, rfl⟩ := Option.map_eq_some_iff.mp stepped
  have same := step_withHistory (deployment.view [] [] []) apart agreed placed led
  rw [moved, Option.map_some] at same
  have peers := peers_of_apart apart moved
  refine same.trans (congrArg some ?_)
  exact congrArg (fun peers => KVCluster.mk peers _ _ _ _ _ _) peers

theorem raft_of_handle {event : KVEvent n} (stepped : deployment.handle event = some next) :
    next.raft = deployment.raft := by
  obtain ⟨cluster, -, rfl⟩ := Option.map_eq_some_iff.mp stepped
  rfl

/-- `Start` at a leader puts the command at the end of the log. -/
theorem start_of_leader {rf : Raft n Proposal} {log snap : List (LogEntry Proposal)}
    (represents : rf.log.Represents log snap) (uncompacted : rf.log.snapLastIdx = 0)
    (leads : rf.role = .leader) (proposal : Proposal) :
    ∃ next, rf.start (some proposal) =
        (next, rf.log.entries.length + 1, rf.currentTerm, true) ∧
      next.log.entries = rf.log.entries ++
        [{ term := rf.currentTerm, commandValid := true, command := some proposal }] ∧
      next.currentTerm = rf.currentTerm ∧ next.role = rf.role ∧ next.applyCh = rf.applyCh := by
  have size := represents.size
  have log := (represents.append { term := rf.currentTerm, commandValid := true
                                   command := some proposal }).entries uncompacted
  rw [← represents.entries uncompacted] at log size
  refine ⟨.persistLocked { rf with
    log := rf.log.append { term := rf.currentTerm, commandValid := true, command := some proposal } },
    ?_, log, rfl, rfl, rfl⟩
  simp [Raft.start, leads, RaftLog.size_append, Raft.persistLocked, size]

theorem start_leading {cluster : KVCluster n} {id : Nat} {rpc : Rpc n} {op : Op}
    (found : cluster.rpcs[id]? = some rpc) (asks : rpc.args.op = some op)
    (phase : rpc.phase = .checked) (leads : (cluster.peers rpc.server).leading = true) :
    cluster.step (.start id) = some { cluster with
      peers := Function.update cluster.peers rpc.server
        { cluster.peers rpc.server with
          log := (cluster.peers rpc.server).log ++
            [{ term := (cluster.peers rpc.server).term, op, rpc := id }] }
      rpcs := cluster.rpcs.set id { rpc with
        phase := .started ((cluster.peers rpc.server).log.length + 1)
          (cluster.peers rpc.server).term }
      placed := cluster.placed ++ [((cluster.peers rpc.server).log.length,
        { term := (cluster.peers rpc.server).term, op, rpc := id })] } := by
  simp [KVCluster.step, KVCluster.start, found, asks, phase, leads, KVCluster.setPeer,
    KVCluster.setPhase]

/-- Every entry of the log after `Start` was put there by some `Start`. -/
theorem Deployed.placed_start (deployed : Deployed deployment history agreed placed led)
    {server : Fin n} {rf : Raft n Proposal} {proposal : Proposal}
    (log : rf.log.entries = (deployment.raft.servers server).log.entries ++
      [{ term := (deployment.raft.servers server).currentTerm, commandValid := true
         command := some proposal }]) :
    (deployment.raft.setServer server rf).Placed
      (placed ++ [((deployment.raft.servers server).log.entries.length,
        { term := (deployment.raft.servers server).currentTerm, op := proposal.op
          rpc := proposal.rpc })]) := by
  have kept := deployed.placed.mono (List.subset_append_left placed
    [((deployment.raft.servers server).log.entries.length,
      { term := (deployment.raft.servers server).currentTerm, op := proposal.op
        rpc := proposal.rpc })])
  refine ⟨?_, kept.packets⟩
  intro other position entry found
  by_cases here : other = server
  · subst here
    rw [Cluster.setServer_servers_self, log] at found
    rcases getElem?_concat found with old | ⟨rfl, rfl⟩
    · exact kept.logs other position entry old
    · exact ⟨rfl, rfl, List.mem_append_right _ (List.mem_singleton_self _)⟩
  · rw [Cluster.setServer_servers_of_ne _ _ here] at found
    exact kept.logs other position entry found

theorem Deployed.start (deployed : Deployed deployment history agreed placed led) {id : Nat}
    (stepped : deployment.start id = some next) :
    ∃ new placed', (deployment.view (agreed.map ofLogEntry) placed led).step (.start id) =
        some (next.view (agreed.map ofLogEntry) placed' led) ∧
      Deployed next new agreed placed' led := by
  obtain ⟨rpc, found, rest⟩ := Option.bind_eq_some_iff.mp stepped
  obtain ⟨op, asks, rest⟩ := Option.bind_eq_some_iff.mp rest
  dsimp only at rest
  split at rest
  · cases rest
  rename_i checked
  have phase : rpc.phase = .checked := not_not.mp checked
  by_cases leads : (deployment.raft.servers rpc.server).role = .leader
  · have represents := (deployed.replicates.refines.servers rpc.server).log
    have whole := (deployed.replicates.uncompacted.servers rpc.server).snapLastIdx
    obtain ⟨rf, started, log, term, role, applyCh⟩ :=
      start_of_leader represents whole leads { op, rpc := id }
    have taken : deployment.raft.Step (.start rpc.server (some { op, rpc := id })) _ := .start _ _
    rw [started] at rest taken
    cases rest
    obtain ⟨new, replicates, extended⟩ :=
      deployed.replicates.silent rfl taken (fun _ isSend => by cases isSend)
    refine ⟨new, _, ?_, replicates, deployed.placed_start log, fun term known =>
      (deployed.led term known).mono extended.ballots⟩
    have peer : peerOf rf = { deployment.peer rpc.server with
        log := (deployment.peer rpc.server).log ++
          [{ term := (deployment.peer rpc.server).term, op, rpc := id }] } := by
      simp only [peerOf, Deployment.peer, log, term, role, applyCh, List.map_append,
        List.map_singleton, ofLogEntry]
    have peers := deployment.update_peer
      { deployment with raft := deployment.raft.setServer rpc.server rf } rpc.server
      fun other different => Cluster.setServer_servers_of_ne _ _ different
    rw [Cluster.setServer_servers_self, peer] at peers
    have leading : (deployment.peer rpc.server).leading = true := decide_eq_true leads
    have length : (deployment.peer rpc.server).log.length =
        (deployment.raft.servers rpc.server).log.entries.length := List.length_map _
    refine (start_leading found asks phase leading).trans (congrArg some ?_)
    simp only [Deployment.view, length, peers]
    rfl
  · have same : (deployment.raft.servers rpc.server).start (some { op, rpc := id }) =
        (deployment.raft.servers rpc.server, 0, 0, false) := by
      simp [Raft.start, leads]
    have kept : deployment.raft.setServer rpc.server (deployment.raft.servers rpc.server) =
        deployment.raft := by
      rw [Cluster.setServer, Function.update_eq_self]
    rw [same, kept] at rest
    cases rest
    refine ⟨history, placed, ?_, deployed.replicates, deployed.placed, deployed.led⟩
    simp [KVCluster.step, KVCluster.start, Deployment.view, found, asks, phase, Deployment.peer,
      peerOf, leads, KVCluster.setPhase]
    rfl

theorem peerOf_send {rf rf' : Raft n Proposal} {msg : ApplyMsg Proposal}
    (sent : rf.send = some (rf', msg)) :
    peerOf rf' = { peerOf rf with applied := (peerOf rf).applied + 1 } := by
  rcases Raft.send_cases sent with ⟨_, _, _, _, _, _, rfl⟩ | ⟨_, _, rfl⟩
  · simp [peerOf]
  · simp [peerOf]

theorem settle_eq {agreed later : List Entry} {position : Nat} {entry : Entry}
    (settled : agreed[position]? = some entry ∧ later = agreed ∨
      position = agreed.length ∧ later = agreed ++ [entry]) :
    KVCluster.settle agreed position entry = some later := by
  rcases settled with ⟨again, rfl⟩ | ⟨rfl, rfl⟩
  · simp [KVCluster.settle, again]
  · simp [KVCluster.settle]

theorem apply_eq {cluster : KVCluster n} {server : Fin n} {entry : Entry} {agreed : List Entry}
    {kv : KVServer}
    (found : (cluster.peers server).log[(cluster.peers server).applied]? = some entry)
    (settled : KVCluster.settle cluster.agreed (cluster.peers server).applied entry = some agreed)
    (handled : (cluster.servers server).applyCommand ((cluster.peers server).applied + 1) entry.op
      (cluster.peers server).leading = some kv) :
    cluster.step (.apply server false) = some { cluster with
      peers := Function.update cluster.peers server
        { cluster.peers server with applied := (cluster.peers server).applied + 1 }
      servers := Function.update cluster.servers server kv
      agreed } := by
  simp [KVCluster.step, KVCluster.apply, found, settled, handled, KVCluster.setServer,
    KVCluster.setPeer]

/-- A delivery is the next entry of the agreed sequence. -/
theorem Deployed.apply (deployed : Deployed deployment history agreed placed led) {server : Fin n}
    (stepped : deployment.apply server = some next) :
    ∃ new later, (deployment.view (agreed.map ofLogEntry) placed led).step (.apply server false) =
        some (next.view (later.map ofLogEntry) placed led) ∧
      Deployed next new later placed led := by
  obtain ⟨⟨rf, msg⟩, sent, rest⟩ := Option.bind_eq_some_iff.mp stepped
  obtain ⟨raft, moved, rest⟩ := Option.bind_eq_some_iff.mp rest
  split at rest
  · obtain ⟨proposal, command, rest⟩ := Option.bind_eq_some_iff.mp rest
    obtain ⟨kv, handled, rest⟩ := Option.bind_eq_some_iff.mp rest
    cases rest
    rw [Cluster.send, sent] at moved
    cases moved
    have taken : deployment.raft.Step (.send server) _ := .send server rf msg sent
    obtain ⟨new, entry, later, replicates, extended, -, settled, present, rfl⟩ :=
      deployed.replicates.send sent taken rfl
    have all := deployed.placed.step deployed.replicates.refines deployed.replicates.uncompacted
      taken rfl (fun _ _ isStart => by cases isStart)
    refine ⟨new, later, ?_, replicates, all,
      fun term known => (deployed.led term known).mono extended.ballots⟩
    have found : (deployment.peer server).log[(deployment.peer server).applied]? =
        some (ofLogEntry entry) := by
      rw [Deployment.peer, peerOf, List.getElem?_map, present]
      rfl
    have agrees : KVCluster.settle (agreed.map ofLogEntry) (deployment.peer server).applied
        (ofLogEntry entry) = some (later.map ofLogEntry) := by
      refine settle_eq ?_
      rcases settled with ⟨again, rfl⟩ | ⟨last, rfl⟩
      · exact .inl ⟨by rw [List.getElem?_map, Deployment.peer, peerOf, again]; rfl, rfl⟩
      · exact .inr ⟨last.trans (List.length_map _).symm, List.map_append⟩
    have handles : (deployment.servers server).applyCommand ((deployment.peer server).applied + 1)
        (ofLogEntry entry).op (deployment.peer server).leading = some kv := by
      rw [ofLogEntry_eq command]
      exact handled
    have peers := deployment.update_peer
      { deployment with raft := deployment.raft.setServer server rf } server
      fun other different => Cluster.setServer_servers_of_ne _ _ different
    rw [Cluster.setServer_servers_self, peerOf_send sent] at peers
    refine (apply_eq found agrees handles).trans (congrArg some ?_)
    exact congrArg (fun peers => KVCluster.mk peers _ _ _ _ _ _) peers
  · cases rest

/-- A server comes back with its log and begins to deliver anew. -/
theorem Deployed.restart (deployed : Deployed deployment history agreed placed led)
    (server : Fin n) :
    ∃ new, (deployment.view (agreed.map ofLogEntry) placed led).step (.restart server) =
        some ((deployment.restart server).view (agreed.map ofLogEntry) placed led) ∧
      Deployed (deployment.restart server) new agreed placed led := by
  have taken : deployment.raft.Step (.restart server) _ := .restart server
  obtain ⟨new, replicates, extended⟩ :=
    deployed.replicates.silent rfl taken (fun _ isSend => by cases isSend)
  have all := deployed.placed.step deployed.replicates.refines deployed.replicates.uncompacted
    taken rfl (fun _ _ isStart => by cases isStart)
  refine ⟨new, congrArg some ?_, replicates, all,
    fun term known => (deployed.led term known).mono extended.ballots⟩
  have peers := deployment.update_peer (deployment.restart server) server
    fun other different => Cluster.setServer_servers_of_ne _ _ different
  have peer : peerOf ((deployment.raft.restart server).servers server) =
      { deployment.peer server with leading := false, applied := 0 } := by
    rw [Cluster.restart, Cluster.setServer_servers_self,
      Raft.make_eq_of_durable (deployed.replicates.refines.voting.durable server)]
    rfl
  exact congrArg (fun peers => KVCluster.mk peers _ _ _ _ _ _)
    ((congrArg (Function.update deployment.peer server) peer).symm.trans peers)

/-- No accepted `AppendEntries` cuts off entries of its own term, and no result goes to a
handler of another term. -/
def Deployment.steady (deployment : Deployment n) : DeploymentEvent n → Bool
  | .network event => deployment.raft.steady event
  | .service event => (deployment.view [] [] []).notifiesInTerm event

structure RecordedDeployment (n : Nat) where
  deployment : Deployment n
  clock : Nat
  records : List Record

/-- Clients see nothing of the steps inside Raft. -/
def Deployment.note (deployment next : Deployment n) (clock : Nat) (records : List Record) :
    DeploymentEvent n → List Record
  | .network _ => records
  | .service event => KVRaft.note (deployment.view [] [] []) (next.view [] [] []) clock records event

/-- The clock begins when every server has been made, one after the other. -/
def recordedDeploymentSystem (n : Nat) : System (RecordedDeployment n) (DeploymentEvent n) where
  init recorded := recorded = { deployment := .initial n, clock := n, records := [] }
  step recorded event := (recorded.deployment.step event).map fun next =>
    { deployment := next
      clock := recorded.clock + 1
      records := recorded.deployment.note next recorded.clock recorded.records event }

theorem note_view (deployment next : Deployment n) (agreed later : List Entry)
    (placed placed' : List (Nat × Entry)) (led led' : List Nat) (clock : Nat)
    (records : List Record) (event : KVEvent n) :
    note (deployment.view agreed placed led) (next.view later placed' led') clock records event =
      deployment.note next clock records (.service event) := by
  cases event <;> rfl

/-- The cluster over an assumed Raft takes a step with the same outcome. -/
theorem Deployed.step (deployed : Deployed deployment history agreed placed led)
    {event : DeploymentEvent n} (steady : deployment.steady event = true)
    (stepped : deployment.step event = some next) :
    ∃ kvEvent new later placed' led',
      (deployment.view (agreed.map ofLogEntry) placed led).step kvEvent =
        some (next.view (later.map ofLogEntry) placed' led') ∧
      (deployment.view (agreed.map ofLogEntry) placed led).notifiesInTerm kvEvent = true ∧
      (∀ clock records, note (deployment.view (agreed.map ofLogEntry) placed led)
          (next.view (later.map ofLogEntry) placed' led') clock records kvEvent =
        deployment.note next clock records event) ∧
      Deployed next new later placed' led' := by
  cases event with
  | network event =>
      obtain ⟨server, term, leading, log, new, led', moved, deployed'⟩ :=
        deployed.network steady stepped
      exact ⟨_, new, agreed, placed, led', moved, rfl, fun _ _ => rfl, deployed'⟩
  | service event =>
      have notes := fun later placed' led' clock records =>
        note_view deployment next (agreed.map ofLogEntry) later placed placed' led led' clock
          records event
      cases event with
      | raft | install => cases stepped
      | start id =>
          obtain ⟨new, placed', moved, deployed'⟩ := deployed.start stepped
          exact ⟨_, new, agreed, placed', led, moved, steady, notes _ _ _, deployed'⟩
      | apply server snapshot =>
          cases snapshot with
          | true => cases stepped
          | false =>
              obtain ⟨new, later, moved, deployed'⟩ := deployed.apply stepped
              exact ⟨_, new, later, placed, led, moved, steady, notes _ _ _, deployed'⟩
      | restart server =>
          cases stepped
          obtain ⟨new, moved, deployed'⟩ := deployed.restart server
          exact ⟨_, new, agreed, placed, led, moved, steady, notes _ _ _, deployed'⟩
      | _ =>
          have same := raft_of_handle stepped
          refine ⟨_, history, agreed, placed, led, handle_view rfl stepped _ _ _, steady,
            notes _ _ _, ?_, ?_, deployed.led⟩
          · rw [same]
            exact deployed.replicates
          · rw [same]
            exact deployed.placed

theorem deployed_initial :
    Deployed (.initial n) (Cluster.initialHistory n Proposal) [] [] [] := by
  refine ⟨Cluster.replicates_initial, ⟨?_, ?_⟩, ?_⟩
  · intro server position entry found
    cases found
  · intro packet member
    cases member
  · intro term known
    cases known

/-- `Make` begins in term 1, which the assumed Raft comes to server by server. -/
def madeRecorded (n count : Nat) : Recorded n where
  cluster := { KVCluster.initial n with
    peers := fun server => { term := if server.val < count then 1 else 0, leading := false
                             log := [], applied := 0, snapshot := none } }
  clock := count
  records := []

theorem madeRecorded_step {count : Nat} (more : count < n) :
    (recordedSystem n).step (madeRecorded n count) (.raft ⟨count, more⟩ 1 false []) =
      some (madeRecorded n (count + 1)) := by
  have peers : Function.update (madeRecorded n count).cluster.peers ⟨count, more⟩
      { term := 1, leading := false, log := [], applied := 0, snapshot := none } =
        (madeRecorded n (count + 1)).cluster.peers := by
    funext server
    by_cases here : server = ⟨count, more⟩
    · subst here
      simp [madeRecorded]
    · have other : server.val ≠ count := fun same => here (Fin.ext same)
      rw [Function.update_of_ne here]
      simp only [madeRecorded, Nat.lt_succ_iff_lt_or_eq, other, or_false]
  have permits : (madeRecorded n count).cluster.raftAllows ⟨count, more⟩ 1 false [] = true := by
    simp [KVCluster.raftAllows, madeRecorded, KVCluster.initial]
  refine (congrArg (Option.map _) (if_pos permits)).trans ?_
  exact congrArg (fun peers => some (Recorded.mk (KVCluster.mk peers _ _ _ _ _ _) _ _)) peers

theorem madeRecorded_reachable {count : Nat} (made : count ≤ n) : (recordedSystem n).Reachable
    (fun state event => state.cluster.notifiesInTerm event = true) (madeRecorded n count) := by
  induction count with
  | zero => exact ⟨_, rfl, .refl _⟩
  | succ count inductionHypothesis =>
      exact (inductionHypothesis (Nat.le_of_succ_le made)).run
        (.tail (.refl _) rfl (madeRecorded_step made))

/-- The cluster is what the deployment looks like with some history of the assumed Raft. -/
def RecordedDeployment.Matches (recorded : RecordedDeployment n) (image : Recorded n) : Prop :=
  ∃ history agreed placed led, Deployed recorded.deployment history agreed placed led ∧
    image = { cluster := recorded.deployment.view (agreed.map ofLogEntry) placed led
              clock := recorded.clock, records := recorded.records }

/-- The run of the assumed Raft that goes with a run of the deployment. -/
theorem matches_of_recorded {recorded : RecordedDeployment n}
    (reached : (recordedDeploymentSystem n).Reachable
      (fun state event => state.deployment.steady event = true) recorded) :
    ∃ image, (recordedSystem n).Reachable
        (fun state event => state.cluster.notifiesInTerm event = true) image ∧
      recorded.Matches image := by
  refine reached.refines ?_ ?_
  · rintro _ rfl
    refine ⟨_, madeRecorded_reachable le_rfl, _, [], [], [], deployed_initial, ?_⟩
    have terms : (madeRecorded n n).cluster.peers = (Deployment.initial n).peer := by
      funext server
      simp only [madeRecorded, server.isLt, if_true]
      rfl
    exact congrArg (fun peers => Recorded.mk (KVCluster.mk peers _ _ _ _ _ _) _ _) terms
  · rintro ⟨deployment, clock, records⟩ _ event _ ⟨history, agreed, placed, led, deployed, rfl⟩
      steady stepped
    obtain ⟨next, moved, rfl⟩ := Option.map_eq_some_iff.mp stepped
    obtain ⟨kvEvent, new, later, placed', led', matched, guarded, notes, deployed'⟩ :=
      deployed.step steady moved
    refine ⟨kvEvent, _, guarded, congrArg (Option.map _) matched, new, later, placed', led',
      deployed', ?_⟩
    simp only [notes]

/-- As long as no accepted `AppendEntries` cuts off entries of its own term and no result goes
to a handler of another term, everything that clerks, handlers and state machines do over the
labrpc Raft they also do over the assumed one, with the same records. -/
theorem deployment_refines {recorded : RecordedDeployment n}
    (reached : (recordedDeploymentSystem n).Reachable
      (fun state event => state.deployment.steady event = true) recorded) :
    ∃ agreed placed led, (recordedSystem n).Reachable
      (fun state event => state.cluster.notifiesInTerm event = true)
      { cluster := recorded.deployment.view agreed placed led
        clock := recorded.clock, records := recorded.records } := by
  obtain ⟨_, reachable, history, agreed, placed, led, -, rfl⟩ := matches_of_recorded reached
  exact ⟨_, placed, led, reachable⟩

/-- Then the operations that have returned, together with some of the writes that have not,
are linearizable as operations on one key/value map. -/
theorem deployment_linearizable {recorded : RecordedDeployment n}
    (reached : (recordedDeploymentSystem n).Reachable
      (fun state event => state.deployment.steady event = true) recorded) :
    ∃ counted : Record → Bool,
      (∀ record, record.ret.isSome = true → counted record = true) ∧
      (∀ record, counted record = true →
        record.ret.isSome = true ∨ ∃ clientId seqId, record.tag = .write clientId seqId) ∧
      LinearizableStore
        ((recorded.records.filter counted).map (Record.operation recorded.clock)) := by
  obtain ⟨_, reachable, history, agreed, placed, led, -, rfl⟩ := matches_of_recorded reached
  obtain ⟨consistent, len, logged⟩ := consistent_of_recorded reachable
  refine ⟨Record.effective (agreed.map ofLogEntry), ?_, ?_,
    logged.linearizable_effective consistent⟩
  · intro record returned
    rw [Record.effective, returned, Bool.true_or]
  · intro record counts
    rcases Bool.or_eq_true_iff.mp counts with returned | agreedWrite
    · exact .inl returned
    · right
      split at agreedWrite
      · exact ⟨_, _, by assumption⟩
      · cases agreedWrite

/-- Server 0 is elected and a clerk writes through it. -/
def writtenDeployment : RecordedDeployment 3 :=
  (recordedDeploymentSystem 3).after (fun state event => state.deployment.steady event)
    { deployment := .initial 3, clock := 3, records := [] }
    [.network (.electionTimeout 0), .network (.startElection 0), .network (.deliver 0),
     .network (.deliver 0), .service (.write 7 "x" "1" "Put"), .service (.send 7 0),
     .service (.check 0), .service (.start 0), .network (.startReplication 0 2),
     .network (.deliver 1), .network (.deliver 1), .network (.collect 0),
     .service (.register 0), .service (.apply 0 false), .service (.receive 0),
     .service (.acknowledge 0)]

theorem writtenDeployment_reachable : (recordedDeploymentSystem 3).Reachable
    (fun state event => state.deployment.steady event = true) writtenDeployment :=
  ⟨_, rfl, System.run_after
    (fun (state : RecordedDeployment 3) event => state.deployment.steady event) _ _⟩

theorem deployment_refines_written : ∃ agreed placed led, (recordedSystem 3).Reachable
    (fun state event => state.cluster.notifiesInTerm event = true)
    { cluster := writtenDeployment.deployment.view agreed placed led, clock := 19
      records := [⟨.write 7 0, ⟨1, "x", "1"⟩, 7, ⟨""⟩, some 18⟩] } :=
  deployment_refines writtenDeployment_reachable

theorem deployment_linearizable_written : ∃ counted : Record → Bool,
    counted ⟨.write 7 0, ⟨1, "x", "1"⟩, 7, ⟨""⟩, some 18⟩ = true ∧
      LinearizableStore ((writtenDeployment.records.filter counted).map (Record.operation 19)) := by
  obtain ⟨counted, returned, -, linearizable⟩ :=
    deployment_linearizable writtenDeployment_reachable
  exact ⟨counted, returned _ rfl, linearizable⟩

end MultiRaft.KVRaft
