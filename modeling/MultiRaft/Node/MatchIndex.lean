import MultiRaft.Node.Election

/-!
# What a leader knows of its peers' logs

`matchIndex` is raised by the two kinds of replies.  A reply to `AppendEntries` counts
what the request contained.  A reply to `InstallSnapshot` counts the snapshot that the
leader has when the call returns, and by then it may have compacted further than what
it sent.
-/

namespace MultiRaft

variable {n : Nat} {Command : Type}

/-- The term that a request is sent in. -/
def NodeReplicate.term : NodeReplicate n Command → Nat
  | .append args => args.term
  | .snapshot args => args.term

namespace Node

variable {node next : Node n Command} {call : NodeCall n Command} {peer target : Fin n}

/-- What a section that leaves a leader does to the match point of a peer. -/
inductive MatchStep (node next : Node n Command) (peer : Fin n) : NodeCall n Command → Prop
  | kept {call : NodeCall n Command} (leads : node.role = .leader)
      (term : next.currentTerm = node.currentTerm)
      (matchIndex : next.matchIndex peer = node.matchIndex peer) : MatchStep node next peer call
  | reset {call : NodeCall n Command} (matchIndex : next.matchIndex peer = 0) :
      MatchStep node next peer call
  | counted {args : AppendEntriesArgs n Command} {resp : AppendEntriesReply}
      (term : next.currentTerm = args.term) (success : resp.success = true)
      (matchIndex : next.matchIndex peer = args.prevLogIndex + args.entries.length) :
      MatchStep node next peer (.appendReply peer args resp)
  | shipped {term : Nat} {resp : InstallSnapshotReply} (leads : node.role = .leader)
      (sameTerm : node.currentTerm = term) (kept : next.currentTerm = term)
      (current : resp.term ≤ term) (matchIndex : next.matchIndex peer = node.log.snapLastIdx) :
      MatchStep node next peer (.installReply peer term resp)

theorem matchStep_appendReply {args : AppendEntriesArgs n Command} {resp : AppendEntriesReply}
    (handled : node.appendReply target args resp = some next) (leads : next.role = .leader) :
    MatchStep node next peer (.appendReply target args resp) := by
  rcases appendReply_cases handled with
    ⟨later, rfl⟩ | rfl | ⟨_, led, _, rfl⟩ | ⟨sameTerm, led, success, updated⟩
  · exact nomatch leads.symm.trans (node.becomeFollowerLocked_role later.le)
  · exact .kept leads rfl rfl
  · exact .kept led rfl rfl
  · have known : next.currentTerm = node.currentTerm ∧ next.matchIndex =
        Function.update node.matchIndex target (args.prevLogIndex + args.entries.length) := by
      rcases updateCommitIndexLocked_cases updated with rfl | ⟨_, _, _, _, _, _, _, rfl⟩
      · exact ⟨rfl, rfl⟩
      · exact ⟨rfl, rfl⟩
    by_cases same : peer = target
    · subst same
      exact .counted (known.1.trans sameTerm) success
        ((congrFun known.2 peer).trans (Function.update_self ..))
    · exact .kept led known.1 ((congrFun known.2 peer).trans (Function.update_of_ne same ..))

theorem matchStep_installReply {term : Nat} {resp : InstallSnapshotReply}
    (leads : (node.installReply target term resp).role = .leader) :
    MatchStep node (node.installReply target term resp) peer (.installReply target term resp) := by
  have current : resp.term ≤ node.currentTerm := by
    by_contra later
    rw [installReply, if_pos (not_le.mp later),
      node.becomeFollowerLocked_role (not_le.mp later).le] at leads
    cases leads
  rcases node.installReply_cases target term resp with
    ⟨later, _⟩ | result | ⟨sameTerm, led, result⟩
  · exact absurd later (not_lt.mpr current)
  · rw [result] at leads ⊢
    exact .kept leads rfl rfl
  · rw [result]
    by_cases same : peer = target
    · subst same
      exact .shipped led sameTerm sameTerm (current.trans_eq sameTerm) (Function.update_self ..)
    · exact .kept led rfl (Function.update_of_ne same ..)

/-- The own entry is left out: `startReplication` keeps it. -/
theorem matchStep_handle (handled : node.handle call = some next) (leads : next.role = .leader)
    (other : peer ≠ node.me) : MatchStep node next peer call := by
  cases handle_outcome handled with
  | stay => exact .kept leads rfl rfl
  | follow _ term current =>
      exact nomatch leads.symm.trans (node.becomeFollowerLocked_role current)
  | adopt req prev log current =>
      exact nomatch leads.symm.trans (node.becomeFollowerLocked_role current)
  | install req log current =>
      exact nomatch leads.symm.trans (node.becomeFollowerLocked_role current)
  | stand => cases leads
  | vote req current =>
      rcases node.aligned_cases current with ⟨_, result⟩ | ⟨_, result⟩
      · rw [result] at leads ⊢
        exact .kept leads rfl rfl
      · rw [result] at leads
        cases leads
  | promote => exact .reset rfl
  | replicate => exact .kept leads rfl (Function.update_of_ne other ..)
  | probe | count | commit => exact matchStep_appendReply handled leads
  | ship target term resp =>
      have result := Option.some.inj handled
      rw [← result] at leads ⊢
      exact matchStep_installReply leads
  | restart =>
      rw [newNode_role] at leads
      cases leads
  | start | compact | collectSnapshot | collect | send | receive | giveUp =>
      exact .kept leads rfl rfl

/-- A node that accepts entries has them. -/
theorem reaches_of_success {req : AppendEntriesArgs n Command} {resp : AppendEntriesReply}
    (handled : node.handleAppendEntries req = some (next, resp)) (success : resp.success = true) :
    req.prevLogIndex + req.entries.length ≤ next.log.last.1 := by
  rcases handleAppendEntries_cases handled with
    ⟨_, _, failed⟩ | ⟨_, _, failed⟩ | ⟨_, prev, log, _, _, written, rfl, _⟩
  · exact nomatch failed.symm.trans success
  · exact nomatch failed.symm.trans success
  · obtain ⟨_, _, size⟩ := RaftLog.appendFrom_bounds written
    have reach := log.size_le
    change _ ≤ log.last.1
    omega

/-- A node that takes a snapshot of its term has it or had a later one. -/
theorem reaches_of_installed {req : InstallSnapshotArgs n} {resp : InstallSnapshotReply}
    (handled : node.handleInstallSnapshot req = some (next, resp)) (current : resp.term ≤ req.term) :
    req.lastIncludedIndex ≤ next.log.last.1 := by
  unfold handleInstallSnapshot at handled
  split at handled
  · rename_i past
    cases handled
    exact absurd current (not_le.mpr past)
  dsimp only at handled
  split at handled
  · rename_i newer
    cases handled
    exact newer.trans (RaftLog.snapLastIdx_le_last _)
  · rename_i newer
    obtain ⟨log, written, result⟩ := Option.bind_eq_some_iff.mp handled
    cases result
    have index := RaftLog.installSnapshot_snapLastIdx (not_le.mp newer) written
    exact index.ge.trans log.snapLastIdx_le_last

theorem replicate_term {request : NodeReplicate n Command}
    (made : node.replicate peer = some request) : request.term = node.currentTerm := by
  unfold replicate at made
  split at made
  · cases made
    rfl
  · obtain ⟨prev, _, rest⟩ := Option.bind_eq_some_iff.mp made
    obtain ⟨entries, _, result⟩ := Option.bind_eq_some_iff.mp rest
    cases result
    rfl

end Node

namespace NodeCluster

variable {cluster next : NodeCluster n Command} {event : NodeEvent n Command}

/-- Where a call of the next state comes from: it was there, its peer handled it, it
returned, or a leader makes it. -/
inductive CallStep (cluster next : NodeCluster n Command) : NodePacket n Command → Prop
  | kept {call : NodePacket n Command} (member : call ∈ cluster.calls) : CallStep cluster next call
  | vote {call : NodePacket n Command} {args : RequestVoteArgs n}
      {responses : List RequestVoteReply} {phase : VotePhase}
      (body : call.body = .vote args responses phase) : CallStep cluster next call
  | appended {call : NodePacket n Command} {args : AppendEntriesArgs n Command}
      {responses : List AppendEntriesReply} {returned : Bool} {resp : AppendEntriesReply}
      (member : call ∈ cluster.calls) (body : call.body = .append args responses returned)
      (handled : (cluster.nodes call.peer).handleAppendEntries args =
        some (next.nodes call.peer, resp)) :
      CallStep cluster next { call with body := .append args (responses ++ [resp]) returned }
  | installed {call : NodePacket n Command} {args : InstallSnapshotArgs n}
      {responses : List InstallSnapshotReply} {returned : Bool} {resp : InstallSnapshotReply}
      (member : call ∈ cluster.calls) (body : call.body = .snapshot args responses returned)
      (handled : (cluster.nodes call.peer).handleInstallSnapshot args =
        some (next.nodes call.peer, resp)) :
      CallStep cluster next { call with body := .snapshot args (responses ++ [resp]) returned }
  | appendReturned {call : NodePacket n Command} {args : AppendEntriesArgs n Command}
      {responses : List AppendEntriesReply} (member : call ∈ cluster.calls)
      (body : call.body = .append args responses false) :
      CallStep cluster next { call with body := .append args responses true }
  | installReturned {call : NodePacket n Command} {args : InstallSnapshotArgs n}
      {responses : List InstallSnapshotReply} (member : call ∈ cluster.calls)
      (body : call.body = .snapshot args responses false) :
      CallStep cluster next { call with body := .snapshot args responses true }
  | replicated {leader peer : Fin n} (incarnation : Nat) {args : AppendEntriesArgs n Command}
      (leads : (cluster.nodes leader).role = .leader)
      (term : args.term = (cluster.nodes leader).currentTerm) :
      CallStep cluster next { caller := leader, incarnation, peer, body := .append args [] false }
  | shipped {leader peer : Fin n} (incarnation : Nat) {args : InstallSnapshotArgs n}
      (leads : (cluster.nodes leader).role = .leader)
      (term : args.term = (cluster.nodes leader).currentTerm) :
      CallStep cluster next { caller := leader, incarnation, peer, body := .snapshot args [] false }

theorem Step.callStep (stepped : cluster.Step next) :
    ∀ call ∈ next.calls, cluster.CallStep next call := by
  intro call member
  cases stepped with
  | timeout | electionLost | ownSection | restart => exact .kept member
  | election =>
      rcases List.mem_append.mp member with old | new
      · exact .kept old
      · obtain ⟨_, _, rfl⟩ := List.mem_map.mp new
        exact .vote rfl
  | voteRequest | voteAnswer | count | promote =>
      rcases List.mem_or_eq_of_mem_set member with old | rfl
      · exact .kept old
      · exact .vote rfl
  | appendRequest index asked args responses returned node resp found body handled =>
      rcases List.mem_or_eq_of_mem_set member with old | rfl
      · exact .kept old
      · refine .appended (List.mem_of_getElem? found) body (handled.trans ?_)
        exact congrArg (fun result => some (result, resp))
          (cluster.setNode_nodes_self asked.peer node).symm
  | snapshotRequest index asked args responses returned node resp found body handled =>
      rcases List.mem_or_eq_of_mem_set member with old | rfl
      · exact .kept old
      · refine .installed (List.mem_of_getElem? found) body (handled.trans ?_)
        exact congrArg (fun result => some (result, resp))
          (cluster.setNode_nodes_self asked.peer node).symm
  | appendAnswer index asked args responses resp node found body =>
      rcases List.mem_or_eq_of_mem_set member with old | rfl
      · exact .kept old
      · exact .appendReturned (List.mem_of_getElem? found) body
  | snapshotAnswer index asked args responses resp found body =>
      rcases List.mem_or_eq_of_mem_set member with old | rfl
      · exact .kept old
      · exact .installReturned (List.mem_of_getElem? found) body
  | replicate node term result requests started =>
      rcases List.mem_append.mp member with old | new
      · exact .kept old
      · obtain ⟨⟨peer, request⟩, asked, rfl⟩ := List.mem_map.mp new
        rcases Node.startReplication_cases started with ⟨_, rfl⟩ | ⟨_, leads, _, made⟩
        · cases asked
        · have term := Node.replicate_term (made peer request asked).2
          cases request with
          | append args => exact .replicated _ leads term
          | snapshot args => exact .shipped _ leads term

/-- The node leads the term. -/
def Leads (leader : Fin n) (term : Nat) (cluster : NodeCluster n Command) : Prop :=
  (cluster.nodes leader).role = .leader ∧ (cluster.nodes leader).currentTerm = term

/-- The peer's log has the index, in its entries or in its snapshot. -/
def Reaches (peer : Fin n) (index : Nat) (cluster : NodeCluster n Command) : Prop :=
  index ≤ (cluster.nodes peer).log.last.1

/-- In one of the states passed, the newest first, the peer's log reached the index, and
the node led the term then or before. -/
def ReachedSince (leader peer : Fin n) (term index : Nat)
    (states : List (NodeCluster n Command)) : Prop :=
  System.HeldSince (Leads leader term) (Reaches peer index) states

/-- The call returns with an `InstallSnapshot` response to a leader that has not
compacted more than what it sent. -/
def shipsPresent (cluster : NodeCluster n Command) : NodeEvent n Command → Bool
  | .answer index _ =>
      match cluster.calls[index]? with
      | none => true
      | some call =>
          match call.body with
          | .snapshot args _ _ =>
              (cluster.nodes call.caller).contextLostLocked .leader args.term ||
                decide ((cluster.nodes call.caller).log.snapLastIdx ≤ args.lastIncludedIndex)
          | _ => true
  | _ => true

end NodeCluster

/-- A call of a node that led the term of its arguments, with responses that tell the
truth about the peer. -/
def NodePacket.Truthful (call : NodePacket n Command) (states : List (NodeCluster n Command)) :
    Prop :=
  match call.body with
  | .vote _ _ _ => True
  | .append args responses _ =>
      (∃ led ∈ states, NodeCluster.Leads call.caller args.term led) ∧
      ∀ resp ∈ responses, resp.success = true →
        NodeCluster.ReachedSince call.caller call.peer args.term
          (args.prevLogIndex + args.entries.length) states
  | .snapshot args responses _ =>
      (∃ led ∈ states, NodeCluster.Leads call.caller args.term led) ∧
      ∀ resp ∈ responses, resp.term ≤ args.term →
        NodeCluster.ReachedSince call.caller call.peer args.term args.lastIncludedIndex states

theorem NodePacket.Truthful.later {call : NodePacket n Command}
    {states : List (NodeCluster n Command)} (truthful : call.Truthful states)
    (cluster : NodeCluster n Command) : call.Truthful (cluster :: states) := by
  unfold NodePacket.Truthful at truthful ⊢
  split at truthful
  · trivial
  · obtain ⟨⟨led, member, leads⟩, reached⟩ := truthful
    exact ⟨⟨led, List.mem_cons_of_mem _ member, leads⟩,
      fun resp among success => (reached resp among success).later cluster⟩
  · obtain ⟨⟨led, member, leads⟩, reached⟩ := truthful
    exact ⟨⟨led, List.mem_cons_of_mem _ member, leads⟩,
      fun resp among current => (reached resp among current).later cluster⟩

namespace NodeCluster

variable {cluster next : NodeCluster n Command} {event : NodeEvent n Command}
  {past : List (NodeCluster n Command)}

structure Matched (cluster : NodeCluster n Command) (past : List (NodeCluster n Command)) :
    Prop where
  tables : ∀ leader, (cluster.nodes leader).role = .leader → ∀ peer, peer ≠ leader →
    ReachedSince leader peer (cluster.nodes leader).currentTerm
      ((cluster.nodes leader).matchIndex peer) (cluster :: past)
  calls : ∀ call ∈ cluster.calls, call.Truthful (cluster :: past)

theorem Matched.calls_step (matched : cluster.Matched past) (stepped : cluster.Step next) :
    ∀ call ∈ next.calls, call.Truthful (next :: cluster :: past) := by
  intro call member
  cases stepped.callStep call member with
  | kept old => exact (matched.calls call old).later next
  | vote body => simp only [NodePacket.Truthful, body]
  | appended old body handled =>
      have truthful := (matched.calls _ old).later next
      simp only [NodePacket.Truthful, body] at truthful ⊢
      refine ⟨truthful.1, ?_⟩
      intro resp among success
      rcases List.mem_append.mp among with earlier | new
      · exact truthful.2 resp earlier success
      · rw [List.mem_singleton.mp new] at success
        exact System.heldSince_now (Node.reaches_of_success handled success) truthful.1
  | installed old body handled =>
      have truthful := (matched.calls _ old).later next
      simp only [NodePacket.Truthful, body] at truthful ⊢
      refine ⟨truthful.1, ?_⟩
      intro resp among current
      rcases List.mem_append.mp among with earlier | new
      · exact truthful.2 resp earlier current
      · rw [List.mem_singleton.mp new] at current
        exact System.heldSince_now (Node.reaches_of_installed handled current) truthful.1
  | appendReturned old body =>
      have truthful := (matched.calls _ old).later next
      simpa only [NodePacket.Truthful, body] using truthful
  | installReturned old body =>
      have truthful := (matched.calls _ old).later next
      simpa only [NodePacket.Truthful, body] using truthful
  | replicated _ leads term =>
      exact ⟨⟨cluster, by simp, leads, term.symm⟩, nofun⟩
  | shipped _ leads term =>
      exact ⟨⟨cluster, by simp, leads, term.symm⟩, nofun⟩

/-- What the condition says of a response that counts. -/
theorem present_of_ships {index response : Nat} {call : NodePacket n Command}
    {args : InstallSnapshotArgs n} {responses : List InstallSnapshotReply} {returned : Bool}
    (permitted : cluster.shipsPresent (.answer index response) = true)
    (found : cluster.calls[index]? = some call)
    (body : call.body = .snapshot args responses returned)
    (leads : (cluster.nodes call.caller).role = .leader)
    (sameTerm : (cluster.nodes call.caller).currentTerm = args.term) :
    (cluster.nodes call.caller).log.snapLastIdx ≤ args.lastIncludedIndex := by
  have context := Node.contextLostLocked_eq_false.mpr ⟨sameTerm, leads⟩
  simpa only [shipsPresent, found, body, context, Bool.false_or, decide_eq_true_iff]
    using permitted

theorem Matched.tables_step (matched : cluster.Matched past) {leader peer : Fin n}
    (me : (cluster.nodes leader).me = leader) (permitted : cluster.shipsPresent event = true)
    (stepped : cluster.step event = some next) (leads : (next.nodes leader).role = .leader)
    (other : peer ≠ leader) :
    ReachedSince leader peer (next.nodes leader).currentTerm ((next.nodes leader).matchIndex peer)
      (next :: cluster :: past) := by
  rcases step_origin stepped leader with same | ⟨call, handled, origin⟩ | ⟨_, restarted⟩
  · rw [same] at leads ⊢
    exact (matched.tables leader leads peer other).later next
  · cases Node.matchStep_handle handled leads (me.symm ▸ other) with
    | kept led term matchIndex =>
        rw [term, matchIndex]
        exact (matched.tables leader led peer other).later next
    | reset matchIndex =>
        rw [matchIndex]
        exact System.heldSince_now (Nat.zero_le _) ⟨next, List.mem_cons_self, leads, rfl⟩
    | counted term success matchIndex =>
        cases origin with
        | appendAnswer found body member =>
            have truthful := matched.calls _ (List.mem_of_getElem? found)
            simp only [NodePacket.Truthful, body] at truthful
            rw [term, matchIndex]
            exact (truthful.2 _ member success).later next
    | shipped led sameTerm kept current matchIndex =>
        cases origin with
        | snapshotAnswer found body member =>
            have truthful := matched.calls _ (List.mem_of_getElem? found)
            simp only [NodePacket.Truthful, body] at truthful
            have present := present_of_ships permitted found body led sameTerm
            rw [kept, matchIndex]
            exact ((truthful.2 _ member current).later next).imp fun _ => present.trans
  · rw [restarted, Node.newNode_role] at leads
    cases leads

theorem matched_of_trace {states : List (NodeCluster n Command × NodeEvent n Command)}
    (trace : (nodeClusterSystem n Command).Trace
      (fun cluster event => cluster.shipsPresent event = true) states cluster) :
    cluster.Matched (states.map Prod.fst) := by
  induction trace with
  | start initially =>
      obtain ⟨capacity, rfl⟩ := initially
      refine ⟨?_, nofun⟩
      intro leader leads
      cases leads
  | step front permitted stepped matched =>
      obtain ⟨ballots, voting⟩ := voting_of_reachable front.reachable
      refine ⟨?_, matched.calls_step (step_cases stepped)⟩
      intro leader leads peer other
      exact matched.tables_step (voting.me leader) permitted stepped leads other

end NodeCluster

/-- The match point of a peer is an index that its log has reached since the leader leads
its term, if a leader does not compact between sending its snapshot and hearing of it. -/
theorem matchIndex_sound {cluster : NodeCluster n Command}
    {states : List (NodeCluster n Command × NodeEvent n Command)}
    (trace : (nodeClusterSystem n Command).Trace
      (fun cluster event => cluster.shipsPresent event = true) states cluster)
    {leader peer : Fin n} (leads : (cluster.nodes leader).role = .leader)
    (other : peer ≠ leader) :
    NodeCluster.ReachedSince leader peer (cluster.nodes leader).currentTerm
      ((cluster.nodes leader).matchIndex peer) (cluster :: states.map Prod.fst) :=
  (NodeCluster.matched_of_trace trace).tables leader leads peer other

/-- Node 0 leads term 2 with two entries, which node 1 has too.  It has compacted the
first one, and the snapshot reached node 2, whose log was empty. -/
def shippingEvents : List (NodeEvent 3 Nat) :=
  [.electionTimeout 0, .startElection 0, .deliver 0, .answer 0 0, .count 0, .promote 0,
   .start 0 (some 7), .start 0 (some 8), .startReplication 0 2, .deliver 2, .answer 2 0,
   .snapshot 0 1 [], .startReplication 0 2, .deliver 5]

/-- The states passed, and the last one, under a condition. -/
def shipping (check : NodeCluster 3 Nat → NodeEvent 3 Nat → Bool)
    (events : List (NodeEvent 3 Nat)) :
    List (NodeCluster 3 Nat × NodeEvent 3 Nat) × NodeCluster 3 Nat :=
  (nodeClusterSystem 3 Nat).record check [] (NodeCluster.initial 3 Nat fun _ => 4)
    (shippingEvents ++ events)

theorem trace_shipping (check : NodeCluster 3 Nat → NodeEvent 3 Nat → Bool)
    (events : List (NodeEvent 3 Nat)) :
    (nodeClusterSystem 3 Nat).Trace (fun cluster event => check cluster event = true)
      (shipping check events).1 (shipping check events).2 := by
  apply System.trace_record
  exact .start ⟨_, rfl⟩

theorem matchIndex_sound_shipped :
    let run := shipping NodeCluster.shipsPresent [.answer 5 0]
    (run.2.nodes 0).matchIndex 2 = 1 ∧
      NodeCluster.ReachedSince 0 2 (run.2.nodes 0).currentTerm ((run.2.nodes 0).matchIndex 2)
        (run.2 :: run.1.map Prod.fst) :=
  ⟨rfl, matchIndex_sound (trace_shipping _ _) rfl (by decide)⟩

/-- The leader compacts its second entry before the call returns: node 2 is taken to have
an entry that it never had. -/
theorem matchIndex_unsound :
    let run := shipping (fun _ _ => true) [.snapshot 0 2 [], .answer 5 0]
    (nodeClusterSystem 3 Nat).Trace System.anyStep run.1 run.2 ∧
      (run.2.nodes 0).role = .leader ∧
      ¬ NodeCluster.ReachedSince 0 2 (run.2.nodes 0).currentTerm ((run.2.nodes 0).matchIndex 2)
        (run.2 :: run.1.map Prod.fst) := by
  refine ⟨(trace_shipping _ _).mono fun _ _ _ => trivial, rfl, ?_⟩
  intro reached
  obtain ⟨state, member, reaches⟩ := reached.exists
  have short : ∀ state ∈ (shipping (fun _ _ => true) [.snapshot 0 2 [], .answer 5 0]).2 ::
      (shipping (fun _ _ => true) [.snapshot 0 2 [], .answer 5 0]).1.map Prod.fst,
      (state.nodes 2).log.last.1 < 2 := by
    decide
  exact absurd (short state member) (not_lt.mpr reaches)

end MultiRaft
