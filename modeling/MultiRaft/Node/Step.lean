import MultiRaft.Node.Cluster
import MultiRaft.Node.Sections

/-!
# What one step of a cluster of `Node`s can do
-/

namespace MultiRaft.NodeCluster

variable {n : Nat} {Command : Type}

/-- The calls of one round of `startReplication`. -/
def replicationCalls (cluster : NodeCluster n Command) (node : Fin n)
    (requests : List (Fin n × NodeReplicate n Command)) : List (NodePacket n Command) :=
  requests.map fun request =>
    { caller := node, incarnation := cluster.incarnation node, peer := request.1,
      body := match request.2 with
        | .append args => .append args [] false
        | .snapshot args => .snapshot args [] false }

/-- The calls of one `startElection`. -/
def electionCalls (node : Node n Command) (pending : NodeElection n) :
    List (NodePacket n Command) :=
  node.voteRequests.map fun request =>
    { caller := pending.candidate, incarnation := pending.incarnation,
      peer := request.1, body := .vote request.2 [] .calling }

/-- Sections that read and change nothing but their own node, and neither end an
election nor a process. -/
def Local : NodeCall n Command → Prop
  | .start _ | .snapshot _ _ | .collect | .send | .receive | .giveUp => True
  | _ => False

inductive Step (cluster : NodeCluster n Command) : NodeCluster n Command → Prop
  | timeout (node : Fin n) (notLeader : (cluster.nodes node).role ≠ .leader) :
      Step cluster
        { cluster.setNode node (cluster.nodes node).becomeCandidateLocked with
          elections := cluster.elections ++
            [{ candidate := node, incarnation := cluster.incarnation node,
               term := (cluster.nodes node).becomeCandidateLocked.currentTerm }] }
  | electionLost (index : Nat) :
      Step cluster { cluster with elections := cluster.elections.eraseIdx index }
  | election (index : Nat) (pending : NodeElection n)
      (found : cluster.elections[index]? = some pending)
      (sameTerm : (cluster.nodes pending.candidate).currentTerm = pending.term)
      (isCandidate : (cluster.nodes pending.candidate).role = .candidate) :
      Step cluster
        { cluster with
          elections := cluster.elections.eraseIdx index
          votes := Function.update cluster.votes pending.candidate
            (Function.update (cluster.votes pending.candidate) pending.term 1)
          calls := cluster.calls ++ electionCalls (cluster.nodes pending.candidate) pending }
  | voteRequest (index : Nat) (call : NodePacket n Command) (args : RequestVoteArgs n)
      (responses : List RequestVoteReply) (phase : VotePhase)
      (found : cluster.calls[index]? = some call)
      (body : call.body = .vote args responses phase) :
      Step cluster
        ((cluster.setNode call.peer ((cluster.nodes call.peer).handleRequestVote args).1).setCall
          index { call with
            body := .vote args
              (responses ++ [((cluster.nodes call.peer).handleRequestVote args).2]) phase })
  | appendRequest (index : Nat) (call : NodePacket n Command)
      (args : AppendEntriesArgs n Command) (responses : List AppendEntriesReply)
      (returned : Bool) (node : Node n Command) (resp : AppendEntriesReply)
      (found : cluster.calls[index]? = some call)
      (body : call.body = .append args responses returned)
      (handled : (cluster.nodes call.peer).handleAppendEntries args = some (node, resp)) :
      Step cluster ((cluster.setNode call.peer node).setCall index
        { call with body := .append args (responses ++ [resp]) returned })
  | snapshotRequest (index : Nat) (call : NodePacket n Command)
      (args : InstallSnapshotArgs n) (responses : List InstallSnapshotReply)
      (returned : Bool) (node : Node n Command) (resp : InstallSnapshotReply)
      (found : cluster.calls[index]? = some call)
      (body : call.body = .snapshot args responses returned)
      (handled : (cluster.nodes call.peer).handleInstallSnapshot args = some (node, resp)) :
      Step cluster ((cluster.setNode call.peer node).setCall index
        { call with body := .snapshot args (responses ++ [resp]) returned })
  | voteAnswer (index : Nat) (call : NodePacket n Command) (args : RequestVoteArgs n)
      (responses : List RequestVoteReply) (resp : RequestVoteReply)
      (found : cluster.calls[index]? = some call)
      (body : call.body = .vote args responses .calling) (member : resp ∈ responses) :
      Step cluster
        ((cluster.setNode call.caller
            ((cluster.nodes call.caller).checkVote args.term resp).1).setCall index
          { call with
            body := .vote args responses
              (if ((cluster.nodes call.caller).checkVote args.term resp).2 then .counting
               else .done) })
  | appendAnswer (index : Nat) (call : NodePacket n Command)
      (args : AppendEntriesArgs n Command) (responses : List AppendEntriesReply)
      (resp : AppendEntriesReply) (node : Node n Command)
      (found : cluster.calls[index]? = some call)
      (body : call.body = .append args responses false) (member : resp ∈ responses)
      (handled : (cluster.nodes call.caller).appendReply call.peer args resp = some node) :
      Step cluster ((cluster.setNode call.caller node).setCall index
        { call with body := .append args responses true })
  | snapshotAnswer (index : Nat) (call : NodePacket n Command)
      (args : InstallSnapshotArgs n) (responses : List InstallSnapshotReply)
      (resp : InstallSnapshotReply) (found : cluster.calls[index]? = some call)
      (body : call.body = .snapshot args responses false) (member : resp ∈ responses) :
      Step cluster ((cluster.setNode call.caller
          ((cluster.nodes call.caller).installReply call.peer args.term resp)).setCall index
        { call with body := .snapshot args responses true })
  | count (index : Nat) (call : NodePacket n Command) (args : RequestVoteArgs n)
      (responses : List RequestVoteReply) (found : cluster.calls[index]? = some call)
      (body : call.body = .vote args responses .counting) :
      Step cluster
        { cluster.setCall index { call with
            body := .vote args responses
              (if cluster.votes call.caller args.term + 1 > n / 2 then .won else .done) } with
          votes := Function.update cluster.votes call.caller (Function.update
            (cluster.votes call.caller) args.term
            (cluster.votes call.caller args.term + 1)) }
  | promote (index : Nat) (call : NodePacket n Command) (args : RequestVoteArgs n)
      (responses : List RequestVoteReply) (found : cluster.calls[index]? = some call)
      (body : call.body = .vote args responses .won) :
      Step cluster
        ((cluster.setNode call.caller
            ((cluster.nodes call.caller).promote args.term)).setCall index
          { call with body := .vote args responses .done })
  | replicate (node : Fin n) (term : Nat) (next : Node n Command)
      (requests : List (Fin n × NodeReplicate n Command))
      (started : (cluster.nodes node).startReplication term = some (next, requests)) :
      Step cluster
        { cluster.setNode node next with
          calls := cluster.calls ++ cluster.replicationCalls node requests }
  | ownSection (node : Fin n) (call : NodeCall n Command) (next : Node n Command)
      (isLocal : Local call) (handled : (cluster.nodes node).handle call = some next) :
      Step cluster (cluster.setNode node next)
  | restart (node : Fin n) (capacity : Nat) : Step cluster (cluster.restart node capacity)

variable {cluster next : NodeCluster n Command}

theorem startElection_step {index : Nat} (started : cluster.startElection index = some next) :
    cluster.Step next := by
  rcases Option.bind_eq_some_iff.mp started with ⟨pending, found, rest⟩
  dsimp only at rest
  split at rest
  · cases rest
    exact .electionLost index
  split at rest
  · cases rest
    exact .electionLost index
  · rename_i kept
    rw [Bool.not_eq_true] at kept
    rcases Node.contextLostLocked_eq_false.mp kept with ⟨sameTerm, isCandidate⟩
    cases rest
    exact .election index pending found sameTerm isCandidate

theorem deliver_step {index : Nat} (delivered : cluster.deliver index = some next) :
    cluster.Step next := by
  rcases Option.bind_eq_some_iff.mp delivered with ⟨call, found, rest⟩
  dsimp only at rest
  split at rest
  · rename_i args responses phase body
    cases rest
    exact .voteRequest index call args responses phase found body
  · rename_i args responses returned body
    rcases Option.bind_eq_some_iff.mp rest with ⟨⟨node, resp⟩, handled, result⟩
    cases result
    exact .appendRequest index call args responses returned node resp found body handled
  · rename_i args responses returned body
    rcases Option.bind_eq_some_iff.mp rest with ⟨⟨node, resp⟩, handled, result⟩
    cases result
    exact .snapshotRequest index call args responses returned node resp found body handled

theorem answer_step {index response : Nat} (answered : cluster.answer index response = some next) :
    cluster.Step next := by
  rcases Option.bind_eq_some_iff.mp answered with ⟨call, found, rest⟩
  dsimp only at rest
  split at rest
  · cases rest
  split at rest
  · rename_i args responses body
    rcases Option.bind_eq_some_iff.mp rest with ⟨resp, chosen, result⟩
    cases result
    exact .voteAnswer index call args responses resp found body (List.mem_of_getElem? chosen)
  · rename_i args responses body
    rcases Option.bind_eq_some_iff.mp rest with ⟨resp, chosen, further⟩
    rcases Option.bind_eq_some_iff.mp further with ⟨node, handled, result⟩
    cases result
    exact .appendAnswer index call args responses resp node found body
      (List.mem_of_getElem? chosen) handled
  · rename_i args responses body
    rcases Option.bind_eq_some_iff.mp rest with ⟨resp, chosen, result⟩
    cases result
    exact .snapshotAnswer index call args responses resp found body
      (List.mem_of_getElem? chosen)
  · cases rest

theorem count_step {index : Nat} (counted : cluster.count index = some next) :
    cluster.Step next := by
  rcases Option.bind_eq_some_iff.mp counted with ⟨call, found, rest⟩
  split at rest
  · cases rest
  split at rest
  · rename_i args responses body
    cases rest
    exact .count index call args responses found body
  · cases rest

theorem promote_step {index : Nat} (promoted : cluster.promote index = some next) :
    cluster.Step next := by
  rcases Option.bind_eq_some_iff.mp promoted with ⟨call, found, rest⟩
  split at rest
  · cases rest
  split at rest
  · rename_i args responses body
    cases rest
    exact .promote index call args responses found body
  · cases rest

theorem onNode_step {node : Fin n} (call : NodeCall n Command) (isLocal : Local call)
    (handled : cluster.onNode node call = some next) : cluster.Step next := by
  rcases Option.map_eq_some_iff.mp handled with ⟨result, run, rfl⟩
  exact .ownSection node call result isLocal run

variable {event : NodeEvent n Command}

theorem step_cases (stepped : cluster.step event = some next) : cluster.Step next := by
  cases event with
  | electionTimeout node =>
      simp only [step, electionTimeout] at stepped
      split at stepped
      · cases stepped
      · rename_i notLeader
        cases stepped
        exact .timeout node notLeader
  | startElection index => exact startElection_step stepped
  | deliver index => exact deliver_step stepped
  | answer index response => exact answer_step stepped
  | count index => exact count_step stepped
  | promote index => exact promote_step stepped
  | startReplication node term =>
      rcases Option.bind_eq_some_iff.mp stepped with ⟨⟨result, requests⟩, started, done⟩
      cases done
      exact .replicate node term result requests started
  | start node command => exact onNode_step (.start command) trivial stepped
  | snapshot node index bytes => exact onNode_step (.snapshot index bytes) trivial stepped
  | collect node => exact onNode_step .collect trivial stepped
  | send node => exact onNode_step .send trivial stepped
  | receive node => exact onNode_step .receive trivial stepped
  | giveUp node => exact onNode_step .giveUp trivial stepped
  | restart node capacity =>
      cases stepped
      exact .restart node capacity

/-- How a node comes to run a section: a promotion is tried only by a goroutine
that found enough votes. -/
def Runs (cluster : NodeCluster n Command) (node : Fin n) : NodeCall n Command → Prop
  | .promote term => ∃ call ∈ cluster.calls, ∃ args responses,
      call.body = .vote args responses .won ∧ call.caller = node ∧ args.term = term
  | _ => True

/-- Only one node moves, and it moves by one of its critical sections. -/
theorem setNode_moves {node : Fin n} {result : Node n Command}
    {runs : Fin n → NodeCall n Command → Prop} (call : NodeCall n Command)
    (moved : next.nodes = (cluster.setNode node result).nodes)
    (handled : (cluster.nodes node).handle call = some result) (caused : runs node call)
    (other : Fin n) :
    next.nodes other = cluster.nodes other ∨
      ∃ call, (cluster.nodes other).handle call = some (next.nodes other) ∧
        runs other call := by
  rw [moved]
  by_cases same : other = node
  · subst same
    exact .inr ⟨call, by rw [setNode_nodes_self, handled], caused⟩
  · exact .inl (setNode_nodes_of_ne cluster result same)

/-- Every node stays as it is, runs one section, or restarts. -/
theorem Step.nodes (stepped : cluster.Step next) (node : Fin n) :
    next.nodes node = cluster.nodes node ∨
    (∃ call, (cluster.nodes node).handle call = some (next.nodes node) ∧
      cluster.Runs node call) ∨
    (∃ capacity, next.nodes node =
      Node.newNode node (cluster.nodes node).storage capacity) := by
  rw [← or_assoc]
  cases stepped with
  | timeout mover notLeader =>
      exact .inl (setNode_moves .electionTimeout rfl (by simp [Node.handle, notLeader])
        trivial node)
  | electionLost | election | count => exact .inl (.inl rfl)
  | voteRequest _ call args =>
      exact .inl (setNode_moves (.requestVote args) rfl rfl trivial node)
  | appendRequest _ call args _ _ result resp _ _ handled =>
      exact .inl (setNode_moves (.appendEntries args) rfl (by simp [Node.handle, handled])
        trivial node)
  | snapshotRequest _ call args _ _ result resp _ _ handled =>
      exact .inl (setNode_moves (.installSnapshot args) rfl (by simp [Node.handle, handled])
        trivial node)
  | voteAnswer _ call args _ resp =>
      exact .inl (setNode_moves (.checkVote args.term resp) rfl rfl trivial node)
  | appendAnswer _ call args _ resp result _ _ _ handled =>
      exact .inl (setNode_moves (.appendReply call.peer args resp) rfl handled trivial node)
  | snapshotAnswer _ call args _ resp =>
      exact .inl (setNode_moves (.installReply call.peer args.term resp) rfl rfl trivial node)
  | promote index call args responses found body =>
      exact .inl (setNode_moves (.promote args.term) rfl rfl
        ⟨call, List.mem_of_getElem? found, args, responses, body, rfl, rfl⟩ node)
  | replicate mover term result requests started =>
      exact .inl (setNode_moves (.startReplication term) rfl (by simp [Node.handle, started])
        trivial node)
  | ownSection mover call result isLocal handled =>
      refine .inl (setNode_moves call rfl handled ?_ node)
      cases call <;> trivial
  | restart mover capacity =>
      by_cases same : node = mover
      · subst same
        exact .inr ⟨capacity, by simp [NodeCluster.restart]⟩
      · exact .inl (.inl (setNode_nodes_of_ne cluster _ same))

/-- What makes a node handle `AppendEntries` or compact: the delivery of a call with
these arguments, or its service. -/
def Causes (cluster : NodeCluster n Command) (event : NodeEvent n Command) (node : Fin n) :
    NodeCall n Command → Prop
  | .appendEntries req => ∃ index call responses returned, event = .deliver index ∧
      cluster.calls[index]? = some call ∧ call.peer = node ∧
      call.body = .append req responses returned
  | .snapshot index bytes => event = .snapshot node index bytes
  | _ => True

/-- The section that an event makes a node run, with the call that it concerns. -/
inductive Origin (cluster : NodeCluster n Command) :
    NodeEvent n Command → Fin n → NodeCall n Command → Prop
  | timeout (node : Fin n) : Origin cluster (.electionTimeout node) node .electionTimeout
  | voteRequest {index : Nat} {call : NodePacket n Command} {args : RequestVoteArgs n}
      {responses : List RequestVoteReply} {phase : VotePhase}
      (found : cluster.calls[index]? = some call)
      (body : call.body = .vote args responses phase) :
      Origin cluster (.deliver index) call.peer (.requestVote args)
  | appendRequest {index : Nat} {call : NodePacket n Command}
      {args : AppendEntriesArgs n Command} {responses : List AppendEntriesReply}
      {returned : Bool} (found : cluster.calls[index]? = some call)
      (body : call.body = .append args responses returned) :
      Origin cluster (.deliver index) call.peer (.appendEntries args)
  | snapshotRequest {index : Nat} {call : NodePacket n Command} {args : InstallSnapshotArgs n}
      {responses : List InstallSnapshotReply} {returned : Bool}
      (found : cluster.calls[index]? = some call)
      (body : call.body = .snapshot args responses returned) :
      Origin cluster (.deliver index) call.peer (.installSnapshot args)
  | voteAnswer {index response : Nat} {call : NodePacket n Command} {args : RequestVoteArgs n}
      {responses : List RequestVoteReply} {resp : RequestVoteReply}
      (found : cluster.calls[index]? = some call)
      (body : call.body = .vote args responses .calling) (member : resp ∈ responses) :
      Origin cluster (.answer index response) call.caller (.checkVote args.term resp)
  | appendAnswer {index response : Nat} {call : NodePacket n Command}
      {args : AppendEntriesArgs n Command} {responses : List AppendEntriesReply}
      {resp : AppendEntriesReply} (found : cluster.calls[index]? = some call)
      (body : call.body = .append args responses false) (member : resp ∈ responses) :
      Origin cluster (.answer index response) call.caller (.appendReply call.peer args resp)
  | snapshotAnswer {index response : Nat} {call : NodePacket n Command}
      {args : InstallSnapshotArgs n} {responses : List InstallSnapshotReply}
      {resp : InstallSnapshotReply} (found : cluster.calls[index]? = some call)
      (body : call.body = .snapshot args responses false) (member : resp ∈ responses) :
      Origin cluster (.answer index response) call.caller (.installReply call.peer args.term resp)
  | promote {index : Nat} {call : NodePacket n Command} {args : RequestVoteArgs n}
      {responses : List RequestVoteReply} (found : cluster.calls[index]? = some call)
      (body : call.body = .vote args responses .won) :
      Origin cluster (.promote index) call.caller (.promote args.term)
  | replicate (node : Fin n) (term : Nat) :
      Origin cluster (.startReplication node term) node (.startReplication term)
  | start (node : Fin n) (command : Option Command) :
      Origin cluster (.start node command) node (.start command)
  | snapshot (node : Fin n) (index : Nat) (bytes : Bytes) :
      Origin cluster (.snapshot node index bytes) node (.snapshot index bytes)
  | collect (node : Fin n) : Origin cluster (.collect node) node .collect
  | send (node : Fin n) : Origin cluster (.send node) node .send
  | receive (node : Fin n) : Origin cluster (.receive node) node .receive
  | giveUp (node : Fin n) : Origin cluster (.giveUp node) node .giveUp

theorem Origin.causes {node : Fin n} {call : NodeCall n Command}
    (origin : cluster.Origin event node call) :
    cluster.Causes event node call := by
  cases origin with
  | appendRequest found body => exact ⟨_, _, _, _, rfl, found, rfl, body⟩
  | snapshot => rfl
  | _ => trivial

theorem deliver_origin {index : Nat} (delivered : cluster.deliver index = some next)
    (node : Fin n) :
    next.nodes node = cluster.nodes node ∨
      ∃ call, (cluster.nodes node).handle call = some (next.nodes node) ∧
        cluster.Origin (.deliver index) node call := by
  obtain ⟨call, found, rest⟩ := Option.bind_eq_some_iff.mp delivered
  dsimp only at rest
  split at rest
  · rename_i args responses phase body
    cases rest
    exact setNode_moves (.requestVote args) rfl rfl (.voteRequest found body) node
  · rename_i args responses returned body
    obtain ⟨⟨result, resp⟩, handled, done⟩ := Option.bind_eq_some_iff.mp rest
    cases done
    exact setNode_moves (.appendEntries args) rfl (by simp [Node.handle, handled])
      (.appendRequest found body) node
  · rename_i args responses returned body
    obtain ⟨⟨result, resp⟩, handled, done⟩ := Option.bind_eq_some_iff.mp rest
    cases done
    exact setNode_moves (.installSnapshot args) rfl (by simp [Node.handle, handled])
      (.snapshotRequest found body) node

theorem answer_origin {index response : Nat} (answered : cluster.answer index response = some next)
    (node : Fin n) :
    next.nodes node = cluster.nodes node ∨
      ∃ call, (cluster.nodes node).handle call = some (next.nodes node) ∧
        cluster.Origin (.answer index response) node call := by
  obtain ⟨call, found, rest⟩ := Option.bind_eq_some_iff.mp answered
  dsimp only at rest
  split at rest
  · cases rest
  split at rest
  · rename_i args responses body
    obtain ⟨resp, chosen, result⟩ := Option.bind_eq_some_iff.mp rest
    cases result
    exact setNode_moves (.checkVote args.term resp) rfl rfl
      (.voteAnswer found body (List.mem_of_getElem? chosen)) node
  · rename_i args responses body
    obtain ⟨resp, chosen, further⟩ := Option.bind_eq_some_iff.mp rest
    obtain ⟨result, handled, done⟩ := Option.bind_eq_some_iff.mp further
    cases done
    exact setNode_moves (.appendReply call.peer args resp) rfl handled
      (.appendAnswer found body (List.mem_of_getElem? chosen)) node
  · rename_i args responses body
    obtain ⟨resp, chosen, result⟩ := Option.bind_eq_some_iff.mp rest
    cases result
    exact setNode_moves (.installReply call.peer args.term resp) rfl rfl
      (.snapshotAnswer found body (List.mem_of_getElem? chosen)) node
  · cases rest

theorem onNode_origin {mover : Fin n} {call : NodeCall n Command}
    (ran : cluster.onNode mover call = some next) (origin : cluster.Origin event mover call)
    (node : Fin n) :
    next.nodes node = cluster.nodes node ∨
      ∃ call, (cluster.nodes node).handle call = some (next.nodes node) ∧
        cluster.Origin event node call := by
  obtain ⟨result, handled, rfl⟩ := Option.map_eq_some_iff.mp ran
  exact setNode_moves call rfl handled origin node

/-- Every node stays as it is, runs the section that the event brings, or restarts. -/
theorem step_origin (stepped : cluster.step event = some next) (node : Fin n) :
    next.nodes node = cluster.nodes node ∨
    (∃ call, (cluster.nodes node).handle call = some (next.nodes node) ∧
      cluster.Origin event node call) ∨
    (∃ capacity, next.nodes node =
      Node.newNode node (cluster.nodes node).storage capacity) := by
  rw [← or_assoc]
  cases event with
  | electionTimeout mover =>
      simp only [step, electionTimeout] at stepped
      split at stepped
      · cases stepped
      · rename_i notLeader
        cases stepped
        exact .inl (setNode_moves .electionTimeout rfl (by simp [Node.handle, notLeader])
          (.timeout mover) node)
  | startElection index =>
      obtain ⟨pending, found, rest⟩ := Option.bind_eq_some_iff.mp stepped
      dsimp only at rest
      split at rest
      · cases rest
        exact .inl (.inl rfl)
      split at rest
      all_goals
        cases rest
        exact .inl (.inl rfl)
  | deliver index => exact .inl (deliver_origin stepped node)
  | answer index response => exact .inl (answer_origin stepped node)
  | count index =>
      obtain ⟨call, found, rest⟩ := Option.bind_eq_some_iff.mp stepped
      split at rest
      · cases rest
      split at rest
      · cases rest
        exact .inl (.inl rfl)
      · cases rest
  | promote index =>
      obtain ⟨call, found, rest⟩ := Option.bind_eq_some_iff.mp stepped
      split at rest
      · cases rest
      split at rest
      · rename_i args responses body
        cases rest
        exact .inl (setNode_moves (.promote args.term) rfl rfl (.promote found body) node)
      · cases rest
  | startReplication mover term =>
      obtain ⟨⟨result, requests⟩, started, done⟩ := Option.bind_eq_some_iff.mp stepped
      cases done
      exact .inl (setNode_moves (.startReplication term) rfl (by simp [Node.handle, started])
        (.replicate mover term) node)
  | start mover command => exact .inl (onNode_origin stepped (.start mover command) node)
  | snapshot mover index bytes =>
      exact .inl (onNode_origin stepped (.snapshot mover index bytes) node)
  | collect mover => exact .inl (onNode_origin stepped (.collect mover) node)
  | send mover => exact .inl (onNode_origin stepped (.send mover) node)
  | receive mover => exact .inl (onNode_origin stepped (.receive mover) node)
  | giveUp mover => exact .inl (onNode_origin stepped (.giveUp mover) node)
  | restart mover capacity =>
      cases stepped
      by_cases same : node = mover
      · subst same
        exact .inr ⟨capacity, by simp [NodeCluster.restart]⟩
      · exact .inl (.inl (setNode_nodes_of_ne cluster _ same))

theorem step_nodes (stepped : cluster.step event = some next) (node : Fin n) :
    next.nodes node = cluster.nodes node ∨
    (∃ call, (cluster.nodes node).handle call = some (next.nodes node) ∧
      cluster.Causes event node call) ∨
    (∃ capacity, next.nodes node =
      Node.newNode node (cluster.nodes node).storage capacity) := by
  rcases step_origin stepped node with same | ⟨call, handled, origin⟩ | restarted
  · exact .inl same
  · exact .inr (.inl ⟨call, handled, origin.causes⟩)
  · exact .inr (.inr restarted)

end MultiRaft.NodeCluster
