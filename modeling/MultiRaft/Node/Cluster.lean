import MultiRaft.Node.Server

/-!
# A cluster of `Node`s over a `Transport`

A call of the transport is made by a goroutine of its caller.  Its request may
reach the peer any number of times, each time giving a response, and the call
returns at most one of them.  A call that never returns is a lost one.  A
stopped node takes no further step, its goroutines included.
-/

namespace MultiRaft

/-- Where a vote goroutine of `startElection` stands: waiting for its call to
return, before `votes++`, before the promotion, or at its end. -/
inductive VotePhase where
  | calling
  | counting
  | won
  | done
  deriving DecidableEq, Repr

/-- A call with the responses its request got so far. -/
inductive NodeBody (n : Nat) (Command : Type) where
  | vote (args : RequestVoteArgs n) (responses : List RequestVoteReply) (phase : VotePhase)
  | append (args : AppendEntriesArgs n Command) (responses : List AppendEntriesReply)
      (returned : Bool)
  | snapshot (args : InstallSnapshotArgs n) (responses : List InstallSnapshotReply)
      (returned : Bool)

structure NodePacket (n : Nat) (Command : Type) where
  caller : Fin n
  incarnation : Nat
  peer : Fin n
  body : NodeBody n Command

/-- A goroutine `startElection(term)` that has not taken the lock yet. -/
structure NodeElection (n : Nat) where
  candidate : Fin n
  incarnation : Nat
  term : Nat

/-- `votes node term` is the closure variable of the election the node started
in the term. -/
structure NodeCluster (n : Nat) (Command : Type) where
  nodes : Fin n → Node n Command
  incarnation : Fin n → Nat
  elections : List (NodeElection n)
  votes : Fin n → Nat → Nat
  calls : List (NodePacket n Command)

/-- `deliver` brings a request to its peer; `answer call response` lets the call
return with that response.  `count` and `promote` are the later steps of a vote
goroutine. -/
inductive NodeEvent (n : Nat) (Command : Type) where
  | electionTimeout (node : Fin n)
  | startElection (pending : Nat)
  | deliver (call : Nat)
  | answer (call response : Nat)
  | count (call : Nat)
  | promote (call : Nat)
  | startReplication (node : Fin n) (term : Nat)
  | start (node : Fin n) (command : Option Command)
  | snapshot (node : Fin n) (index : Nat) (snapshot : Bytes)
  | collect (node : Fin n)
  | send (node : Fin n)
  | receive (node : Fin n)
  | giveUp (node : Fin n)
  | restart (node : Fin n) (capacity : Nat)

namespace NodeCluster

variable {n : Nat} {Command : Type}

def setNode (cluster : NodeCluster n Command) (node : Fin n) (next : Node n Command) :
    NodeCluster n Command :=
  { cluster with nodes := Function.update cluster.nodes node next }

def setCall (cluster : NodeCluster n Command) (index : Nat) (call : NodePacket n Command) :
    NodeCluster n Command :=
  { cluster with calls := cluster.calls.set index call }

/-- `electionTicker` finds the timer expired. -/
def electionTimeout (cluster : NodeCluster n Command) (node : Fin n) :
    Option (NodeCluster n Command) :=
  if (cluster.nodes node).role = .leader then none
  else
    let next := (cluster.nodes node).becomeCandidateLocked
    some { cluster.setNode node next with
      elections := cluster.elections ++
        [{ candidate := node, incarnation := cluster.incarnation node,
           term := next.currentTerm }] }

def startElection (cluster : NodeCluster n Command) (index : Nat) :
    Option (NodeCluster n Command) := do
  let pending ← cluster.elections[index]?
  let cluster := { cluster with elections := cluster.elections.eraseIdx index }
  let node := cluster.nodes pending.candidate
  if pending.incarnation ≠ cluster.incarnation pending.candidate then return cluster
  else if node.contextLostLocked .candidate pending.term then return cluster
  else return { cluster with
    votes := Function.update cluster.votes pending.candidate
      (Function.update (cluster.votes pending.candidate) pending.term 1)
    calls := cluster.calls ++ node.voteRequests.map fun request =>
      { caller := pending.candidate, incarnation := pending.incarnation,
        peer := request.1, body := .vote request.2 [] .calling } }

/-- The handler of the peer runs and its response is on the way back. -/
def deliver (cluster : NodeCluster n Command) (index : Nat) :
    Option (NodeCluster n Command) := do
  let call ← cluster.calls[index]?
  let peer := call.peer
  match call.body with
  | .vote args responses phase =>
      let (node, resp) := (cluster.nodes peer).handleRequestVote args
      return (cluster.setNode peer node).setCall index
        { call with body := .vote args (responses ++ [resp]) phase }
  | .append args responses returned =>
      let (node, resp) ← (cluster.nodes peer).handleAppendEntries args
      return (cluster.setNode peer node).setCall index
        { call with body := .append args (responses ++ [resp]) returned }
  | .snapshot args responses returned =>
      let (node, resp) ← (cluster.nodes peer).handleInstallSnapshot args
      return (cluster.setNode peer node).setCall index
        { call with body := .snapshot args (responses ++ [resp]) returned }

/-- The call returns and its goroutine runs its next critical section. -/
def answer (cluster : NodeCluster n Command) (index response : Nat) :
    Option (NodeCluster n Command) := do
  let call ← cluster.calls[index]?
  if call.incarnation ≠ cluster.incarnation call.caller then none
  else
    let node := cluster.nodes call.caller
    match call.body with
    | .vote args responses .calling => do
        let resp ← responses[response]?
        let (node, continues) := node.checkVote args.term resp
        let phase : VotePhase := if continues then .counting else .done
        return (cluster.setNode call.caller node).setCall index
          { call with body := .vote args responses phase }
    | .append args responses false => do
        let resp ← responses[response]?
        let node ← node.appendReply call.peer args resp
        return (cluster.setNode call.caller node).setCall index
          { call with body := .append args responses true }
    | .snapshot args responses false => do
        let resp ← responses[response]?
        return (cluster.setNode call.caller (node.installReply call.peer args.term resp)).setCall
          index { call with body := .snapshot args responses true }
    | _ => none

/-- `votes++` and the comparison, under `votesMu` and without `n.mu`. -/
def count (cluster : NodeCluster n Command) (index : Nat) : Option (NodeCluster n Command) := do
  let call ← cluster.calls[index]?
  if call.incarnation ≠ cluster.incarnation call.caller then none
  else match call.body with
    | .vote args responses .counting =>
        let votes := cluster.votes call.caller args.term + 1
        let phase : VotePhase := if votes > n / 2 then .won else .done
        let cluster := cluster.setCall index { call with body := .vote args responses phase }
        return { cluster with
          votes := Function.update cluster.votes call.caller
            (Function.update (cluster.votes call.caller) args.term votes) }
    | _ => none

def promote (cluster : NodeCluster n Command) (index : Nat) :
    Option (NodeCluster n Command) := do
  let call ← cluster.calls[index]?
  if call.incarnation ≠ cluster.incarnation call.caller then none
  else match call.body with
    | .vote args responses .won =>
        return (cluster.setNode call.caller
          ((cluster.nodes call.caller).promote args.term)).setCall index
          { call with body := .vote args responses .done }
    | _ => none

/-- One round of `replicationTicker(term)`. -/
def startReplication (cluster : NodeCluster n Command) (node : Fin n) (term : Nat) :
    Option (NodeCluster n Command) := do
  let (next, requests) ← (cluster.nodes node).startReplication term
  return { cluster.setNode node next with
    calls := cluster.calls ++ requests.map fun request =>
      { caller := node, incarnation := cluster.incarnation node, peer := request.1,
        body := match request.2 with
          | .append args => .append args [] false
          | .snapshot args => .snapshot args [] false } }

/-- The process of a node ends, with all its goroutines, and a new one calls `NewNode` on the
same storage. -/
def restart (cluster : NodeCluster n Command) (node : Fin n) (capacity : Nat) :
    NodeCluster n Command :=
  { cluster.setNode node (Node.newNode node (cluster.nodes node).storage capacity) with
    incarnation := Function.update cluster.incarnation node (cluster.incarnation node + 1) }

/-- A section of one node that involves no other part of the cluster. -/
def onNode (cluster : NodeCluster n Command) (node : Fin n) (call : NodeCall n Command) :
    Option (NodeCluster n Command) :=
  ((cluster.nodes node).handle call).map (cluster.setNode node)

def step (cluster : NodeCluster n Command) : NodeEvent n Command → Option (NodeCluster n Command)
  | .electionTimeout node => cluster.electionTimeout node
  | .startElection pending => cluster.startElection pending
  | .deliver call => cluster.deliver call
  | .answer call response => cluster.answer call response
  | .count call => cluster.count call
  | .promote call => cluster.promote call
  | .startReplication node term => cluster.startReplication node term
  | .start node command => cluster.onNode node (.start command)
  | .snapshot node index snapshot => cluster.onNode node (.snapshot index snapshot)
  | .collect node => cluster.onNode node .collect
  | .send node => cluster.onNode node .send
  | .receive node => cluster.onNode node .receive
  | .giveUp node => cluster.onNode node .giveUp
  | .restart node capacity => some (cluster.restart node capacity)

/-- All nodes on empty storages, with channels of any capacities. -/
def initial (n : Nat) (Command : Type) (capacity : Fin n → Nat) : NodeCluster n Command where
  nodes node := Node.newNode node (RaftStorage.empty n Command) (capacity node)
  incarnation _ := 0
  elections := []
  votes _ _ := 0
  calls := []

@[simp]
theorem setNode_nodes_self (cluster : NodeCluster n Command) (node : Fin n)
    (next : Node n Command) : (cluster.setNode node next).nodes node = next := by
  simp [setNode]

theorem setNode_nodes_of_ne (cluster : NodeCluster n Command) {node other : Fin n}
    (next : Node n Command) (different : other ≠ node) :
    (cluster.setNode node next).nodes other = cluster.nodes other := by
  simp [setNode, Function.update_of_ne different]

end NodeCluster

def nodeClusterSystem (n : Nat) (Command : Type) :
    System (NodeCluster n Command) (NodeEvent n Command) where
  init cluster := ∃ capacity, cluster = NodeCluster.initial n Command capacity
  step := NodeCluster.step

end MultiRaft
