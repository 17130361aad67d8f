import MultiRaft.Raft.Server
import MultiRaft.Lib.System

/-!
# A cluster of labrpc Raft servers

The network holds the remote calls in flight, requests and replies alike.  The
scheduler delivers any of them at any time: order and delay are free, and a
call that is never delivered is a lost one.  As with labrpc, a request is
handled at most once and gives at most one reply.

The reply part of a call belongs to a goroutine of the caller, so it dies with
the caller's process; `incarnation` counts restarts to tell.  Messages are
values: what a server does to its log after sending does not reach them.
-/

namespace MultiRaft

/-- A call in flight; the reply keeps the arguments its callback closes over. -/
inductive Body (n : Nat) (Command : Type) where
  | voteRequest (args : RequestVoteArgs n)
  | voteReply (args : RequestVoteArgs n) (reply : RequestVoteReply)
  | appendRequest (args : AppendEntriesArgs n Command)
  | appendReply (args : AppendEntriesArgs n Command) (reply : AppendEntriesReply)
  | snapshotRequest (args : InstallSnapshotArgs n)
  | snapshotReply (args : InstallSnapshotArgs n) (reply : InstallSnapshotReply)

structure Packet (n : Nat) (Command : Type) where
  caller : Fin n
  incarnation : Nat
  peer : Fin n
  body : Body n Command

/-- A goroutine `startElection(term)` that has not taken the lock yet. -/
structure PendingElection (n : Nat) where
  candidate : Fin n
  incarnation : Nat
  term : Nat

/-- `votes server term` is the closure variable of the election the server
started in the term.  `delivered` is the history of all sends on any `applyCh`. -/
structure Cluster (n : Nat) (Command : Type) where
  servers : Fin n → Raft n Command
  incarnation : Fin n → Nat
  elections : List (PendingElection n)
  votes : Fin n → Nat → Nat
  net : List (Packet n Command)
  delivered : List (Fin n × ApplyMsg Command)

/-- What the scheduler and the service can make happen. -/
inductive Event (n : Nat) (Command : Type) where
  | electionTimeout (server : Fin n)
  | startElection (pending : Nat)
  | deliver (packet : Nat)
  | startReplication (server : Fin n) (term : Nat)
  | start (server : Fin n) (command : Option Command)
  | snapshot (server : Fin n) (index : Nat) (snapshot : Bytes)
  | collect (server : Fin n)
  | send (server : Fin n)
  | finish (server : Fin n)
  | restart (server : Fin n)

namespace Cluster

variable {n : Nat} {Command : Type}

def setServer (cluster : Cluster n Command) (server : Fin n) (rf : Raft n Command) :
    Cluster n Command :=
  { cluster with servers := Function.update cluster.servers server rf }

/-- `electionTicker` finds the timer expired. -/
def electionTimeout (cluster : Cluster n Command) (server : Fin n) :
    Option (Cluster n Command) :=
  if (cluster.servers server).role = .leader then none
  else
    let rf := (cluster.servers server).becomeCandidateLocked
    some { cluster.setServer server rf with
      elections := cluster.elections ++
        [{ candidate := server, incarnation := cluster.incarnation server,
           term := rf.currentTerm }] }

def startElection (cluster : Cluster n Command) (index : Nat) : Option (Cluster n Command) := do
  let pending ← cluster.elections[index]?
  let cluster := { cluster with elections := cluster.elections.eraseIdx index }
  let rf := cluster.servers pending.candidate
  if pending.incarnation ≠ cluster.incarnation pending.candidate then return cluster
  else if rf.contextLostLocked .candidate pending.term then return cluster
  else return { cluster with
    votes := Function.update cluster.votes pending.candidate
      (Function.update (cluster.votes pending.candidate) pending.term 1)
    net := cluster.net ++ rf.voteRequests.map fun request =>
      { caller := pending.candidate, incarnation := pending.incarnation,
        peer := request.1, body := .voteRequest request.2 } }

/-- Run the reply part of a call, unless the process that made it is gone. -/
def onReply (cluster : Cluster n Command) (index : Nat) (packet : Packet n Command)
    (run : Cluster n Command → Option (Cluster n Command)) : Option (Cluster n Command) :=
  let cluster := { cluster with net := cluster.net.eraseIdx index }
  if packet.incarnation ≠ cluster.incarnation packet.caller then some cluster
  else run cluster

def deliver (cluster : Cluster n Command) (index : Nat) : Option (Cluster n Command) := do
  let packet ← cluster.net[index]?
  let caller := packet.caller
  let peer := packet.peer
  match packet.body with
  | .voteRequest args =>
      let (rf, reply) := (cluster.servers peer).requestVote args
      return { cluster.setServer peer rf with
        net := cluster.net.set index { packet with body := .voteReply args reply } }
  | .appendRequest args =>
      let (rf, reply) ← (cluster.servers peer).appendEntries args
      return { cluster.setServer peer rf with
        net := cluster.net.set index { packet with body := .appendReply args reply } }
  | .snapshotRequest args =>
      let (rf, reply) ← (cluster.servers peer).installSnapshot args
      return { cluster.setServer peer rf with
        net := cluster.net.set index { packet with body := .snapshotReply args reply } }
  | .voteReply args reply =>
      cluster.onReply index packet fun cluster =>
        let (rf, votes) := (cluster.servers caller).voteReply args.term
          (cluster.votes caller args.term) reply
        some { cluster.setServer caller rf with
          votes := Function.update cluster.votes caller
            (Function.update (cluster.votes caller) args.term votes) }
  | .appendReply args reply =>
      cluster.onReply index packet fun cluster => do
        return cluster.setServer caller
          (← (cluster.servers caller).appendReply peer args reply)
  | .snapshotReply args reply =>
      cluster.onReply index packet fun cluster =>
        some (cluster.setServer caller
          ((cluster.servers caller).installReply peer args reply))

/-- One round of `replicationTicker(term)`.  The goroutine exists whenever the
server leads the term, and otherwise the round does nothing. -/
def startReplication (cluster : Cluster n Command) (server : Fin n) (term : Nat) :
    Option (Cluster n Command) := do
  let (rf, requests) ← (cluster.servers server).startReplication term
  return { cluster.setServer server rf with
    net := cluster.net ++ requests.map fun request =>
      { caller := server, incarnation := cluster.incarnation server, peer := request.1,
        body := match request.2 with
          | .append args => .appendRequest args
          | .snapshot args => .snapshotRequest args } }

def send (cluster : Cluster n Command) (server : Fin n) : Option (Cluster n Command) := do
  let (rf, msg) ← (cluster.servers server).send
  return { cluster.setServer server rf with
    delivered := cluster.delivered ++ [(server, msg)] }

/-- The process stops and `Make` runs again on its `Persister`. -/
def restart (cluster : Cluster n Command) (server : Fin n) : Cluster n Command :=
  { cluster.setServer server (Raft.make server (cluster.servers server).persister) with
    incarnation :=
      Function.update cluster.incarnation server (cluster.incarnation server + 1) }

def step (cluster : Cluster n Command) : Event n Command → Option (Cluster n Command)
  | .electionTimeout server => cluster.electionTimeout server
  | .startElection pending => cluster.startElection pending
  | .deliver packet => cluster.deliver packet
  | .startReplication server term => cluster.startReplication server term
  | .start server command =>
      some (cluster.setServer server ((cluster.servers server).start command).1)
  | .snapshot server index snapshot =>
      ((cluster.servers server).snapshot index snapshot).map (cluster.setServer server)
  | .collect server => (cluster.servers server).collect.map (cluster.setServer server)
  | .send server => cluster.send server
  | .finish server => (cluster.servers server).finish.map (cluster.setServer server)
  | .restart server => some (cluster.restart server)

def initial (n : Nat) (Command : Type) : Cluster n Command where
  servers server := Raft.make server (makePersister n Command)
  incarnation _ := 0
  elections := []
  votes _ _ := 0
  net := []
  delivered := []

@[simp]
theorem setServer_servers_self (cluster : Cluster n Command) (server : Fin n)
    (rf : Raft n Command) : (cluster.setServer server rf).servers server = rf := by
  simp [setServer]

theorem setServer_servers_of_ne (cluster : Cluster n Command) {server other : Fin n}
    (rf : Raft n Command) (different : other ≠ server) :
    (cluster.setServer server rf).servers other = cluster.servers other := by
  simp [setServer, Function.update_of_ne different]

end Cluster

/-- The labrpc cluster of `n` peers as a transition system. -/
def raftSystem (n : Nat) (Command : Type) :
    System (Cluster n Command) (Event n Command) where
  init cluster := cluster = Cluster.initial n Command
  step := Cluster.step

end MultiRaft
