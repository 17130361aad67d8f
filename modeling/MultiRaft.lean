import MultiRaft.Lib.System
import MultiRaft.Lib.Majority
import MultiRaft.Lib.Balance
import MultiRaft.Lib.Leveling
import MultiRaft.Lib.Ballots
import MultiRaft.Lib.Lists
import MultiRaft.Lib.Replication.Basic
import MultiRaft.Lib.Replication.Matching
import MultiRaft.Lib.Streams
import MultiRaft.Lib.Tally
import MultiRaft.Lib.Poll
import MultiRaft.RaftLog
import MultiRaft.Messages
import MultiRaft.Raft.Server
import MultiRaft.Raft.Cluster
import MultiRaft.Raft.Sections
import MultiRaft.Raft.Step
import MultiRaft.Raft.Persistence
import MultiRaft.Raft.Election
import MultiRaft.Node.Server
import MultiRaft.Node.Cluster
import MultiRaft.Node.Sections
import MultiRaft.Node.Storage
import MultiRaft.Node.Election
import MultiRaft.Node.Step
import MultiRaft.Node.ApplyStream
import MultiRaft.Raft.ApplyStream
import MultiRaft.Lib.Replication.Completeness
import MultiRaft.Raft.Refinement
import MultiRaft.Raft.Replication
import MultiRaft.Raft.Moves
import MultiRaft.Raft.Safety
import MultiRaft.KVRaft.Cluster
import MultiRaft.KVRaft.Step
import MultiRaft.KVRaft.Agreement
import MultiRaft.KVRaft.Clients
import MultiRaft.KVRaft.Handlers
import MultiRaft.KVRaft.Replies
import MultiRaft.KVRaft.ExactlyOnce
import MultiRaft.Lib.Journal
import MultiRaft.ShardCtrler.StateMachine
import MultiRaft.ShardCtrler.Validity
import MultiRaft.ShardKV.Server
import MultiRaft.ShardKV.Cluster
import MultiRaft.ShardKV.Step
import MultiRaft.ShardKV.Proposals
import MultiRaft.ShardKV.Timeline
import MultiRaft.ShardKV.Handover
import MultiRaft.ShardKV.Serving
import MultiRaft.ShardKV.Exactness
import MultiRaft.ShardKV.AtMostOnce
import MultiRaft.Lib.Enumeration
import MultiRaft.ShardKV.Batches
import MultiRaft.ShardKV.Replicas
import MultiRaft.ShardKV.Repeats
import MultiRaft.Node.Durability
import MultiRaft.Node.CrashPoints
import MultiRaft.Raft.CommitRule
import MultiRaft.Raft.LogStep
import MultiRaft.Raft.AppendOnly
import MultiRaft.Raft.ElectionRestriction
import MultiRaft.Raft.LogAccess
import MultiRaft.Raft.TermOrder
import MultiRaft.Node.ApplyBounds
import MultiRaft.Lib.Rounds
import MultiRaft.Node.SnapshotFallback
import MultiRaft.Raft.BackOff
import MultiRaft.Raft.ReplyOrder
import MultiRaft.Node.MatchIndex
import MultiRaft.Node.GrpcTransport
import MultiRaft.QuorumIndex
import MultiRaft.Raft.PlainLog
import MultiRaft.Node.RequestOrder
import MultiRaft.ShardCtrler.Transfers
import MultiRaft.ShardCtrler.RangeOrder
import MultiRaft.Campaign
import MultiRaft.ShardKV.Clerk
import MultiRaft.Lib.DepthFirst
import MultiRaft.Lib.DoublyLinked
import MultiRaft.Lib.Linearization
import MultiRaft.Porcupine.Bitset
import MultiRaft.Porcupine.Checker
import MultiRaft.Porcupine.Entries
import MultiRaft.Porcupine.KvModel
import MultiRaft.Porcupine.Search
import MultiRaft.Porcupine.Simulation
import MultiRaft.Porcupine.Verdict
import MultiRaft.Porcupine.Operations
import MultiRaft.Porcupine.Parallel
import MultiRaft.Porcupine.Termination
import MultiRaft.Porcupine.CheckOperations
import MultiRaft.KVRaft.History
import MultiRaft.KVRaft.Linearizability
import MultiRaft.Raft.Delivery
import MultiRaft.KVRaft.Deployment
import MultiRaft.KVRaft.RaftRefinement
import MultiRaft.ShardKV.OneStore
import MultiRaft.ShardKV.OneServer
import MultiRaft.ShardKV.Requests
import MultiRaft.ShardKV.Linearizability
import MultiRaft.ShardCtrler.Server
