import MultiRaft.RaftLog
import MultiRaft.Lib.Streams

/-!
# Roles, remote calls and apply messages

The argument and reply records of the three remote calls.  The labrpc `Raft`
and the transport of `Node` declare them with the same fields.
-/

namespace MultiRaft

inductive Role where
  | follower
  | candidate
  | leader
  deriving DecidableEq, Repr

/-- What a server sends on its `applyCh`. -/
structure ApplyMsg (Command : Type) where
  commandValid : Bool := false
  command : Option Command := none
  commandIndex : Nat := 0
  snapshotValid : Bool := false
  snapshot : Bytes := []
  snapshotTerm : Nat := 0
  snapshotIndex : Nat := 0
  deriving DecidableEq, Repr

/-- The index a message brings its receiver to. -/
def ApplyMsg.index {Command : Type} (msg : ApplyMsg Command) : Nat :=
  if msg.snapshotValid then msg.snapshotIndex else msg.commandIndex

/-- Every command message has the index after the message before it; a snapshot
may jump. -/
abbrev ApplyMsg.GapFree {Command : Type} (start : Nat) (msgs : List (ApplyMsg Command)) : Prop :=
  Contiguous ApplyMsg.index ApplyMsg.snapshotValid start msgs

structure RequestVoteArgs (n : Nat) where
  term : Nat
  candidateId : Fin n
  lastLogIndex : Nat
  lastLogTerm : Nat
  deriving DecidableEq, Repr

structure RequestVoteReply where
  term : Nat
  voteGranted : Bool
  deriving DecidableEq, Repr

structure AppendEntriesArgs (n : Nat) (Command : Type) where
  term : Nat
  leaderId : Fin n
  prevLogIndex : Nat
  prevLogTerm : Nat
  entries : List (LogEntry Command)
  leaderCommit : Nat
  deriving DecidableEq, Repr

structure AppendEntriesReply where
  term : Nat
  success : Bool := false
  conflictIndex : Nat := 0
  conflictTerm : Nat := 0
  deriving DecidableEq, Repr

structure InstallSnapshotArgs (n : Nat) where
  term : Nat
  leaderId : Fin n
  lastIncludedIndex : Nat
  lastIncludedTerm : Nat
  snapshot : Bytes
  deriving DecidableEq, Repr

structure InstallSnapshotReply where
  term : Nat
  deriving DecidableEq, Repr

end MultiRaft
