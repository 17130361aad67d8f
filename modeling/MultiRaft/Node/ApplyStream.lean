import MultiRaft.Node.Sections

/-!
# What the consumer of a `Node` receives

`applicationTicker` advances `lastApplied` for a whole batch before it hands the
messages over, and the hand-over drops a message that finds no free slot and no
waiting consumer.  As long as every message finds one, the stream has no gap.
-/

namespace MultiRaft

variable {n : Nat} {Command : Type}

/-- The index that `loadFromStorage` takes over from the snapshot record. -/
def RaftStorage.restoredIndex (storage : RaftStorage n Command) : Nat :=
  match storage.snapshot with
  | some snapshot => snapshot.index
  | none => 0

namespace Node

/-- All messages of the node since it was made, in their order: those the
consumer has, those in the channel and those still to be handed over. -/
def stream (node : Node n Command) : List (ApplyMsg Command) :=
  node.applyCh.received ++ node.applyCh.buffer ++ node.msgs

/-- The stream has no gap and ends at `lastApplied`; a waiting consumer has
emptied the channel. -/
structure Streams (node : Node n Command) (start : Nat) : Prop where
  gapFree : ApplyMsg.GapFree start node.stream
  reached : endIndex ApplyMsg.index start node.stream = node.lastApplied
  drained : node.applyCh.waiting = true → node.applyCh.buffer = []

variable {node next : Node n Command} {start : Nat}

/-- A message may wait in the batch, in the channel or at the consumer; only their order
counts. -/
theorem Streams.of_stream (streams : node.Streams start) (stream : next.stream = node.stream)
    (lastApplied : next.lastApplied = node.lastApplied)
    (drained : next.applyCh.waiting = true → next.applyCh.buffer = []) : next.Streams start := by
  refine ⟨?_, ?_, drained⟩
  · rw [stream]
    exact streams.gapFree
  · rw [stream, lastApplied]
    exact streams.reached

/-- A section that leaves the apply loop alone. -/
structure SameStream (node next : Node n Command) : Prop where
  applyCh : next.applyCh = node.applyCh
  msgs : next.msgs = node.msgs
  lastApplied : next.lastApplied = node.lastApplied

theorem Streams.of_same (streams : node.Streams start) (same : SameStream node next) :
    next.Streams start := by
  have stream : next.stream = node.stream := by
    rw [Node.stream, Node.stream, same.applyCh, same.msgs]
  refine streams.of_stream stream same.lastApplied ?_
  rw [same.applyCh]
  exact streams.drained

theorem sameStream_becomeFollowerLocked (node : Node n Command) {term : Nat}
    (current : node.currentTerm ≤ term) : SameStream node (node.becomeFollowerLocked term) := by
  rcases node.becomeFollowerLocked_cases current with ⟨_, result⟩ | ⟨_, result⟩
  all_goals
    rw [result]
    exact ⟨rfl, rfl, rfl⟩

theorem sameStream_aligned (node : Node n Command) {term : Nat}
    (current : node.currentTerm ≤ term) : SameStream node (node.aligned term) := by
  rcases node.aligned_cases current with ⟨_, result⟩ | ⟨_, result⟩
  all_goals
    rw [result]
    exact ⟨rfl, rfl, rfl⟩

/-- The calls that belong to the apply loop, its consumer or the process. -/
def touchesStream : NodeCall n Command → Bool
  | .collect | .send | .receive | .giveUp | .restart _ => true
  | _ => false

theorem sameStream_handle {call : NodeCall n Command} (elsewhere : touchesStream call = false)
    (handled : node.handle call = some next) :
    SameStream node next := by
  cases handle_outcome handled with
  | follow _ term current => exact node.sameStream_becomeFollowerLocked current
  | vote req current =>
      have same := node.sameStream_aligned current
      exact ⟨same.applyCh, same.msgs, same.lastApplied⟩
  | adopt req prev log current =>
      have same := node.sameStream_becomeFollowerLocked current
      exact ⟨same.applyCh, same.msgs, same.lastApplied⟩
  | install req log current =>
      have same := node.sameStream_becomeFollowerLocked current
      exact ⟨same.applyCh, same.msgs, same.lastApplied⟩
  | stay | stand | promote | replicate | probe | count | commit | ship | start | compact =>
      exact ⟨rfl, rfl, rfl⟩
  | collectSnapshot | collect | send | receive | giveUp | restart => cases elsewhere

theorem commandMsg_index (position : Nat) (msg : ApplyMsg Command)
    (made : node.commandMsg position = some msg) : msg.index = position := by
  rcases Option.map_eq_some_iff.mp made with ⟨entry, _, rfl⟩
  rfl

/-- A batch that continues from `lastApplied` continues the stream. -/
theorem Streams.extend (streams : node.Streams start) (idle : node.msgs = [])
    (applyCh : next.applyCh = node.applyCh) (gapFree : ApplyMsg.GapFree node.lastApplied next.msgs)
    (reached : endIndex ApplyMsg.index node.lastApplied next.msgs = next.lastApplied) :
    next.Streams start := by
  have extended : next.stream = node.stream ++ next.msgs := by
    rw [stream, stream, applyCh, idle, List.append_nil]
  rw [← streams.reached] at gapFree reached
  refine ⟨?_, ?_, ?_⟩
  · rw [extended]
    exact (contiguous_append _ _ _ _ _).mpr ⟨streams.gapFree, gapFree⟩
  · rw [extended, endIndex_append]
    exact reached
  · rw [applyCh]
    exact streams.drained

/-- The ticker collects a stretch that continues the stream, or a snapshot and a
stretch that continues it. -/
theorem Streams.collect (streams : node.Streams start) (collected : node.collect = some next) :
    next.Streams start := by
  rcases collect_cases collected with ⟨idle, commands, taken⟩
  rcases taken with ⟨_, made, rfl⟩ | ⟨_, made, rfl⟩
  · rcases contiguous_of_range ApplyMsg.index ApplyMsg.snapshotValid commandMsg_index made with
      ⟨contiguous, reached⟩
    refine streams.extend idle rfl ⟨?_, contiguous⟩ (Eq.trans reached ?_)
    · intro command
      cases command
    · dsimp only
      omega
  · rcases contiguous_of_range ApplyMsg.index ApplyMsg.snapshotValid commandMsg_index made with
      ⟨contiguous, reached⟩
    refine streams.extend idle rfl contiguous (Eq.trans reached ?_)
    dsimp only
    omega

/-- Handing a message over keeps the stream if the channel takes it. -/
theorem Streams.send (streams : node.Streams start) (ready : node.applyCh.ready = true)
    (sent : node.send = some next) : next.Streams start := by
  rcases send_cases sent with ⟨msg, rest, handing, rfl⟩
  have whole : node.stream =
      node.applyCh.received ++ node.applyCh.buffer ++ msg :: rest := by
    rw [stream, handing]
  by_cases waiting : node.applyCh.waiting = true
  · have empty := streams.drained waiting
    have kept : stream { node with msgs := rest, applyCh := node.applyCh.trySend msg } =
        node.stream := by
      rw [whole, empty]
      simp [stream, ApplyCh.trySend, waiting, empty]
    refine streams.of_stream kept rfl ?_
    intro impossible
    simp [ApplyCh.trySend, waiting] at impossible
  · have room : node.applyCh.buffer.length < node.applyCh.capacity := by
      simpa [ApplyCh.ready, waiting] using ready
    have kept : stream { node with msgs := rest, applyCh := node.applyCh.trySend msg } =
        node.stream := by
      rw [whole]
      simp [stream, ApplyCh.trySend, waiting, room]
    refine streams.of_stream kept rfl ?_
    intro impossible
    simp [ApplyCh.trySend, waiting, room] at impossible

theorem Streams.receive (streams : node.Streams start) :
    Streams { node with applyCh := node.applyCh.receive } start := by
  have kept : stream { node with applyCh := node.applyCh.receive } = node.stream := by
    cases held : node.applyCh.buffer with
    | nil => simp [stream, ApplyCh.receive, held]
    | cons msg rest => simp [stream, ApplyCh.receive, held]
  refine streams.of_stream kept rfl ?_
  intro waiting
  cases held : node.applyCh.buffer with
  | nil => simp [ApplyCh.receive, held]
  | cons msg rest =>
      simp only [ApplyCh.receive, held] at waiting
      have empty := streams.drained waiting
      rw [held] at empty
      cases empty

theorem Streams.giveUp (streams : node.Streams start) :
    Streams { node with applyCh := node.applyCh.giveUp } start := by
  refine ⟨streams.gapFree, streams.reached, ?_⟩
  intro waiting
  cases waiting

/-- A new node has sent nothing and stands at its snapshot. -/
theorem newNode_stream (me : Fin n) (storage : RaftStorage n Command) (capacity : Nat) :
    (newNode me storage capacity).applyCh = ApplyCh.make capacity ∧
      (newNode me storage capacity).msgs = [] ∧
      (newNode me storage capacity).lastApplied = storage.restoredIndex := by
  have restored : ∀ node : Node n Command, node.storage = storage →
      node.commitIndex = 0 → node.lastApplied = 0 →
      (loadFromStorage node).applyCh = node.applyCh ∧ (loadFromStorage node).msgs = node.msgs ∧
        (loadFromStorage node).lastApplied = storage.restoredIndex := by
    rintro node rfl nothing none
    cases record : node.storage.snapshot with
    | none =>
        cases state : node.storage.raftState <;>
          simp [loadFromStorage, RaftStorage.restoredIndex, state, record, none]
    | some snapshot =>
        rcases Nat.eq_zero_or_pos snapshot.index with zero | positive
        · cases state : node.storage.raftState <;>
            simp [loadFromStorage, RaftStorage.restoredIndex, state, record, nothing, none, zero]
        · cases state : node.storage.raftState <;>
            simp [loadFromStorage, RaftStorage.restoredIndex, state, record, nothing, positive]
  exact restored _ rfl rfl rfl

theorem streams_newNode (me : Fin n) (storage : RaftStorage n Command) (capacity : Nat) :
    (newNode me storage capacity).Streams storage.restoredIndex := by
  rcases newNode_stream me storage capacity with ⟨applyCh, msgs, lastApplied⟩
  have empty : (newNode me storage capacity).stream = [] := by
    rw [stream, applyCh, msgs]
    rfl
  refine ⟨?_, ?_, ?_⟩
  · rw [empty]
    trivial
  · rw [empty, lastApplied]
    rfl
  · rw [applyCh]
    intro waiting
    cases waiting

/-- The process goes on, and a message is handed over only when the consumer is
blocked in a receive or the channel has a free slot. -/
def keepsUp (node : Node n Command) (call : NodeCall n Command) : Bool :=
  match call with
  | .restart _ => false
  | .send => node.applyCh.ready
  | _ => true

theorem Streams.handle {call : NodeCall n Command} (streams : node.Streams start)
    (keeps : node.keepsUp call = true) (handled : node.handle call = some next) :
    next.Streams start := by
  cases touches : touchesStream call with
  | false => exact streams.of_same (sameStream_handle touches handled)
  | true =>
      cases call with
      | collect => exact streams.collect handled
      | send => exact streams.send keeps handled
      | receive =>
          cases handled
          exact streams.receive
      | giveUp =>
          cases handled
          exact streams.giveUp
      | restart capacity => cases keeps
      | _ => cases touches

/-- If no message is ever handed to a channel that cannot take it, what the
consumer received since the start has no gap, and what it has not received yet
continues without one up to `lastApplied`. -/
theorem received_gapFree {me : Fin n} {storage : RaftStorage n Command} {capacity : Nat}
    {node : Node n Command}
    (run : (nodeSystem n Command).Run (fun node call => node.keepsUp call = true)
      (newNode me storage capacity) node) :
    ApplyMsg.GapFree storage.restoredIndex node.applyCh.received ∧
      ApplyMsg.GapFree storage.restoredIndex node.stream ∧
      endIndex ApplyMsg.index storage.restoredIndex node.stream = node.lastApplied := by
  have step : ∀ (node : Node n Command) call next, node.Streams storage.restoredIndex →
      node.keepsUp call = true → (nodeSystem n Command).step node call = some next →
      next.Streams storage.restoredIndex :=
    fun _ _ _ streams keeps handled => streams.handle keeps handled
  have streams := run.preserves step (streams_newNode me storage capacity)
  have whole := streams.gapFree
  rw [stream, List.append_assoc] at whole
  exact ⟨((contiguous_append _ _ _ _ _).mp whole).1, streams.gapFree, streams.reached⟩

/-- Two entries of a leader of term 2, committed at once. -/
def committedAppend : AppendEntriesArgs 2 Nat :=
  { term := 2, leaderId := 1, prevLogIndex := 0, prevLogTerm := 0,
    entries := [{ term := 2, commandValid := true, command := some 7 },
                { term := 2, commandValid := true, command := some 8 }],
    leaderCommit := 2 }

/-- A node with a channel of two slots whose consumer takes both commands. -/
def drainedNode : Node 2 Nat :=
  (nodeSystem 2 Nat).after keepsUp (newNode 0 (RaftStorage.empty 2 Nat) 2)
    [.appendEntries committedAppend, .collect, .send, .send, .receive, .receive]

theorem received_gapFree_drained :
    drainedNode.applyCh.received.map (·.commandIndex) = [1, 2] ∧
      ApplyMsg.GapFree (RaftStorage.empty 2 Nat).restoredIndex drainedNode.applyCh.received :=
  ⟨rfl, (received_gapFree (System.run_after keepsUp _ _)).1⟩

/-- A channel without a buffer, and a consumer that comes to receive between the
two messages: the first command is dropped, and the second is the first message
the consumer gets. -/
theorem received_skips_command :
    (((nodeSystem 2 Nat).execute (fun _ _ => true) (newNode 0 (RaftStorage.empty 2 Nat) 0)
        [.appendEntries committedAppend, .collect, .send, .receive, .send]).map
      fun node => (node.applyCh.received.map (·.commandIndex), node.lastApplied)) =
      some ([2], 2) ∧
    ¬ ApplyMsg.GapFree 0 ((nodeSystem 2 Nat).after (fun _ _ => true)
        (newNode 0 (RaftStorage.empty 2 Nat) 0)
        [.appendEntries committedAppend, .collect, .send, .receive,
         .send]).applyCh.received := by
  refine ⟨rfl, ?_⟩
  intro gapFree
  exact absurd (gapFree.1 rfl) (by decide)

end Node

end MultiRaft
