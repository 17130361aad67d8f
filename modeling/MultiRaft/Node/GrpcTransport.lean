import Mathlib.Algebra.Group.Int.Defs
import MultiRaft.Node.Sections

/-!
# Nodes that talk over gRPC

`GrpcTransport` writes the requests and responses of `Node`, which are made of Go
ints, into protobuf messages with `int32` fields, and a command of any type into
bytes; the other side reads them back.  gRPC is assumed to carry the messages as they
are.
-/

namespace MultiRaft

namespace Transport

/-- A command other than nil.  A Go string is a sequence of bytes. -/
inductive Value (Other : Type) where
  | bytes (data : Bytes)
  | string (text : Bytes)
  | other (value : Other)
  deriving DecidableEq, Repr

structure LogEntry (Other : Type) where
  term : Int
  commandValid : Bool
  command : Option (Value Other)
  deriving DecidableEq, Repr

structure RequestVoteRequest where
  term : Int
  candidateId : Int
  lastLogIndex : Int
  lastLogTerm : Int
  deriving DecidableEq, Repr

structure RequestVoteResponse where
  term : Int
  voteGranted : Bool
  deriving DecidableEq, Repr

structure AppendEntriesRequest (Other : Type) where
  term : Int
  leaderId : Int
  prevLogIndex : Int
  prevLogTerm : Int
  entries : List (LogEntry Other)
  leaderCommit : Int
  deriving DecidableEq, Repr

structure AppendEntriesResponse where
  term : Int
  success : Bool
  conflictIdx : Int
  conflictTerm : Int
  deriving DecidableEq, Repr

structure InstallSnapshotRequest where
  term : Int
  leaderId : Int
  lastIncludedIndex : Int
  lastIncludedTerm : Int
  snapshot : Bytes
  deriving DecidableEq, Repr

structure InstallSnapshotResponse where
  term : Int
  deriving DecidableEq, Repr

/-- A handler runs on the state of its server; it may panic. -/
structure RPCHandler (State Other : Type) where
  handleRequestVote : State → RequestVoteRequest → Option (State × RequestVoteResponse)
  handleAppendEntries : State → AppendEntriesRequest Other → Option (State × AppendEntriesResponse)
  handleInstallSnapshot : State → InstallSnapshotRequest →
    Option (State × InstallSnapshotResponse)

namespace Pb

structure LogEntry where
  term : Int32
  commandValid : Bool
  command : Bytes

structure RequestVoteRequest where
  term : Int32
  candidateId : Int32
  lastLogIndex : Int32
  lastLogTerm : Int32

structure RequestVoteResponse where
  term : Int32
  voteGranted : Bool

structure AppendEntriesRequest where
  term : Int32
  leaderId : Int32
  prevLogIndex : Int32
  prevLogTerm : Int32
  entries : List LogEntry
  leaderCommit : Int32

structure AppendEntriesResponse where
  term : Int32
  success : Bool
  conflictIdx : Int32
  conflictTerm : Int32

structure InstallSnapshotRequest where
  term : Int32
  leaderId : Int32
  lastIncludedIndex : Int32
  lastIncludedTerm : Int32
  snapshot : Bytes

structure InstallSnapshotResponse where
  term : Int32

end Pb

variable {Other State : Type}

/-- A value of a type other than `[]byte` and `string` is dropped. -/
def marshalCommand : Option (Value Other) → Bytes
  | none => []
  | some (.bytes v) => v
  | some (.string v) => v
  | some (.other _) => []

def unmarshalCommand (data : Bytes) : Option (Value Other) :=
  if data.length = 0 then none else some (.bytes data)

def LogEntry.toPb (e : LogEntry Other) : Pb.LogEntry :=
  { term := .ofInt e.term, commandValid := e.commandValid, command := marshalCommand e.command }

def LogEntry.ofPb (e : Pb.LogEntry) : LogEntry Other :=
  { term := e.term.toInt, commandValid := e.commandValid, command := unmarshalCommand e.command }

def RequestVoteRequest.toPb (req : RequestVoteRequest) : Pb.RequestVoteRequest :=
  { term := .ofInt req.term
    candidateId := .ofInt req.candidateId
    lastLogIndex := .ofInt req.lastLogIndex
    lastLogTerm := .ofInt req.lastLogTerm }

def RequestVoteRequest.ofPb (req : Pb.RequestVoteRequest) : RequestVoteRequest :=
  { term := req.term.toInt
    candidateId := req.candidateId.toInt
    lastLogIndex := req.lastLogIndex.toInt
    lastLogTerm := req.lastLogTerm.toInt }

def RequestVoteResponse.toPb (resp : RequestVoteResponse) : Pb.RequestVoteResponse :=
  { term := .ofInt resp.term, voteGranted := resp.voteGranted }

def RequestVoteResponse.ofPb (resp : Pb.RequestVoteResponse) : RequestVoteResponse :=
  { term := resp.term.toInt, voteGranted := resp.voteGranted }

def AppendEntriesRequest.toPb (req : AppendEntriesRequest Other) : Pb.AppendEntriesRequest :=
  { term := .ofInt req.term
    leaderId := .ofInt req.leaderId
    prevLogIndex := .ofInt req.prevLogIndex
    prevLogTerm := .ofInt req.prevLogTerm
    entries := req.entries.map LogEntry.toPb
    leaderCommit := .ofInt req.leaderCommit }

def AppendEntriesRequest.ofPb (req : Pb.AppendEntriesRequest) : AppendEntriesRequest Other :=
  { term := req.term.toInt
    leaderId := req.leaderId.toInt
    prevLogIndex := req.prevLogIndex.toInt
    prevLogTerm := req.prevLogTerm.toInt
    entries := req.entries.map LogEntry.ofPb
    leaderCommit := req.leaderCommit.toInt }

def AppendEntriesResponse.toPb (resp : AppendEntriesResponse) : Pb.AppendEntriesResponse :=
  { term := .ofInt resp.term
    success := resp.success
    conflictIdx := .ofInt resp.conflictIdx
    conflictTerm := .ofInt resp.conflictTerm }

def AppendEntriesResponse.ofPb (resp : Pb.AppendEntriesResponse) : AppendEntriesResponse :=
  { term := resp.term.toInt
    success := resp.success
    conflictIdx := resp.conflictIdx.toInt
    conflictTerm := resp.conflictTerm.toInt }

def InstallSnapshotRequest.toPb (req : InstallSnapshotRequest) : Pb.InstallSnapshotRequest :=
  { term := .ofInt req.term
    leaderId := .ofInt req.leaderId
    lastIncludedIndex := .ofInt req.lastIncludedIndex
    lastIncludedTerm := .ofInt req.lastIncludedTerm
    snapshot := req.snapshot }

def InstallSnapshotRequest.ofPb (req : Pb.InstallSnapshotRequest) : InstallSnapshotRequest :=
  { term := req.term.toInt
    leaderId := req.leaderId.toInt
    lastIncludedIndex := req.lastIncludedIndex.toInt
    lastIncludedTerm := req.lastIncludedTerm.toInt
    snapshot := req.snapshot }

def InstallSnapshotResponse.toPb (resp : InstallSnapshotResponse) : Pb.InstallSnapshotResponse :=
  { term := .ofInt resp.term }

def InstallSnapshotResponse.ofPb (resp : Pb.InstallSnapshotResponse) : InstallSnapshotResponse :=
  { term := resp.term.toInt }

inductive RpcError where
  | canceled
  deriving DecidableEq, Repr

section

variable {Req Resp PbReq PbResp : Type}

/-- What the three `Send*` of a `grpcEndpoint` do. -/
def send (encode : Req → PbReq) (decode : PbResp → Resp)
    (client : State → PbReq → Option (State × Except RpcError PbResp)) (state : State) (req : Req) :
    Option (State × Except RpcError Resp) := do
  let (state, result) ← client state (encode req)
  match result with
  | .error err => return (state, .error err)
  | .ok resp => return (state, .ok (decode resp))

/-- What the three methods of a `raftServiceServer` do; the transport may have no handler yet. -/
def serve (decode : PbReq → Req) (encode : Resp → PbResp)
    (handler : Option (State → Req → Option (State × Resp))) (state : State) (req : PbReq) :
    Option (State × Except RpcError PbResp) :=
  match handler with
  | none => some (state, .error .canceled)
  | some handle => do
      let (state, resp) ← handle state (decode req)
      return (state, .ok (encode resp))

/-- A call does what the handler does, but for what becomes of the request and of the
response on the way. -/
def Relays (call : State → Req → Option (State × Except RpcError Resp))
    (handle : State → Req → Option (State × Resp)) (arrives : Req → Req)
    (returns : Resp → Resp) : Prop :=
  ∀ state req, call state req =
    (handle state (arrives req)).map fun (next, resp) => (next, .ok (returns resp))

/-- The handler gets what comes out of the conversions, and so does the sender. -/
theorem relays_send_serve (encodeReq : Req → PbReq) (decodeReq : PbReq → Req)
    (encodeResp : Resp → PbResp) (decodeResp : PbResp → Resp)
    (handle : State → Req → Option (State × Resp)) :
    Relays (send encodeReq decodeResp (serve decodeReq encodeResp (some handle))) handle
      (fun req => decodeReq (encodeReq req)) fun resp => decodeResp (encodeResp resp) := by
  intro state req
  simp only [send, serve]
  cases handle state (decodeReq (encodeReq req)) with
  | none => rfl
  | some result => rfl

end

namespace GrpcEndpoint

def sendRequestVote
    (client : State → Pb.RequestVoteRequest →
      Option (State × Except RpcError Pb.RequestVoteResponse)) :
    State → RequestVoteRequest → Option (State × Except RpcError RequestVoteResponse) :=
  send RequestVoteRequest.toPb RequestVoteResponse.ofPb client

def sendAppendEntries
    (client : State → Pb.AppendEntriesRequest →
      Option (State × Except RpcError Pb.AppendEntriesResponse)) :
    State → AppendEntriesRequest Other → Option (State × Except RpcError AppendEntriesResponse) :=
  send AppendEntriesRequest.toPb AppendEntriesResponse.ofPb client

def sendInstallSnapshot
    (client : State → Pb.InstallSnapshotRequest →
      Option (State × Except RpcError Pb.InstallSnapshotResponse)) :
    State → InstallSnapshotRequest → Option (State × Except RpcError InstallSnapshotResponse) :=
  send InstallSnapshotRequest.toPb InstallSnapshotResponse.ofPb client

end GrpcEndpoint

namespace RaftServiceServer

def requestVote (handler : Option (RPCHandler State Other)) :
    State → Pb.RequestVoteRequest → Option (State × Except RpcError Pb.RequestVoteResponse) :=
  serve RequestVoteRequest.ofPb RequestVoteResponse.toPb (handler.map RPCHandler.handleRequestVote)

def appendEntries (handler : Option (RPCHandler State Other)) :
    State → Pb.AppendEntriesRequest → Option (State × Except RpcError Pb.AppendEntriesResponse) :=
  serve AppendEntriesRequest.ofPb AppendEntriesResponse.toPb
    (handler.map RPCHandler.handleAppendEntries)

def installSnapshot (handler : Option (RPCHandler State Other)) :
    State → Pb.InstallSnapshotRequest →
      Option (State × Except RpcError Pb.InstallSnapshotResponse) :=
  serve InstallSnapshotRequest.ofPb InstallSnapshotResponse.toPb
    (handler.map RPCHandler.handleInstallSnapshot)

end RaftServiceServer

abbrev FitsInt32 (x : Int) : Prop := -2 ^ 31 ≤ x ∧ x < 2 ^ 31

@[simp] theorem toInt_ofInt_eq_iff {x : Int} : (Int32.ofInt x).toInt = x ↔ FitsInt32 x := by
  constructor
  · intro same
    rw [← same]
    exact ⟨Int32.le_toInt _, Int32.toInt_lt _⟩
  · rintro ⟨low, high⟩
    exact Int32.toInt_ofInt_of_le low high

/-- The commands that arrive as they left: nil, and byte strings that are not empty. -/
def Carries (command : Option (Value Other)) : Prop :=
  ∀ value, command = some value → ∃ data, data ≠ [] ∧ value = .bytes data

@[simp] theorem unmarshal_marshal_iff {command : Option (Value Other)} :
    unmarshalCommand (marshalCommand command) = command ↔ Carries command := by
  unfold Carries unmarshalCommand
  rcases command with - | data | text | value
  · simp [marshalCommand]
  · cases data <;> simp [marshalCommand]
  · cases text <;> simp [marshalCommand]
  · simp [marshalCommand]

structure LogEntry.Fits (e : LogEntry Other) : Prop where
  term : FitsInt32 e.term
  command : Carries e.command

theorem LogEntry.ofPb_toPb_iff {e : LogEntry Other} : LogEntry.ofPb e.toPb = e ↔ e.Fits := by
  cases e
  simp only [LogEntry.ofPb, LogEntry.toPb, LogEntry.mk.injEq, toInt_ofInt_eq_iff,
    unmarshal_marshal_iff, true_and]
  exact ⟨fun ⟨term, command⟩ => ⟨term, command⟩, fun ⟨term, command⟩ => ⟨term, command⟩⟩

def RequestVoteRequest.Fits (req : RequestVoteRequest) : Prop :=
  FitsInt32 req.term ∧ FitsInt32 req.candidateId ∧ FitsInt32 req.lastLogIndex ∧
    FitsInt32 req.lastLogTerm

def RequestVoteResponse.Fits (resp : RequestVoteResponse) : Prop := FitsInt32 resp.term

def AppendEntriesRequest.Fits (req : AppendEntriesRequest Other) : Prop :=
  FitsInt32 req.term ∧ FitsInt32 req.leaderId ∧ FitsInt32 req.prevLogIndex ∧
    FitsInt32 req.prevLogTerm ∧ (∀ e ∈ req.entries, e.Fits) ∧ FitsInt32 req.leaderCommit

def AppendEntriesResponse.Fits (resp : AppendEntriesResponse) : Prop :=
  FitsInt32 resp.term ∧ FitsInt32 resp.conflictIdx ∧ FitsInt32 resp.conflictTerm

def InstallSnapshotRequest.Fits (req : InstallSnapshotRequest) : Prop :=
  FitsInt32 req.term ∧ FitsInt32 req.leaderId ∧ FitsInt32 req.lastIncludedIndex ∧
    FitsInt32 req.lastIncludedTerm

def InstallSnapshotResponse.Fits (resp : InstallSnapshotResponse) : Prop := FitsInt32 resp.term

theorem RequestVoteRequest.ofPb_toPb_iff {req : RequestVoteRequest} :
    RequestVoteRequest.ofPb req.toPb = req ↔ req.Fits := by
  cases req
  simp only [ofPb, toPb, mk.injEq, toInt_ofInt_eq_iff, Fits]

theorem RequestVoteResponse.ofPb_toPb_iff {resp : RequestVoteResponse} :
    RequestVoteResponse.ofPb resp.toPb = resp ↔ resp.Fits := by
  cases resp
  simp only [ofPb, toPb, mk.injEq, toInt_ofInt_eq_iff, Fits, and_true]

theorem LogEntry.map_ofPb_toPb_iff {entries : List (LogEntry Other)} :
    (entries.map LogEntry.toPb).map LogEntry.ofPb = entries ↔ ∀ e ∈ entries, e.Fits := by
  have same := List.map_inj_left (l := entries) (f := LogEntry.ofPb ∘ LogEntry.toPb) (g := id)
  rw [List.map_id] at same
  rw [List.map_map, same]
  exact forall₂_congr fun e _ => LogEntry.ofPb_toPb_iff

theorem AppendEntriesRequest.ofPb_toPb_iff {req : AppendEntriesRequest Other} :
    AppendEntriesRequest.ofPb req.toPb = req ↔ req.Fits := by
  cases req
  simp only [ofPb, toPb, mk.injEq, toInt_ofInt_eq_iff, LogEntry.map_ofPb_toPb_iff, Fits]

theorem AppendEntriesResponse.ofPb_toPb_iff {resp : AppendEntriesResponse} :
    AppendEntriesResponse.ofPb resp.toPb = resp ↔ resp.Fits := by
  cases resp
  simp only [ofPb, toPb, mk.injEq, toInt_ofInt_eq_iff, Fits, true_and]

theorem InstallSnapshotRequest.ofPb_toPb_iff {req : InstallSnapshotRequest} :
    InstallSnapshotRequest.ofPb req.toPb = req ↔ req.Fits := by
  cases req
  simp only [ofPb, toPb, mk.injEq, toInt_ofInt_eq_iff, Fits, and_true]

theorem InstallSnapshotResponse.ofPb_toPb_iff {resp : InstallSnapshotResponse} :
    InstallSnapshotResponse.ofPb resp.toPb = resp ↔ resp.Fits := by
  cases resp
  simp only [ofPb, toPb, mk.injEq, toInt_ofInt_eq_iff, Fits]

variable {n : Nat}

def LogEntry.ofLog (e : MultiRaft.LogEntry (Value Other)) : LogEntry Other :=
  { term := e.term, commandValid := e.commandValid, command := e.command }

/-- A request of `Node` in Go ints. -/
def AppendEntriesRequest.ofArgs (args : AppendEntriesArgs n (Value Other)) :
    AppendEntriesRequest Other :=
  { term := args.term
    leaderId := args.leaderId.val
    prevLogIndex := args.prevLogIndex
    prevLogTerm := args.prevLogTerm
    entries := args.entries.map LogEntry.ofLog
    leaderCommit := args.leaderCommit }

theorem LogEntry.ofLog_injective :
    Function.Injective (LogEntry.ofLog : MultiRaft.LogEntry (Value Other) → LogEntry Other) := by
  rintro ⟨term, valid, command⟩ ⟨otherTerm, otherValid, otherCommand⟩ same
  simp only [ofLog, mk.injEq, Int.natCast_inj] at same
  obtain ⟨rfl, rfl, rfl⟩ := same
  rfl

/-- The entries of a request arrive as they were sent exactly if each of them fits. -/
theorem entries_eq_iff {args received : AppendEntriesArgs n (Value Other)}
    (arrives : AppendEntriesRequest.ofArgs received =
      .ofPb (AppendEntriesRequest.ofArgs args).toPb) :
    received.entries = args.entries ↔ ∀ e ∈ args.entries, (LogEntry.ofLog e).Fits := by
  have entries : received.entries.map LogEntry.ofLog =
      ((args.entries.map LogEntry.ofLog).map LogEntry.toPb).map LogEntry.ofPb :=
    congrArg AppendEntriesRequest.entries arrives
  rw [← (List.map_injective_iff.mpr LogEntry.ofLog_injective).eq_iff, entries,
    LogEntry.map_ofPb_toPb_iff, List.forall_mem_map]

end Transport

namespace Node

variable {n : Nat} {Command : Type}

/-- A leader sends its log from the probed index on. -/
theorem entryAt_of_replicate {node : Node n Command} {peer : Fin n}
    {args : AppendEntriesArgs n Command} (sent : node.replicate peer = some (.append args))
    (k : Nat) : node.log.entryAt (args.prevLogIndex + 1 + k) = args.entries[k]? := by
  unfold replicate at sent
  split at sent
  · cases sent
  · rename_i beyond
    obtain ⟨prev, found, rest⟩ := Option.bind_eq_some_iff.mp sent
    obtain ⟨entries, read, result⟩ := Option.bind_eq_some_iff.mp rest
    cases result
    obtain ⟨above, below⟩ := RaftLog.entryAt_bounds found
    dsimp only
    rw [RaftLog.tail_eq (by omega) read, List.getElem?_drop]
    by_cases inside : node.nextIndex peer - 1 + 1 + k < node.log.size
    · rw [RaftLog.entryAt_of_mem (by omega) inside]
      congr 1
      omega
    · have beyond : node.log.tailLog.length ≤
          node.nextIndex peer - 1 + 1 - node.log.snapLastIdx + k := by
        simp only [RaftLog.size] at inside
        omega
      rw [List.getElem?_eq_none beyond, Option.eq_none_iff_forall_ne_some]
      intro entry present
      exact inside (RaftLog.entryAt_bounds present).2

theorem entryAt_of_success {node next : Node n Command} {req : AppendEntriesArgs n Command}
    {resp : AppendEntriesReply} (handled : node.handleAppendEntries req = some (next, resp))
    (success : resp.success = true) (k : Nat) :
    next.log.entryAt (req.prevLogIndex + 1 + k) = req.entries[k]? := by
  rcases handleAppendEntries_cases handled with
    ⟨_, _, failed⟩ | ⟨_, _, failed⟩ | ⟨_, prev, log, _, _, written, rfl, _⟩
  · exact nomatch failed.symm.trans success
  · exact nomatch failed.symm.trans success
  · exact RaftLog.entryAt_appendFrom written k

end Node

open Transport

/-- A request or a response arrives as it was sent exactly if its numbers fit into `int32`
and its commands are nil or byte strings that are not empty, and exactly then a follower logs
and applies the commands that the leader logs and applies. -/
theorem grpc_preserves_messages {State Other : Type} (handler : RPCHandler State Other) :
    (Relays (GrpcEndpoint.sendRequestVote (RaftServiceServer.requestVote (some handler)))
        handler.handleRequestVote (fun req => .ofPb req.toPb) (fun resp => .ofPb resp.toPb) ∧
      (∀ req : RequestVoteRequest, .ofPb req.toPb = req ↔ req.Fits) ∧
      ∀ resp : RequestVoteResponse, .ofPb resp.toPb = resp ↔ resp.Fits) ∧
    (Relays (GrpcEndpoint.sendAppendEntries (RaftServiceServer.appendEntries (some handler)))
        handler.handleAppendEntries (fun req => .ofPb req.toPb) (fun resp => .ofPb resp.toPb) ∧
      (∀ req : AppendEntriesRequest Other, .ofPb req.toPb = req ↔ req.Fits) ∧
      ∀ resp : AppendEntriesResponse, .ofPb resp.toPb = resp ↔ resp.Fits) ∧
    (Relays (GrpcEndpoint.sendInstallSnapshot (RaftServiceServer.installSnapshot (some handler)))
        handler.handleInstallSnapshot (fun req => .ofPb req.toPb) (fun resp => .ofPb resp.toPb) ∧
      (∀ req : InstallSnapshotRequest, .ofPb req.toPb = req ↔ req.Fits) ∧
      ∀ resp : InstallSnapshotResponse, .ofPb resp.toPb = resp ↔ resp.Fits) ∧
    ∀ (n : Nat) (leader follower next : Node n (Value Other)) (peer : Fin n)
      (args received : AppendEntriesArgs n (Value Other)) (resp : AppendEntriesReply),
      leader.replicate peer = some (.append args) → FitsInt32 args.prevLogIndex →
      AppendEntriesRequest.ofArgs received = .ofPb (AppendEntriesRequest.ofArgs args).toPb →
      follower.handleAppendEntries received = some (next, resp) → resp.success = true →
      ((∀ e ∈ args.entries, (LogEntry.ofLog e).Fits) ↔ ∀ index, args.prevLogIndex < index →
        next.log.entryAt index = leader.log.entryAt index ∧
          next.commandMsg index = leader.commandMsg index) := by
  refine ⟨⟨relays_send_serve _ _ _ _ _, fun _ => RequestVoteRequest.ofPb_toPb_iff,
      fun _ => RequestVoteResponse.ofPb_toPb_iff⟩,
    ⟨relays_send_serve _ _ _ _ _, fun _ => AppendEntriesRequest.ofPb_toPb_iff,
      fun _ => AppendEntriesResponse.ofPb_toPb_iff⟩,
    ⟨relays_send_serve _ _ _ _ _, fun _ => InstallSnapshotRequest.ofPb_toPb_iff,
      fun _ => InstallSnapshotResponse.ofPb_toPb_iff⟩, ?_⟩
  intro n leader follower next peer args received resp sent fits arrives handled success
  have samePrev : received.prevLogIndex = args.prevLogIndex := by
    have arrived := congrArg AppendEntriesRequest.prevLogIndex arrives
    exact Int.natCast_inj.mp (arrived.trans (toInt_ofInt_eq_iff.mpr fits))
  have followed := Node.entryAt_of_success handled success
  have held := Node.entryAt_of_replicate sent
  rw [samePrev] at followed
  rw [← entries_eq_iff arrives]
  constructor
  · intro same index beyond
    obtain ⟨k, rfl⟩ : ∃ k, index = args.prevLogIndex + 1 + k :=
      ⟨index - (args.prevLogIndex + 1), by omega⟩
    have entry : next.log.entryAt (args.prevLogIndex + 1 + k) =
        leader.log.entryAt (args.prevLogIndex + 1 + k) := by rw [followed, held, same]
    exact ⟨entry, by rw [Node.commandMsg, Node.commandMsg, entry]⟩
  · intro same
    refine List.ext_getElem? fun k => ?_
    rw [← followed, ← held]
    exact (same _ (by omega)).1

/-- A leader of term 2 that has taken a command and sends it to the other node. -/
def commandedLeader (command : Value Nat) : Node 2 (Value Nat) :=
  (Node.start
    { Node.newNode 0 (RaftStorage.empty 2 (Value Nat)) 0 with
      role := .leader, currentTerm := 2, nextIndex := fun _ => 1 } (some command)).1

/-- A request that carries one command. -/
def commandRequest (command : Value Nat) : AppendEntriesArgs 2 (Value Nat) :=
  { term := 2, leaderId := 0, prevLogIndex := 0, prevLogTerm := 0,
    entries := [{ term := 2, commandValid := true, command := some command }], leaderCommit := 0 }

/-- A handler that grants every vote in the term of the request and accepts all else. -/
def agreeingHandler : RPCHandler Unit Nat where
  handleRequestVote state req := some (state, { term := req.term, voteGranted := true })
  handleAppendEntries state req :=
    some (state, { term := req.term, success := true, conflictIdx := 0, conflictTerm := 0 })
  handleInstallSnapshot state req := some (state, { term := req.term })

theorem grpc_preserves_messages_bytes :
    GrpcEndpoint.sendRequestVote (RaftServiceServer.requestVote (some agreeingHandler)) ()
      { term := 2, candidateId := 0, lastLogIndex := 0, lastLogTerm := 0 } =
        some ((), .ok { term := 2, voteGranted := true }) ∧
    ∃ next resp, (Node.newNode 1 (RaftStorage.empty 2 (Value Nat)) 0).handleAppendEntries
        (commandRequest (.bytes [120])) = some (next, resp) ∧
      next.log.entryAt 1 = (commandedLeader (.bytes [120])).log.entryAt 1 := by
  obtain ⟨⟨vote, asked, answers⟩, -, -, logs⟩ := grpc_preserves_messages agreeingHandler
  constructor
  · rw [vote]
    dsimp only
    rw [(asked _).mpr (RequestVoteRequest.ofPb_toPb_iff.mp (by decide))]
    exact congrArg (fun resp => some ((), Except.ok resp))
      ((answers { term := 2, voteGranted := true }).mpr
        (RequestVoteResponse.ofPb_toPb_iff.mp (by decide)))
  · obtain ⟨next, resp, handled, success⟩ : ∃ next resp,
        (Node.newNode 1 (RaftStorage.empty 2 (Value Nat)) 0).handleAppendEntries
          (commandRequest (.bytes [120])) = some (next, resp) ∧ resp.success = true :=
      ⟨_, _, rfl, rfl⟩
    have carried : AppendEntriesRequest.ofArgs (commandRequest (.bytes [120])) =
        .ofPb (AppendEntriesRequest.ofArgs (commandRequest (.bytes [120]))).toPb := by decide
    refine ⟨next, resp, handled, ?_⟩
    exact ((logs 2 (commandedLeader (.bytes [120])) _ next 1 _ _ resp rfl (by decide) carried
      handled success).mp ((entries_eq_iff carried).mp rfl) 1 (by decide)).1

/-- A term beyond `int32` arrives as a negative one, and a follower logs a string command
of the leader as a byte string. -/
theorem grpc_changes_messages :
    RequestVoteRequest.ofPb (RequestVoteRequest.toPb
      { term := 2 ^ 31, candidateId := 0, lastLogIndex := 0, lastLogTerm := 0 }) =
      { term := -2 ^ 31, candidateId := 0, lastLogIndex := 0, lastLogTerm := 0 } ∧
    (commandedLeader (.string [120])).replicate 1 =
      some (.append (commandRequest (.string [120]))) ∧
    AppendEntriesRequest.ofPb
      (AppendEntriesRequest.ofArgs (commandRequest (.string [120]))).toPb =
      .ofArgs (commandRequest (.bytes [120])) ∧
    ∃ next resp, (Node.newNode 1 (RaftStorage.empty 2 (Value Nat)) 0).handleAppendEntries
        (commandRequest (.bytes [120])) = some (next, resp) ∧ resp.success = true ∧
      (next.log.entryAt 1).map (·.command) = some (some (.bytes [120])) ∧
      ((commandedLeader (.string [120])).log.entryAt 1).map (·.command) =
        some (some (.string [120])) :=
  ⟨by decide, rfl, by decide, _, _, rfl, rfl, rfl, rfl⟩

end MultiRaft
