import MultiRaft.Raft.ApplyStream
import MultiRaft.Raft.LogStep
import MultiRaft.Raft.Safety

/-!
# What a service sees of a labrpc cluster

As long as nobody calls `Snapshot`, a server delivers the commands of its log from the first
one on, each with its index.  What any two servers deliver between their restarts, at
whatever times, is one sequence as far as both have come.  A service that depends only on
what it receives on `applyCh` is therefore replicated.
-/

namespace MultiRaft

variable {n : Nat} {Command : Type}

/-- All entries of a log that was never compacted. -/
def RaftLog.entries (rl : RaftLog Command) : List (LogEntry Command) := rl.tailLog.drop 1

theorem RaftLog.Represents.entries {rl : RaftLog Command} {log snap : List (LogEntry Command)}
    (represents : rl.Represents log snap) (whole : rl.snapLastIdx = 0) : rl.entries = log := by
  rw [RaftLog.entries, represents.tailLog, whole]
  rfl

namespace Raft

/-- The apply loop sends entries only, and none beyond the commit index. -/
def Applying (rf : Raft n Command) : Prop :=
  match rf.ticker with
  | .waiting => rf.applyCh.length = rf.lastApplied ∧ rf.lastApplied ≤ rf.commitIndex
  | .sendEntries entries sent => rf.applyCh.length = rf.lastApplied + sent ∧
      sent ≤ entries.length ∧ rf.lastApplied + entries.length ≤ rf.commitIndex
  | _ => False

structure Uncompacted (rf : Raft n Command) : Prop where
  snapLastIdx : rf.log.snapLastIdx = 0
  snapPending : rf.snapPending = false
  applying : rf.Applying

theorem Applying.committed {rf : Raft n Command} (applying : rf.Applying) :
    rf.applyCh.length ≤ rf.commitIndex := by
  unfold Applying at applying
  split at applying
  · omega
  · omega
  · exact applying.elim

theorem uncompacted_make {rf : Raft n Command} (durable : rf.Durable)
    (whole : rf.log.snapLastIdx = 0) (me : Fin n) : (make me rf.persister).Uncompacted := by
  rw [make_eq_of_durable durable, whole]
  exact ⟨whole, rfl, rfl, le_rfl⟩

/-- No section but `Snapshot` and the arrival of a snapshot compacts anything. -/
theorem Uncompacted.handle {rf next : Raft n Command} {call : Call n Command}
    (uncompacted : rf.Uncompacted) (handled : rf.handle call = some next)
    (noSnapshot : ∀ index bytes, call ≠ .snapshot index bytes)
    (noImage : ∀ args, call = .installSnapshot args → args.lastIncludedIndex = 0) :
    next.Uncompacted := by
  obtain ⟨whole, idle, applying⟩ := uncompacted
  have commit := (proceeds_handle handled).commit
  cases applyStep_handle handled with
  | same same =>
      refine ⟨same.snapLastIdx.trans whole, same.snapPending.trans idle, ?_⟩
      unfold Applying at applying ⊢
      rw [same.ticker, same.applyCh, same.lastApplied]
      split at applying <;> omega
  | compact => exact absurd rfl (noSnapshot _ _)
  | install current newer =>
      rw [noImage _ rfl] at newer
      exact absurd newer (Nat.not_lt_zero _)
  | collect collected =>
      obtain ⟨waiting, ⟨pending, -⟩ | ⟨-, entries, read, rfl⟩⟩ := collect_cases collected
      · rw [idle] at pending
        cases pending
      · refine ⟨whole, idle, ?_⟩
        have length := (forall₂_of_mapM_eq_some read).length_eq
        simp only [Applying, waiting] at applying
        simp only [Applying, whole, List.length_range'] at length ⊢
        omega
  | send msg sent =>
      rcases send_cases sent with ⟨entries, count, entry, ticking, found, rfl, rfl⟩ | ⟨ticking, -⟩
      · refine ⟨whole, idle, ?_⟩
        have inside := (List.getElem?_eq_some_iff.mp found).1
        simp only [Applying, ticking] at applying
        simp only [Applying, List.length_append, List.length_singleton]
        omega
      · simp only [Applying, ticking] at applying
  | finish finished =>
      rcases finish_cases finished with ⟨entries, ticking, rfl⟩ | ⟨ticking, -⟩
      · refine ⟨whole, idle, ?_⟩
        simp only [Applying, ticking] at applying
        simp only [Applying]
        omega
      · simp only [Applying, ticking] at applying

theorem applyCh_of_handle {rf next : Raft n Command} {call : Call n Command}
    (handled : rf.handle call = some next) (silent : call ≠ .send) :
    next.applyCh = rf.applyCh := by
  cases applyStep_handle handled with
  | same same => exact same.applyCh
  | compact _ applyCh => exact applyCh
  | install _ _ applyCh => exact applyCh
  | collect collected =>
      obtain ⟨-, ⟨-, rfl⟩ | ⟨-, entries, -, rfl⟩⟩ := collect_cases collected
      · rfl
      · rfl
  | send => exact absurd rfl silent
  | finish finished =>
      obtain ⟨entries, -, rfl⟩ | ⟨-, rfl⟩ := finish_cases finished
      · rfl
      · rfl

end Raft

namespace Cluster

/-- The calls that only the service makes, or the apply loop. -/
def Prompts (event : Event n Command) (server : Fin n) : Call n Command → Prop
  | .start command => event = .start server command
  | .snapshot index bytes => event = .snapshot server index bytes
  | .send => event = .send server
  | _ => True

/-- One server runs a section, the others stay as they are. -/
structure Moves (cluster next : Cluster n Command) (event : Event n Command) (server : Fin n)
    (call : Call n Command) : Prop where
  handled : (cluster.servers server).handle call = some (next.servers server)
  others : ∀ other, other ≠ server → next.servers other = cluster.servers other
  asks : Prompts event server call
  receives : cluster.Receives event server call

theorem moves_setServer {cluster next : Cluster n Command} {event : Event n Command}
    {server : Fin n} {rf : Raft n Command} (call : Call n Command)
    (moved : next.servers = (cluster.setServer server rf).servers)
    (handled : (cluster.servers server).handle call = some rf)
    (asks : Prompts event server call) (receives : cluster.Receives event server call) :
    ∃ server call, cluster.Moves next event server call := by
  refine ⟨server, call, ?_, ?_, asks, receives⟩
  · rw [moved, setServer_servers_self, handled]
  · intro other different
    rw [moved, setServer_servers_of_ne cluster rf different]

theorem Step.mover {cluster next : Cluster n Command} {event : Event n Command}
    (stepped : cluster.Step event next) :
    next.servers = cluster.servers ∨ (∃ server call, cluster.Moves next event server call) ∨
      ∃ server, event = .restart server ∧ next = cluster.restart server := by
  cases stepped with
  | electionLost | election | lateReply => exact .inl rfl
  | restart server => exact .inr (.inr ⟨server, rfl, rfl⟩)
  | timeout mover notLeader =>
      exact .inr (.inl (moves_setServer .electionTimeout rfl (by simp [Raft.handle, notLeader])
        trivial trivial))
  | voteRequest index packet args found body =>
      exact .inr (.inl (moves_setServer (.requestVote args) rfl rfl trivial trivial))
  | appendRequest index packet args rf reply found body handled =>
      exact .inr (.inl (moves_setServer (.appendEntries args) rfl (by simp [Raft.handle, handled])
        trivial ⟨index, packet, rfl, found, body, rfl⟩))
  | snapshotRequest index packet args rf reply found body handled =>
      exact .inr (.inl (moves_setServer (.installSnapshot args) rfl
        (by simp [Raft.handle, handled]) trivial ⟨index, packet, rfl, found, body, rfl⟩))
  | voteReply index packet args reply found body =>
      exact .inr (.inl (moves_setServer (.voteReply args.term
        (cluster.votes packet.caller args.term) reply) rfl rfl trivial trivial))
  | appendReply _ packet args reply rf found body handled =>
      exact .inr (.inl (moves_setServer (.appendReply packet.peer args reply) rfl handled trivial
        ⟨packet, List.mem_of_getElem? found, body, rfl, rfl⟩))
  | snapshotReply _ packet args reply found body =>
      exact .inr (.inl (moves_setServer (.installReply packet.peer args reply) rfl rfl trivial
        ⟨packet, List.mem_of_getElem? found, body, rfl, rfl⟩))
  | replicate mover term rf requests started =>
      exact .inr (.inl (moves_setServer (.startReplication term) rfl
        (by simp [Raft.handle, started]) trivial trivial))
  | start mover command =>
      exact .inr (.inl (moves_setServer (.start command) rfl rfl rfl trivial))
  | snapshot mover index bytes rf taken =>
      exact .inr (.inl (moves_setServer (.snapshot index bytes) rfl taken rfl trivial))
  | collect mover rf collected =>
      exact .inr (.inl (moves_setServer .collect rfl collected trivial trivial))
  | send mover rf msg sent =>
      exact .inr (.inl (moves_setServer .send rfl (by simp [Raft.handle, sent]) rfl trivial))
  | finish mover rf finished =>
      exact .inr (.inl (moves_setServer .finish rfl finished trivial trivial))

variable {cluster next : Cluster n Command} {event : Event n Command}
  {history new : History n Command}

/-- A leader has no snapshot to ship but the empty one, which nobody installs. -/
structure Uncompacted (cluster : Cluster n Command) : Prop where
  servers : ∀ server, (cluster.servers server).Uncompacted
  packets : ∀ packet ∈ cluster.net, ∀ args, packet.body = .snapshotRequest args →
    args.lastIncludedIndex = 0

theorem Uncompacted.step (uncompacted : cluster.Uncompacted)
    (durable : ∀ server, (cluster.servers server).Durable)
    (allowed : event.uncompacted = true) (stepped : cluster.Step event next) :
    next.Uncompacted := by
  refine ⟨fun server => ?_, ?_⟩
  · have before := uncompacted.servers server
    rcases stepped.mover with same | ⟨mover, call, moves⟩ | ⟨mover, -, rfl⟩
    · rwa [same]
    · by_cases here : server = mover
      · subst here
        refine before.handle moves.handled ?_ ?_
        · rintro index bytes rfl
          obtain rfl : event = _ := moves.asks
          cases allowed
        · rintro args rfl
          obtain ⟨index, packet, -, found, body, -⟩ := moves.receives
          exact uncompacted.packets packet (List.mem_of_getElem? found) args body
      · rwa [moves.others server here]
    · by_cases here : server = mover
      · subst here
        rw [restart, setServer_servers_self]
        exact Raft.uncompacted_make (durable server) before.snapLastIdx server
      · rwa [restart, setServer_servers_of_ne cluster _ here]
  · intro packet member args body
    cases stepped.arises packet member with
    | kept old => exact uncompacted.packets packet old args body
    | shipped _ leads request =>
        cases body
        rcases Raft.replicate_cases request with shipped | ⟨_, _, _, _, _, other⟩
        · cases shipped
          exact (uncompacted.servers _).snapLastIdx
        · cases other
    | voted | appended | installed | asked | replicated => cases body

theorem uncompacted_initial : (initial n Command).Uncompacted := by
  refine ⟨fun server => ?_, ?_⟩
  · exact ⟨rfl, rfl, rfl, le_rfl⟩
  · rintro packet ⟨⟩

end Cluster

/-- The message that brings the entry at a position. -/
def LogEntry.message (entry : LogEntry Command) (position : Nat) : ApplyMsg Command :=
  { commandValid := entry.commandValid, command := entry.command, commandIndex := position + 1 }

def messages (entries : List (LogEntry Command)) : List (ApplyMsg Command) :=
  entries.mapIdx fun position entry => entry.message position

theorem length_messages (entries : List (LogEntry Command)) :
    (messages entries).length = entries.length :=
  List.length_mapIdx

theorem messages_mono {front whole : List (LogEntry Command)} (grown : front <+: whole) :
    messages front <+: messages whole := by
  obtain ⟨rest, rfl⟩ := grown
  rw [messages, messages, List.mapIdx_append]
  exact List.prefix_append _ _

theorem concat_prefix_messages {front : List (ApplyMsg Command)}
    {entries : List (LogEntry Command)} {entry : LogEntry Command}
    (isPrefix : front <+: messages entries) (next : entries[front.length]? = some entry) :
    front ++ [entry.message front.length] <+: messages entries := by
  have inside : (messages entries)[front.length]? = some (entry.message front.length) := by
    rw [messages, List.getElem?_mapIdx, next]
    rfl
  obtain ⟨rest, split⟩ := isPrefix
  rw [← split, List.getElem?_append_right le_rfl, Nat.sub_self] at inside
  cases rest with
  | nil => cases inside
  | cons first others =>
      cases inside
      exact ⟨others, by rw [← split, List.append_assoc]; rfl⟩

namespace Cluster

variable {cluster next : Cluster n Command} {event : Event n Command}
  {history new : History n Command} {agreed : List (LogEntry Command)}

/-- Every server has delivered a part of the sequence, which is settled. -/
structure Agreed (cluster : Cluster n Command) (history : History n Command)
    (agreed : List (LogEntry Command)) : Prop where
  chosen : ∀ position entry, agreed[position]? = some entry → history.Chosen position entry
  streams : ∀ server, (cluster.servers server).applyCh <+: messages agreed

/-- Up to its commit index a server has the settled entries. -/
theorem Refines.chosen_of_committed (refines : cluster.Refines True history)
    (uncompacted : cluster.Uncompacted) {server : Fin n} {position : Nat}
    (committed : position < (cluster.servers server).commitIndex) :
    ∃ entry, (cluster.servers server).log.entries[position]? = some entry ∧
      history.Chosen position entry := by
  have represents := (refines.servers server).log
  have whole := (uncompacted.servers server).snapLastIdx
  have noSnap := represents.snapLastIdx
  rw [represents.entries whole]
  rcases (refines.servers server).commit trivial with compacted | ⟨within, settled⟩
  · omega
  · have inside : position < (history.log server).length := by omega
    refine ⟨_, List.getElem?_eq_getElem inside, _, _, settled, ?_⟩
    rw [List.getElem?_take_of_lt committed]
    exact List.getElem?_eq_getElem inside

/-- A server delivers the entry that stands at the place it has come to. -/
theorem Refines.delivers (refines : cluster.Refines True history)
    (uncompacted : cluster.Uncompacted) {server : Fin n} {rf : Raft n Command}
    {msg : ApplyMsg Command} (sent : (cluster.servers server).send = some (rf, msg)) :
    ∃ entry, (cluster.servers server).log.entries[(cluster.servers server).applyCh.length]? =
        some entry ∧
      history.Chosen (cluster.servers server).applyCh.length entry ∧
      msg = entry.message (cluster.servers server).applyCh.length ∧
      rf.applyCh = (cluster.servers server).applyCh ++ [msg] := by
  have applying := (uncompacted.servers server).applying
  rcases Raft.send_cases sent with ⟨entries, count, entry, ticking, found, isMsg, rfl⟩ | ⟨ticking, -⟩
  · simp only [Raft.Applying, ticking] at applying
    have chosen := (refines.servers server).ticker trivial entries count ticking count entry found
    rw [← applying.1] at chosen
    have inside := (List.getElem?_eq_some_iff.mp found).1
    have committed :
        (cluster.servers server).applyCh.length < (cluster.servers server).commitIndex := by omega
    obtain ⟨other, present, settled⟩ := refines.chosen_of_committed uncompacted committed
    obtain rfl := (refines.sound.complete trivial).chosen_unique refines.sound.matching settled chosen
    refine ⟨other, present, chosen, ?_, rfl⟩
    rw [isMsg, applying.1, LogEntry.message, Nat.add_right_comm]
  · simp only [Raft.Applying, ticking] at applying

/-- What a server has delivered is the beginning of its log. -/
theorem Agreed.applied (settled : cluster.Agreed history agreed)
    (refines : cluster.Refines True history) (uncompacted : cluster.Uncompacted) (server : Fin n) :
    (cluster.servers server).applyCh.length ≤ (cluster.servers server).log.entries.length ∧
      (cluster.servers server).log.entries.take (cluster.servers server).applyCh.length =
        agreed.take (cluster.servers server).applyCh.length := by
  have committed := (uncompacted.servers server).applying.committed
  have behind := (settled.streams server).length_le
  rw [length_messages] at behind
  have both : ∀ position < (cluster.servers server).applyCh.length,
      ∃ entry, (cluster.servers server).log.entries[position]? = some entry ∧
        agreed[position]? = some entry := by
    intro position applied
    obtain ⟨entry, present, chosen⟩ :=
      refines.chosen_of_committed uncompacted (applied.trans_le committed)
    have inside := List.getElem?_eq_getElem (applied.trans_le behind)
    refine ⟨entry, present, inside.trans (congrArg some ?_)⟩
    exact (refines.sound.complete trivial).chosen_unique refines.sound.matching
      (settled.chosen _ _ inside) chosen
  refine ⟨?_, List.ext_getElem? fun position => ?_⟩
  · by_contra short
    obtain ⟨entry, present, -⟩ := both _ (not_le.mp short)
    exact absurd (List.getElem?_eq_some_iff.mp present).1 (lt_irrefl _)
  · rcases Nat.lt_or_ge position (cluster.servers server).applyCh.length with applied | beyond
    · obtain ⟨entry, present, inAgreed⟩ := both position applied
      rw [List.getElem?_take_of_lt applied, List.getElem?_take_of_lt applied, present, inAgreed]
    · rw [List.getElem?_take, List.getElem?_take, if_neg (not_lt.mpr beyond),
        if_neg (not_lt.mpr beyond)]

/-- One more delivery goes along the sequence or extends it. -/
theorem Agreed.deliver (settled : cluster.Agreed history agreed)
    (refines : cluster.Refines True history) {server : Fin n} {entry : LogEntry Command}
    (chosen : history.Chosen (cluster.servers server).applyCh.length entry) :
    agreed[(cluster.servers server).applyCh.length]? = some entry ∨
      (cluster.servers server).applyCh.length = agreed.length := by
  have behind := (settled.streams server).length_le
  rw [length_messages] at behind
  cases found : agreed[(cluster.servers server).applyCh.length]? with
  | some other =>
      have unique := (refines.sound.complete trivial).chosen_unique refines.sound.matching
        (settled.chosen _ _ found) chosen
      exact .inl (congrArg some unique)
  | none => exact .inr (le_antisymm behind (List.getElem?_eq_none_iff.mp found))

/-- Nothing else is delivered. -/
theorem Agreed.silent (settled : cluster.Agreed history agreed)
    (durable : ∀ server, (cluster.servers server).Durable) (stepped : cluster.Step event next)
    (silent : ∀ server, event ≠ .send server) (extended : history.Extends new) :
    next.Agreed new agreed := by
  refine ⟨fun position entry found => (settled.chosen position entry found).mono extended,
    fun server => ?_⟩
  have before := settled.streams server
  rcases stepped.mover with same | ⟨mover, call, moves⟩ | ⟨mover, -, rfl⟩
  · rwa [same]
  · by_cases here : server = mover
    · subst here
      rwa [Raft.applyCh_of_handle moves.handled]
      rintro rfl
      exact silent server moves.asks
    · rwa [moves.others server here]
  · by_cases here : server = mover
    · subst here
      rw [restart, setServer_servers_self, Raft.make_eq_of_durable (durable server)]
      exact List.nil_prefix
    · rwa [restart, setServer_servers_of_ne cluster _ here]

theorem Agreed.send {later : List (LogEntry Command)} (settled : cluster.Agreed history agreed)
    (grown : agreed <+: later)
    (allChosen : ∀ position entry, later[position]? = some entry → new.Chosen position entry)
    {mover : Fin n} {entry : LogEntry Command} {rf : Raft n Command} {msg : ApplyMsg Command}
    (present : later[(cluster.servers mover).applyCh.length]? = some entry)
    (isMsg : msg = entry.message (cluster.servers mover).applyCh.length)
    (applyCh : rf.applyCh = (cluster.servers mover).applyCh ++ [msg])
    (moved : next.servers = (cluster.setServer mover rf).servers) : next.Agreed new later := by
  refine ⟨allChosen, fun server => ?_⟩
  have before := (settled.streams server).trans (messages_mono grown)
  rw [moved]
  by_cases here : server = mover
  · subst here
    rw [setServer_servers_self, applyCh, isMsg]
    exact concat_prefix_messages before present
  · rwa [setServer_servers_of_ne cluster rf here]

/-- No accepted `AppendEntries` cuts off entries of its own term, and nobody calls
`Snapshot`. -/
def steady (cluster : Cluster n Command) (event : Event n Command) : Bool :=
  cluster.keepsEntries event && event.uncompacted

/-- What holds of a cluster in runs of such steps. -/
structure Replicates (cluster : Cluster n Command) (history : History n Command)
    (agreed : List (LogEntry Command)) : Prop where
  refines : cluster.Refines True history
  uncompacted : cluster.Uncompacted
  agreed : cluster.Agreed history agreed

theorem replicates_initial :
    (initial n Command).Replicates (initialHistory n Command) [] := by
  refine ⟨refines_initial True, uncompacted_initial, ?_, fun _ => List.prefix_rfl⟩
  intro position entry found
  cases found

theorem Replicates.refined (replicates : cluster.Replicates history agreed)
    (steady : cluster.steady event = true) (stepped : cluster.Step event next) :
    ∃ new, next.Refines True new ∧ next.Uncompacted ∧ history.Extends new := by
  obtain ⟨keeps, allowed⟩ := Bool.and_eq_true_iff.mp steady
  have permitted : cluster.Permitted True event :=
    ⟨fun _ => keeps, fun unguarded => absurd trivial unguarded⟩
  obtain ⟨new, refined, progress⟩ := replicates.refines.step permitted stepped
  exact ⟨new, refined, replicates.uncompacted.step replicates.refines.voting.durable allowed
    stepped, progress.toExtends⟩

theorem Replicates.silent (replicates : cluster.Replicates history agreed)
    (steady : cluster.steady event = true) (stepped : cluster.Step event next)
    (silent : ∀ server, event ≠ .send server) :
    ∃ new, next.Replicates new agreed ∧ history.Extends new := by
  obtain ⟨new, refined, uncompacted, extended⟩ := replicates.refined steady stepped
  have settled := replicates.agreed.silent replicates.refines.voting.durable stepped silent extended
  exact ⟨new, ⟨refined, uncompacted, settled⟩, extended⟩

/-- A delivery settles the next entry of the sequence or repeats one. -/
theorem Replicates.send (replicates : cluster.Replicates history agreed) {server : Fin n}
    {rf : Raft n Command} {msg : ApplyMsg Command}
    (sent : (cluster.servers server).send = some (rf, msg))
    (stepped : cluster.Step (.send server) next)
    (moved : next.servers = (cluster.setServer server rf).servers) :
    ∃ new entry later, next.Replicates new later ∧ history.Extends new ∧ agreed <+: later ∧
      (agreed[(cluster.servers server).applyCh.length]? = some entry ∧ later = agreed ∨
        (cluster.servers server).applyCh.length = agreed.length ∧ later = agreed ++ [entry]) ∧
      (cluster.servers server).log.entries[(cluster.servers server).applyCh.length]? =
        some entry ∧
      msg = entry.message (cluster.servers server).applyCh.length := by
  obtain ⟨new, refined, uncompacted, extended⟩ := replicates.refined rfl stepped
  obtain ⟨entry, present, chosen, isMsg, applyCh⟩ :=
    replicates.refines.delivers replicates.uncompacted sent
  have settled := replicates.agreed
  have kept : ∀ position entry, agreed[position]? = some entry → new.Chosen position entry :=
    fun position entry found => (settled.chosen position entry found).mono extended
  rcases settled.deliver replicates.refines chosen with again | last
  · exact ⟨new, entry, agreed, ⟨refined, uncompacted,
      settled.send List.prefix_rfl kept again isMsg applyCh moved⟩, extended, List.prefix_rfl,
      .inl ⟨again, rfl⟩, present, isMsg⟩
  · refine ⟨new, entry, agreed ++ [entry], ⟨refined, uncompacted, settled.send
      (List.prefix_append _ _) ?_ ?_ isMsg applyCh moved⟩, extended, List.prefix_append _ _,
      .inr ⟨last, rfl⟩, present, isMsg⟩
    · intro position other found
      rcases getElem?_concat found with old | ⟨rfl, rfl⟩
      · exact kept position other old
      · exact last ▸ chosen.mono extended
    · rw [last, List.getElem?_concat_length]

theorem Replicates.step (replicates : cluster.Replicates history agreed)
    (steady : cluster.steady event = true) (stepped : cluster.Step event next) :
    ∃ new later, next.Replicates new later ∧ agreed <+: later := by
  by_cases sends : ∃ server, event = .send server
  · obtain ⟨server, rfl⟩ := sends
    have taken := stepped
    cases stepped with
    | send _ rf msg sent =>
        obtain ⟨new, entry, later, replicated, -, grown, -⟩ := replicates.send sent taken rfl
        exact ⟨new, later, replicated, grown⟩
  · obtain ⟨new, replicated, -⟩ :=
      replicates.silent steady stepped fun server isSend => sends ⟨server, isSend⟩
    exact ⟨new, agreed, replicated, List.prefix_rfl⟩

/-- A run goes on with the sequence. -/
theorem Replicates.run (replicates : cluster.Replicates history agreed)
    (run : (raftSystem n Command).Run (fun cluster event => cluster.steady event = true)
      cluster next) : ∃ new later, next.Replicates new later ∧ agreed <+: later := by
  induction run with
  | refl => exact ⟨history, agreed, replicates, List.prefix_rfl⟩
  | tail _ permitted stepped inductionHypothesis =>
      obtain ⟨middle, sofar, replicated, grown⟩ := inductionHypothesis
      obtain ⟨new, later, reached, further⟩ :=
        replicated.step permitted (step_cases stepped)
      exact ⟨new, later, reached, grown.trans further⟩

end Cluster

/-- As long as no accepted `AppendEntries` cuts off entries of its own term and nobody calls
`Snapshot`, a server delivers the commands with the indices 1, 2, 3 and so on, and what one
server has delivered since it was started and what any server has delivered then or later
are beginnings of one sequence. -/
theorem applyCh_replicated {first last : Cluster n Command}
    (reached : (raftSystem n Command).Reachable (fun cluster event => cluster.steady event = true)
      first)
    (run : (raftSystem n Command).Run (fun cluster event => cluster.steady event = true) first last)
    (one two : Fin n) :
    ((first.servers one).applyCh <+: (last.servers two).applyCh ∨
      (last.servers two).applyCh <+: (first.servers one).applyCh) ∧
    ∀ position msg, (last.servers two).applyCh[position]? = some msg →
      msg.snapshotValid = false ∧ msg.commandIndex = position + 1 := by
  obtain ⟨_, rfl, front⟩ := reached
  obtain ⟨history, early, atFirst, -⟩ := Cluster.replicates_initial.run front
  obtain ⟨new, late, atLast, grown⟩ := atFirst.run run
  refine ⟨?_, ?_⟩
  · exact List.prefix_or_prefix_of_prefix
      ((atFirst.agreed.streams one).trans (messages_mono grown)) (atLast.agreed.streams two)
  · intro position msg found
    obtain ⟨rest, split⟩ := atLast.agreed.streams two
    have inside := (List.getElem?_eq_some_iff.mp found).1
    have present : (messages late)[position]? = some msg := by
      rw [← split, List.getElem?_append_left inside, found]
    rw [messages, List.getElem?_mapIdx] at present
    obtain ⟨entry, -, rfl⟩ := Option.map_eq_some_iff.mp present
    exact ⟨rfl, rfl⟩

/-- Server 0 commits two commands and delivers them. -/
def aheadCluster : Cluster 3 Nat :=
  (raftSystem 3 Nat).after Cluster.steady (Cluster.initial 3 Nat)
    [.electionTimeout 0, .startElection 0, .deliver 0, .deliver 0, .start 0 (some 10),
     .start 0 (some 11), .startReplication 0 2, .deliver 1, .deliver 1, .collect 0, .send 0,
     .send 0]

/-- Then it restarts, and server 1 learns that the commands are committed and delivers the
first one. -/
def behindCluster : Cluster 3 Nat :=
  (raftSystem 3 Nat).after Cluster.steady aheadCluster
    [.startReplication 0 2, .deliver 2, .restart 0, .collect 1, .send 1]

theorem applyCh_replicated_behind :
    (aheadCluster.servers 0).applyCh = messages
        [{ term := 2, commandValid := true, command := some 10 },
         { term := 2, commandValid := true, command := some 11 }] ∧
      (behindCluster.servers 1).applyCh = messages
        [{ term := 2, commandValid := true, command := some 10 }] ∧
      ((aheadCluster.servers 0).applyCh <+: (behindCluster.servers 1).applyCh ∨
        (behindCluster.servers 1).applyCh <+: (aheadCluster.servers 0).applyCh) := by
  refine ⟨rfl, rfl, ?_⟩
  exact (applyCh_replicated ⟨_, rfl, System.run_after Cluster.steady _ _⟩
    (System.run_after Cluster.steady _ _) 0 1).1

end MultiRaft
