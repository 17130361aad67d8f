import MultiRaft.KVRaft.Handlers

/-!
# Every write takes effect once

A server remembers of each client only the last number that it executed.  As long as
new writes of a client come in the order of their numbers, this is enough to tell
every repetition: the map is what the first occurrences of the writes make of an
empty one.  The table is part of a snapshot, so a server that starts from one goes on
in the same way.
-/

namespace MultiRaft.KVRaft

/-- The writes of a log that do not repeat an earlier one. -/
def firstWrites (log : List Op) : List Op :=
  log.foldl (fun firsts op =>
    if op.opType ≠ .get ∧
        ∀ first ∈ firsts, ¬ (first.clientId = op.clientId ∧ first.seqId = op.seqId)
    then firsts ++ [op] else firsts) []

def MemoryKVStateMachine.write (mkv : MemoryKVStateMachine) (op : Op) : MemoryKVStateMachine :=
  match op.opType with
  | .get => mkv
  | .put => (mkv.put op.key op.value).1
  | .append => (mkv.append op.key op.value).1

def writeAll (ops : List Op) : MemoryKVStateMachine := ops.foldl .write .new

/-- The new writes of a client come in the order of their numbers. -/
def Numbered (log : List Op) : Prop :=
  (firstWrites log).Pairwise fun earlier later =>
    earlier.clientId = later.clientId → earlier.seqId < later.seqId

instance (log : List Op) : Decidable (Numbered log) :=
  inferInstanceAs (Decidable (List.Pairwise _ _))

theorem firstWrites_concat (log : List Op) (op : Op) :
    firstWrites (log ++ [op]) =
      if op.opType ≠ .get ∧ ∀ first ∈ firstWrites log,
          ¬ (first.clientId = op.clientId ∧ first.seqId = op.seqId)
      then firstWrites log ++ [op] else firstWrites log := by
  rw [firstWrites, List.foldl_append]
  rfl

theorem Numbered.of_concat {log : List Op} {op : Op} (numbered : Numbered (log ++ [op])) :
    Numbered log := by
  unfold Numbered at numbered ⊢
  rw [firstWrites_concat] at numbered
  split at numbered
  · exact (List.pairwise_append.mp numbered).1
  · exact numbered

theorem writeAll_concat (ops : List Op) (op : Op) :
    writeAll (ops ++ [op]) = (writeAll ops).write op := by
  simp [writeAll]

namespace Replica

variable {replica : Replica} {op : Op} {firsts : List Op}

theorem apply_of_get (reads : op.opType = .get) : (replica.apply op).1 = replica := by
  simp [apply, applyToStateMachine, reads]

theorem apply_of_duplicate (repeated : replica.requestDuplicated op.clientId op.seqId = true) :
    (replica.apply op).1 = replica := by
  by_cases reads : op.opType = .get
  · exact apply_of_get reads
  · rw [apply, if_pos ⟨reads, repeated⟩]

theorem apply_of_new (writes : op.opType ≠ .get)
    (new : replica.requestDuplicated op.clientId op.seqId = false) :
    (replica.apply op).1.stateMachine = replica.stateMachine.write op ∧
      ∃ reply, (replica.apply op).1.duplicateTable =
        Function.update replica.duplicateTable op.clientId (some { seqId := op.seqId, reply }) := by
  have table := applyToStateMachine_table replica op
  have written : (replica.applyToStateMachine op).1.stateMachine =
      replica.stateMachine.write op := by
    unfold applyToStateMachine MemoryKVStateMachine.write
    cases op.opType <;> rfl
  rw [apply, if_neg (by simp [new])]
  dsimp only
  rw [if_pos writes, table]
  exact ⟨written, _, rfl⟩

/-- The replica has executed these writes, and its table has the last number of each
client. -/
structure Tracks (replica : Replica) (firsts : List Op) : Prop where
  written : replica.stateMachine = writeAll firsts
  recorded : ∀ clientId info, replica.duplicateTable clientId = some info →
    ∃ first ∈ firsts, first.clientId = clientId ∧ first.seqId = info.seqId
  covered : ∀ first ∈ firsts, replica.requestDuplicated first.clientId first.seqId = true

theorem requestDuplicated_iff {clientId seqId : Nat} :
    replica.requestDuplicated clientId seqId = true ↔
      ∃ info, replica.duplicateTable clientId = some info ∧ seqId ≤ info.seqId := by
  unfold requestDuplicated
  cases replica.duplicateTable clientId <;> simp

theorem Tracks.execute (tracks : replica.Tracks firsts) (writes : op.opType ≠ .get)
    (larger : ∀ first ∈ firsts, first.clientId = op.clientId → first.seqId < op.seqId) :
    (replica.apply op).1.Tracks (firsts ++ [op]) := by
  have new : replica.requestDuplicated op.clientId op.seqId = false := by
    rw [Bool.eq_false_iff, Ne, requestDuplicated_iff]
    rintro ⟨info, found, bound⟩
    obtain ⟨first, occurs, same, number⟩ := tracks.recorded op.clientId info found
    have below := larger first occurs same
    omega
  obtain ⟨written, reply, table⟩ := apply_of_new writes new
  refine ⟨?_, ?_, ?_⟩
  · rw [written, writeAll_concat, tracks.written]
  · intro clientId info found
    rw [table] at found
    by_cases here : clientId = op.clientId
    · subst here
      rw [Function.update_self] at found
      cases found
      exact ⟨op, by simp, rfl, rfl⟩
    · rw [Function.update_of_ne here] at found
      obtain ⟨first, occurs, described⟩ := tracks.recorded clientId info found
      exact ⟨first, List.mem_append_left _ occurs, described⟩
  · intro first occurs
    rw [requestDuplicated_iff, table]
    by_cases here : first.clientId = op.clientId
    · rw [here, Function.update_self]
      refine ⟨_, rfl, ?_⟩
      rcases List.mem_append.mp occurs with old | last
      · exact Nat.le_of_lt (larger first old here)
      · cases List.mem_singleton.mp last
        exact Nat.le_refl _
    · rw [Function.update_of_ne here, ← requestDuplicated_iff]
      rcases List.mem_append.mp occurs with old | last
      · exact tracks.covered first old
      · exact absurd (by rw [List.mem_singleton.mp last]) here

/-- The replica executes the first occurrence of a write and no other. -/
theorem tracks_replay {log : List Op} (numbered : Numbered log) :
    (replay log).Tracks (firstWrites log) := by
  induction log using List.reverseRecOn with
  | nil => exact ⟨rfl, by simp [replay, new], by simp [firstWrites]⟩
  | append_singleton log op inductionHypothesis =>
      have tracks := inductionHypothesis numbered.of_concat
      unfold Numbered at numbered
      rw [firstWrites_concat] at numbered ⊢
      rw [replay_concat]
      split
      · rename_i fresh
        rw [if_pos fresh] at numbered
        apply tracks.execute fresh.1
        intro first occurs same
        exact (List.pairwise_append.mp numbered).2.2 first occurs op (by simp) same
      · rename_i old
        by_cases reads : op.opType = .get
        · rw [apply_of_get reads]
          exact tracks
        · -- the write has occurred before, so the table covers its number
          have occurred : ∃ first ∈ firstWrites log,
              first.clientId = op.clientId ∧ first.seqId = op.seqId := by
            by_contra never
            exact old ⟨reads, fun first occurs same => never ⟨first, occurs, same⟩⟩
          obtain ⟨first, occurs, client, number⟩ := occurred
          have repeated := tracks.covered first occurs
          rw [client, number] at repeated
          rw [apply_of_duplicate repeated]
          exact tracks

end Replica

/-- `applyTask` never finds the channel of a new index full. -/
theorem Wired.applyCommand {kv : KVServer} {applied : Nat} (wired : Wired kv applied)
    (behind : kv.lastApplied ≤ applied) (op : Op) (isLeader : Bool) :
    ∃ next, kv.applyCommand (applied + 1) op isLeader = some next ∧ Wired next (applied + 1) := by
  unfold KVServer.applyCommand
  rw [if_neg (by omega)]
  cases isLeader with
  | false => exact ⟨_, rfl, wired.replica (Nat.le_succ applied)⟩
  | true =>
      have before : Wired { kv with
          lastApplied := applied + 1, replica := (kv.replica.apply op).1 } applied :=
        wired.replica (Nat.le_refl applied)
      have after : Wired { kv with
          lastApplied := applied + 1, replica := (kv.replica.apply op).1 } (applied + 1) :=
        wired.replica (Nat.le_succ applied)
      obtain ⟨clean, at_index⟩ := before.openChannel (applied + 1)
      obtain ⟨ready, -⟩ := after.openChannel (applied + 1)
      dsimp only at clean at_index ready ⊢
      generalize KVServer.getNotifyChannel _ (applied + 1) = opened at clean at_index ready ⊢
      obtain ⟨opened, channel⟩ := opened
      have free : opened.buffers channel = none := by
        cases buffered : opened.buffers channel with
        | none => rfl
        | some reply =>
            have early := clean.filled _ _ _ at_index buffered
            omega
      simp only [if_true, free]
      exact ⟨_, rfl, ready.fill at_index (Nat.le_refl _)⟩

/-- A server with the commands delivered to it so far. -/
structure Served where
  kv : KVServer
  log : List Op

/-- What happens to a server: `applyTask` gets the next command, handlers use the
channels, and the server may be stopped and replaced by a fresh one that starts from
its image. -/
inductive ServerEvent where
  | deliver (op : Op) (isLeader : Bool)
  | getNotifyChannel (index : Nat)
  | receive (channel : Nat)
  | removeNotifyChannel (index : Nat)
  | restore
  deriving DecidableEq, Repr

def ServerEvent.command : ServerEvent → Option Op
  | .deliver op _ => some op
  | _ => none

namespace Served

def fresh : Served := { kv := .start none, log := [] }

def step (served : Served) : ServerEvent → Option Served
  | .deliver op isLeader => do
      let kv ← served.kv.applyCommand (served.log.length + 1) op isLeader
      return { kv, log := served.log ++ [op] }
  | .getNotifyChannel index => some { served with kv := (served.kv.getNotifyChannel index).1 }
  | .receive channel =>
      let buffers := Function.update served.kv.buffers channel none
      some { served with kv := { served.kv with buffers } }
  | .removeNotifyChannel index => some { served with kv := served.kv.removeNotifyChannel index }
  | .restore =>
      some { served with kv := .start (some (served.kv.makeSnapshot served.log.length)) }

end Served

def serverSystem : System Served ServerEvent where
  init served := served = .fresh
  step := Served.step

namespace Served

variable {served : Served}

/-- The server stands where the commands delivered so far lead. -/
structure Sound (served : Served) : Prop where
  replica : served.kv.replica = .replay served.log
  lastApplied : served.kv.lastApplied ≤ served.log.length
  wired : Wired served.kv served.log.length

/-- No event blocks the server or leads it astray. -/
theorem Sound.step (sound : served.Sound) (event : ServerEvent) :
    ∃ next, served.step event = some next ∧ next.Sound ∧
      next.log = served.log ++ event.command.toList := by
  obtain ⟨replica, lastApplied, wired⟩ := sound
  -- an event that delivers nothing
  have quiet : ∀ kv : KVServer, kv.replica = served.kv.replica →
      kv.lastApplied ≤ served.log.length → Wired kv served.log.length →
      ∃ next, some { served with kv } = some next ∧ next.Sound ∧ next.log = served.log ++ [] := by
    intro kv same bound well
    exact ⟨_, rfl, ⟨same.trans replica, bound, well⟩, (List.append_nil _).symm⟩
  cases event with
  | deliver op isLeader =>
      obtain ⟨kv, handled, well⟩ := wired.applyCommand lastApplied op isLeader
      obtain ⟨applied, reached⟩ :=
        KVCluster.applyCommand_replica (Nat.lt_succ_of_le lastApplied) handled
      have length : (served.log ++ [op]).length = served.log.length + 1 := List.length_append
      refine ⟨{ kv, log := served.log ++ [op] }, ?_, ⟨?_, ?_, ?_⟩, rfl⟩
      · simp only [Served.step, handled, Option.bind_eq_bind, Option.bind_some, Option.pure_def]
      · rw [applied, replica, Replica.replay_concat]
      · exact Nat.le_of_eq (reached.trans length.symm)
      · rw [length]
        exact well
  | getNotifyChannel index =>
      obtain ⟨same, bound⟩ := KVCluster.getNotifyChannel_replica served.kv index
      exact quiet _ same (Nat.le_trans (Nat.le_of_eq bound) lastApplied) (wired.openChannel index).1
  | receive channel =>
      refine quiet _ rfl lastApplied (wired.drain (fun _ _ => id) ?_ rfl)
      intro other reply buffered
      by_cases same : other = channel
      · simp [same] at buffered
      · simpa [Function.update_of_ne same] using buffered
  | removeNotifyChannel index =>
      refine quiet _ rfl lastApplied (wired.drain ?_ (fun _ _ => id) rfl)
      intro other channel found
      by_cases same : other = index
      · simp [KVServer.removeNotifyChannel, same] at found
      · simpa [KVServer.removeNotifyChannel, Function.update_of_ne same] using found
  | restore =>
      refine quiet _ rfl (Nat.zero_le _) ?_
      constructor <;> simp [KVServer.start]

theorem Sound.execute (sound : served.Sound) (events : List ServerEvent) :
    ∃ last, serverSystem.execute (fun _ _ => true) served events = some last ∧ last.Sound ∧
      last.log = served.log ++ events.filterMap ServerEvent.command := by
  induction events generalizing served with
  | nil => exact ⟨served, rfl, sound, (List.append_nil _).symm⟩
  | cons event rest inductionHypothesis =>
      obtain ⟨next, stepped, onward, log⟩ := sound.step event
      obtain ⟨last, executed, ends, whole⟩ := inductionHypothesis onward
      refine ⟨last, ?_, ends, ?_⟩
      · simp only [System.execute, if_true]
        exact Option.bind_eq_some_iff.mpr ⟨next, stepped, executed⟩
      · rw [whole, log, List.append_assoc]
        cases event <;> rfl

end Served

/-- Whatever is delivered to a server, with handlers at work and the server replaced from
its image at any time: the map is what the first occurrences of the writes, in the order
of the log, make of an empty one. -/
theorem kvraft_exactly_once (events : List ServerEvent)
    (numbered : Numbered (events.filterMap ServerEvent.command)) :
    ∃ served, serverSystem.execute (fun _ _ => true) .fresh events = some served ∧
      served.log = events.filterMap ServerEvent.command ∧
      served.kv.replica.stateMachine =
        writeAll (firstWrites (events.filterMap ServerEvent.command)) := by
  have start : Served.fresh.Sound := by
    refine ⟨rfl, Nat.le_refl _, ?_⟩
    constructor <;> simp [Served.fresh, KVServer.start]
  obtain ⟨served, executed, sound, log⟩ := start.execute events
  refine ⟨served, executed, log, ?_⟩
  rw [sound.replica, log]
  exact (Replica.tracks_replay numbered).written

/-- A client appends twice to what another has put; all three writes are repeated after the
server was replaced. -/
def repeatedEvents : List ServerEvent :=
  let base : Op := { key := "x", value := "c", opType := .put, clientId := 8, seqId := 0 }
  let first : Op := { key := "x", value := "a", opType := .append, clientId := 7, seqId := 0 }
  let second : Op := { key := "x", value := "b", opType := .append, clientId := 7, seqId := 1 }
  [.getNotifyChannel 2, .deliver base false, .deliver first true,
   .deliver { key := "x", opType := .get } false, .deliver second false, .restore,
   .deliver first true, .deliver base true, .deliver second true]

theorem kvraft_exactly_once_repeated :
    ∃ served, serverSystem.execute (fun _ _ => true) .fresh repeatedEvents = some served ∧
      served.kv.replica.stateMachine.kv "x" = some "cab" := by
  obtain ⟨served, executed, -, written⟩ := kvraft_exactly_once repeatedEvents (by decide)
  refine ⟨served, executed, ?_⟩
  rw [written]
  rfl

end MultiRaft.KVRaft
