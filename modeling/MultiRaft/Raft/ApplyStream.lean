import MultiRaft.Raft.Persistence

/-!
# What a labrpc server sends on its `applyCh`

`applicationTicker` sends without the lock and books afterwards what it sent.
The bookkeeping after a snapshot reads `snapLastIdx` again and clears
`snapPending`.  A snapshot installed between the send and the bookkeeping is
therefore taken as sent although nobody sent it.
-/

namespace MultiRaft.Raft

variable {n : Nat} {Command : Type}

/-- A section that leaves the apply loop and the snapshot index alone. -/
structure SameApply (rf next : Raft n Command) : Prop where
  applyCh : next.applyCh = rf.applyCh
  ticker : next.ticker = rf.ticker
  lastApplied : next.lastApplied = rf.lastApplied
  snapPending : next.snapPending = rf.snapPending
  snapLastIdx : next.log.snapLastIdx = rf.log.snapLastIdx

theorem sameApply_becomeFollowerLocked (rf : Raft n Command) {term : Nat}
    (current : rf.currentTerm ≤ term) : SameApply rf (rf.becomeFollowerLocked term) := by
  rcases rf.becomeFollowerLocked_cases current with ⟨_, result⟩ | ⟨_, result⟩
  all_goals
    rw [result]
    exact ⟨rfl, rfl, rfl, rfl, rfl⟩

theorem sameApply_aligned (rf : Raft n Command) {term : Nat}
    (current : rf.currentTerm ≤ term) : SameApply rf (rf.aligned term) := by
  rcases rf.aligned_cases current with ⟨_, result⟩ | ⟨_, result⟩
  all_goals
    rw [result]
    exact ⟨rfl, rfl, rfl, rfl, rfl⟩

/-- How a section can touch the apply loop: not at all, by compacting, by
installing a snapshot, or as a phase of the ticker. -/
inductive ApplyStep (rf next : Raft n Command) : Call n Command → Prop
  | same {call : Call n Command} (same : SameApply rf next) : ApplyStep rf next call
  | compact {index : Nat} {bytes : Bytes} (newer : rf.log.snapLastIdx < index)
      (applyCh : next.applyCh = rf.applyCh) (ticker : next.ticker = rf.ticker)
      (lastApplied : next.lastApplied = rf.lastApplied)
      (snapPending : next.snapPending = rf.snapPending)
      (snapLastIdx : next.log.snapLastIdx = index) : ApplyStep rf next (.snapshot index bytes)
  | install {args : InstallSnapshotArgs n} (current : rf.currentTerm ≤ args.term)
      (newer : rf.log.snapLastIdx < args.lastIncludedIndex)
      (applyCh : next.applyCh = rf.applyCh) (ticker : next.ticker = rf.ticker)
      (lastApplied : next.lastApplied = rf.lastApplied) (snapPending : next.snapPending = true)
      (snapLastIdx : next.log.snapLastIdx = args.lastIncludedIndex) :
      ApplyStep rf next (.installSnapshot args)
  | collect (collected : rf.collect = some next) : ApplyStep rf next .collect
  | send (msg : ApplyMsg Command) (sent : rf.send = some (next, msg)) : ApplyStep rf next .send
  | finish (finished : rf.finish = some next) : ApplyStep rf next .finish

variable {rf next : Raft n Command}

theorem applyStep_handle {call : Call n Command} (handled : rf.handle call = some next) :
    ApplyStep rf next call := by
  cases handle_outcome handled with
  | follow _ term current => exact .same (rf.sameApply_becomeFollowerLocked current)
  | vote args current =>
      have same := rf.sameApply_aligned current
      exact .same ⟨same.applyCh, same.ticker, same.lastApplied, same.snapPending,
        same.snapLastIdx⟩
  | adopt args prev log current _ _ written =>
      have same := rf.sameApply_becomeFollowerLocked current
      exact .same ⟨same.applyCh, same.ticker, same.lastApplied, same.snapPending,
        RaftLog.appendFrom_snapLastIdx written⟩
  | install args log current newer written =>
      have same := rf.sameApply_becomeFollowerLocked current
      exact .install current newer same.applyCh same.ticker same.lastApplied rfl
        (RaftLog.installSnapshot_snapLastIdx newer written)
  | compact index bytes log _ newer written =>
      rcases RaftLog.doSnapshot_snapLastIdx written with rfl | moved
      · exact .same ⟨rfl, rfl, rfl, rfl, rfl⟩
      · exact .compact newer rfl rfl rfl rfl moved
  | awaitSnapshot | collect => exact .collect handled
  | sendEntry | sendSnapshot =>
      obtain ⟨⟨_, msg⟩, sent, same⟩ := Option.map_eq_some_iff.mp handled
      cases same
      exact .send msg sent
  | bookEntries | bookSnapshot => exact .finish handled
  | stay | stand | win | replicate | probe | count | commit | ship | start =>
      exact .same ⟨rfl, rfl, rfl, rfl, rfl⟩

/-- The index of the last message sent. -/
def sentIndex (start : Nat) (rf : Raft n Command) : Nat :=
  endIndex ApplyMsg.index start rf.applyCh

/-- Where the ticker stands in the stream. -/
def TickerAt (start : Nat) (rf : Raft n Command) : Prop :=
  match rf.ticker with
  | .waiting =>
      rf.sentIndex start = rf.lastApplied ∧
      (rf.snapPending = false → rf.log.snapLastIdx ≤ rf.lastApplied)
  | .sendEntries entries sent =>
      rf.sentIndex start = rf.lastApplied + sent ∧ sent ≤ entries.length ∧
      (rf.snapPending = false → rf.log.snapLastIdx ≤ rf.lastApplied + sent)
  | .sendSnapshot => True
  | .snapshotSent => rf.sentIndex start = rf.log.snapLastIdx

structure Streams (start : Nat) (rf : Raft n Command) : Prop where
  gapFree : ApplyMsg.GapFree start rf.applyCh
  ticker : rf.TickerAt start

/-- A snapshot was sent and is not booked yet. -/
def booking (rf : Raft n Command) : Bool :=
  match rf.ticker with
  | .snapshotSent => true
  | _ => false

/-- The service compacts only what was sent to it, and no snapshot is installed
between the send of a snapshot and its bookkeeping. -/
def orderly (start : Nat) (rf : Raft n Command) : Call n Command → Bool
  | .snapshot index _ => index ≤ rf.sentIndex start || index ≤ rf.log.snapLastIdx
  | .installSnapshot args =>
      !rf.booking || args.lastIncludedIndex ≤ rf.log.snapLastIdx || args.term < rf.currentTerm
  | _ => true

theorem Streams.send {start : Nat} {msg : ApplyMsg Command} (streams : rf.Streams start)
    (sent : rf.send = some (next, msg)) : next.Streams start := by
  have ticker := streams.ticker
  rcases send_cases sent with ⟨entries, count, entry, ticking, found, rfl, rfl⟩ | ⟨_, rfl, rfl⟩
  · simp only [TickerAt, ticking] at ticker
    rcases ticker with ⟨reached, _, compacted⟩
    have within : count < entries.length := (List.getElem?_eq_some_iff.mp found).1
    refine ⟨(contiguous_append _ _ _ _ _).mpr ⟨streams.gapFree, ?_, trivial⟩, ?_, ?_, ?_⟩
    · intro _
      change rf.lastApplied + 1 + count = rf.sentIndex start + 1
      omega
    · rw [sentIndex, endIndex_append]
      change rf.lastApplied + 1 + count = rf.lastApplied + (count + 1)
      omega
    · exact within
    · intro idle
      have bound := compacted idle
      change rf.log.snapLastIdx ≤ rf.lastApplied + (count + 1)
      omega
  · refine ⟨(contiguous_append _ _ _ _ _).mpr ⟨streams.gapFree, ?_, trivial⟩, ?_⟩
    · intro command
      cases command
    · change endIndex ApplyMsg.index start (rf.applyCh ++ [_]) = rf.log.snapLastIdx
      rw [endIndex_append]
      rfl

theorem Streams.step {start : Nat} {call : Call n Command} (streams : rf.Streams start)
    (keeps : rf.orderly start call = true) (step : ApplyStep rf next call) :
    next.Streams start := by
  have ticker := streams.ticker
  cases step with
  | same same =>
      refine ⟨same.applyCh ▸ streams.gapFree, ?_⟩
      unfold TickerAt sentIndex
      rw [same.ticker, same.applyCh, same.lastApplied, same.snapPending, same.snapLastIdx]
      exact ticker
  | @compact index bytes newer applyCh ticks lastApplied snapPending snapLastIdx =>
      have covered : index ≤ rf.sentIndex start := by
        simp only [orderly, Bool.or_eq_true, decide_eq_true_eq] at keeps
        omega
      refine ⟨applyCh ▸ streams.gapFree, ?_⟩
      unfold TickerAt sentIndex
      rw [ticks, applyCh, lastApplied, snapPending, snapLastIdx]
      unfold TickerAt at ticker
      cases standing : rf.ticker with
      | waiting =>
          rw [standing] at ticker
          exact ⟨ticker.1, fun _ => ticker.1 ▸ covered⟩
      | sendEntries entries sent =>
          rw [standing] at ticker
          exact ⟨ticker.1, ticker.2.1, fun _ => ticker.1 ▸ covered⟩
      | sendSnapshot => trivial
      | snapshotSent =>
          rw [standing] at ticker
          simp only at ticker
          omega
  | @install args current newer applyCh ticks lastApplied snapPending snapLastIdx =>
      have notBooking : rf.booking = false := by
        simp only [orderly, Bool.or_eq_true, decide_eq_true_eq, Bool.not_eq_true'] at keeps
        rcases keeps with (other | covered) | past
        · exact other
        · omega
        · omega
      refine ⟨applyCh ▸ streams.gapFree, ?_⟩
      unfold TickerAt sentIndex
      rw [ticks, applyCh, lastApplied, snapPending]
      unfold TickerAt at ticker
      cases standing : rf.ticker with
      | waiting =>
          rw [standing] at ticker
          exact ⟨ticker.1, fun idle => nomatch idle⟩
      | sendEntries entries sent =>
          rw [standing] at ticker
          exact ⟨ticker.1, ticker.2.1, fun idle => nomatch idle⟩
      | sendSnapshot => trivial
      | snapshotSent =>
          rw [booking, standing] at notBooking
          cases notBooking
  | collect collected =>
      rcases collect_cases collected with ⟨idle, ⟨_, rfl⟩ | ⟨nothing, entries, _, rfl⟩⟩
      · exact ⟨streams.gapFree, trivial⟩
      · simp only [TickerAt, idle] at ticker
        rcases ticker with ⟨reached, compacted⟩
        have bound := compacted nothing
        refine ⟨streams.gapFree, ?_, Nat.zero_le _, fun _ => ?_⟩
        · change rf.sentIndex start = max rf.lastApplied rf.log.snapLastIdx + 0
          omega
        · change rf.log.snapLastIdx ≤ max rf.lastApplied rf.log.snapLastIdx + 0
          omega
  | send msg sent => exact streams.send sent
  | finish finished =>
      rcases finish_cases finished with ⟨entries, ticking, rfl⟩ | ⟨ticking, rfl⟩
      · simp only [TickerAt, ticking] at ticker
        exact ⟨streams.gapFree, ticker.1, ticker.2.2⟩
      · simp only [TickerAt, ticking] at ticker
        exact ⟨streams.gapFree, ticker, fun _ => le_rfl⟩

/-- Every command above the index has a snapshot before it that reaches the
index. -/
def SnapshotFirst (index : Nat) (msgs : List (ApplyMsg Command)) : Prop :=
  ∀ front msg back, msgs = front ++ msg :: back → msg.snapshotValid = false →
    index < msg.commandIndex →
    ∃ earlier ∈ front, earlier.snapshotValid = true ∧ index ≤ earlier.snapshotIndex

theorem snapshotFirst_nil (index : Nat) :
    SnapshotFirst index ([] : List (ApplyMsg Command)) := by
  intro front msg back shape
  simp at shape

theorem SnapshotFirst.concat {index : Nat} {msgs : List (ApplyMsg Command)}
    (ordered : SnapshotFirst index msgs) {msg : ApplyMsg Command}
    (last : msg.snapshotValid = false → index < msg.commandIndex →
      ∃ earlier ∈ msgs, earlier.snapshotValid = true ∧ index ≤ earlier.snapshotIndex) :
    SnapshotFirst index (msgs ++ [msg]) := by
  intro front other back shape command above
  rcases List.eq_nil_or_concat back with rfl | ⟨rest, final, rfl⟩
  · rcases List.append_inj' shape rfl with ⟨rfl, same⟩
    cases same
    exact last command above
  · rw [List.concat_eq_append, ← List.cons_append, ← List.append_assoc] at shape
    rcases List.append_inj' shape rfl with ⟨rfl, _⟩
    exact ordered front other rest rfl command above

/-- No command that the ticker has collected and not sent yet is above the index. -/
def quietAbove (index : Nat) (rf : Raft n Command) : Bool :=
  match rf.ticker with
  | .sendEntries entries sent =>
      sent = entries.length || rf.lastApplied + entries.length ≤ index
  | _ => true

/-- After a snapshot was accepted: it was sent, or it is pending and the ticker
will come to it before any command above it. -/
structure Delivering (index : Nat) (base : List (ApplyMsg Command)) (rf : Raft n Command)
    (sent : List (ApplyMsg Command)) : Prop where
  applyCh : rf.applyCh = base ++ sent
  ordered : SnapshotFirst index sent
  reaches : index ≤ rf.log.snapLastIdx
  progress :
    (∃ msg ∈ sent, msg.snapshotValid = true ∧ index ≤ msg.snapshotIndex) ∨
    (rf.snapPending = true ∧ rf.booking = false ∧ rf.quietAbove index = true)

theorem Delivering.send {index : Nat} {base sent : List (ApplyMsg Command)} {msg : ApplyMsg Command}
    (delivering : rf.Delivering index base sent) (sends : rf.send = some (next, msg)) :
    next.Delivering index base (sent ++ [msg]) := by
  rcases send_cases sends with
    ⟨entries, count, entry, ticking, found, message, rfl⟩ | ⟨ticking, message, rfl⟩
  · have within : count < entries.length := (List.getElem?_eq_some_iff.mp found).1
    rcases delivering.progress with ⟨snap, member, reached⟩ | ⟨pending, booking, quiet⟩
    · refine ⟨?_, delivering.ordered.concat fun _ _ => ⟨snap, member, reached⟩,
        delivering.reaches, .inl ⟨snap, List.mem_append_left _ member, reached⟩⟩
      rw [delivering.applyCh, List.append_assoc]
    · have below : rf.lastApplied + entries.length ≤ index := by
        simp only [quietAbove, ticking, Bool.or_eq_true, decide_eq_true_eq] at quiet
        omega
      refine ⟨?_, delivering.ordered.concat ?_, delivering.reaches, .inr ⟨pending, rfl, ?_⟩⟩
      · rw [delivering.applyCh, List.append_assoc]
      · intro _ above
        rw [message] at above
        simp only at above
        omega
      · simp only [quietAbove, Bool.or_eq_true, decide_eq_true_eq]
        exact .inr below
  · refine ⟨?_, delivering.ordered.concat ?_, delivering.reaches, .inl ⟨msg, by simp, ?_⟩⟩
    · rw [delivering.applyCh, List.append_assoc]
    · intro command
      rw [message] at command
      cases command
    · rw [message]
      exact ⟨rfl, delivering.reaches⟩

theorem Delivering.step {index : Nat} {base sent : List (ApplyMsg Command)} {call : Call n Command}
    (delivering : rf.Delivering index base sent) (step : ApplyStep rf next call) :
    ∃ sent', next.Delivering index base sent' := by
  cases step with
  | same same =>
      refine ⟨sent, same.applyCh.trans delivering.applyCh, delivering.ordered,
        same.snapLastIdx ▸ delivering.reaches, ?_⟩
      rw [booking, quietAbove, same.ticker, same.lastApplied, same.snapPending]
      exact delivering.progress
  | compact newer applyCh ticker lastApplied snapPending snapLastIdx =>
      refine ⟨sent, applyCh.trans delivering.applyCh, delivering.ordered, ?_, ?_⟩
      · rw [snapLastIdx]
        exact delivering.reaches.trans newer.le
      · rw [booking, quietAbove, ticker, lastApplied, snapPending]
        exact delivering.progress
  | install current newer applyCh ticker lastApplied snapPending snapLastIdx =>
      refine ⟨sent, applyCh.trans delivering.applyCh, delivering.ordered, ?_, ?_⟩
      · rw [snapLastIdx]
        exact delivering.reaches.trans newer.le
      · rw [booking, quietAbove, ticker, lastApplied, snapPending]
        exact delivering.progress.imp_right fun waiting => ⟨rfl, waiting.2⟩
  | collect collected =>
      rcases collect_cases collected with ⟨idle, ⟨pending, rfl⟩ | ⟨nothing, entries, _, rfl⟩⟩
      · exact ⟨sent, delivering.applyCh, delivering.ordered, delivering.reaches,
          .inr ⟨pending, rfl, rfl⟩⟩
      · refine ⟨sent, delivering.applyCh, delivering.ordered, delivering.reaches, .inl ?_⟩
        rcases delivering.progress with done | ⟨pending, _⟩
        · exact done
        · rw [nothing] at pending
          cases pending
  | send msg sends => exact ⟨_, delivering.send sends⟩
  | finish finished =>
      rcases finish_cases finished with ⟨entries, ticking, rfl⟩ | ⟨ticking, rfl⟩
      · exact ⟨sent, delivering.applyCh, delivering.ordered, delivering.reaches,
          delivering.progress.imp_right fun waiting => ⟨waiting.1, rfl, rfl⟩⟩
      · refine ⟨sent, delivering.applyCh, delivering.ordered, delivering.reaches, .inl ?_⟩
        rcases delivering.progress with done | ⟨_, booked, _⟩
        · exact done
        · rw [booking, ticking] at booked
          cases booked

theorem delivering_installSnapshot {args : InstallSnapshotArgs n}
    (current : rf.currentTerm ≤ args.term) (newer : rf.log.snapLastIdx < args.lastIncludedIndex)
    (booked : rf.booking = false) (quiet : rf.quietAbove args.lastIncludedIndex = true)
    (handled : rf.handle (.installSnapshot args) = some next) :
    next.Delivering args.lastIncludedIndex rf.applyCh [] := by
  have same := rf.sameApply_becomeFollowerLocked current
  rcases Option.map_eq_some_iff.mp handled with ⟨⟨_, reply⟩, installed, rfl⟩
  rcases installSnapshot_cases installed with
    ⟨past, _⟩ | ⟨_, covered, _⟩ | ⟨_, log, above, written, rfl⟩
  · omega
  · rw [same.snapLastIdx] at covered
    omega
  · refine ⟨?_, snapshotFirst_nil _, ?_, .inr ⟨rfl, ?_, ?_⟩⟩
    · rw [List.append_nil]
      exact same.applyCh
    · exact (RaftLog.installSnapshot_snapLastIdx above written).ge
    · rw [← booked, booking, booking, ← same.ticker]
      rfl
    · rw [← quiet, quietAbove, quietAbove, ← same.ticker, ← same.lastApplied]
      rfl

theorem make_streams (me : Fin n) (persister : Persister n Command) :
    (make me persister).Streams (make me persister).log.snapLastIdx := by
  have started : (make me persister).applyCh = [] ∧ (make me persister).ticker = .waiting ∧
      (make me persister).lastApplied = (make me persister).log.snapLastIdx := by
    unfold make readPersist
    dsimp only
    split
    · exact ⟨rfl, rfl, rfl⟩
    · split
      · exact ⟨rfl, rfl, rfl⟩
      · rename_i nothing
        exact ⟨rfl, rfl, (Nat.le_zero.mp (not_lt.mp nothing)).symm⟩
  refine ⟨?_, ?_⟩
  · rw [started.1]
    trivial
  · rw [TickerAt, started.2.1]
    refine ⟨?_, fun _ => started.2.2.ge⟩
    rw [sentIndex, started.1, started.2.2]
    rfl

/-- As long as the service compacts only what it was sent and no snapshot is
installed while one is being booked, the stream of a server has no gap.  At any
point of such a run, a snapshot accepted while the ticker holds no unsent command
above it is sent before every later command above it, whatever happens next. -/
theorem applyCh_gapFree {me : Fin n} {persister : Persister n Command} {rf : Raft n Command}
    (run : (serverSystem n Command).Run
      (fun rf call => rf.orderly (make me persister).log.snapLastIdx call = true)
      (make me persister) rf) :
    ApplyMsg.GapFree (make me persister).log.snapLastIdx rf.applyCh ∧
    ∀ args installed last, rf.currentTerm ≤ args.term →
      rf.log.snapLastIdx < args.lastIncludedIndex →
      rf.booking = false → rf.quietAbove args.lastIncludedIndex = true →
      rf.handle (.installSnapshot args) = some installed →
      (serverSystem n Command).Run System.anyStep installed last →
      ∃ sent, last.applyCh = rf.applyCh ++ sent ∧
        SnapshotFirst args.lastIncludedIndex sent := by
  have step : ∀ (rf : Raft n Command) call next, rf.Streams (make me persister).log.snapLastIdx →
      rf.orderly (make me persister).log.snapLastIdx call = true →
      (serverSystem n Command).step rf call = some next →
      next.Streams (make me persister).log.snapLastIdx :=
    fun _ _ _ streams keeps handled => streams.step keeps (applyStep_handle handled)
  refine ⟨(run.preserves step (make_streams me persister)).gapFree, ?_⟩
  intro args installed last current newer booked quiet handled later
  have progress : ∀ (rf' : Raft n Command) call next,
      (∃ sent, rf'.Delivering args.lastIncludedIndex rf.applyCh sent) →
      System.anyStep rf' call → (serverSystem n Command).step rf' call = some next →
      ∃ sent, next.Delivering args.lastIncludedIndex rf.applyCh sent := by
    rintro rf' call next ⟨sent, delivering⟩ _ moved
    exact delivering.step (applyStep_handle moved)
  rcases later.preserves progress
    ⟨[], delivering_installSnapshot current newer booked quiet handled⟩ with ⟨sent, delivering⟩
  exact ⟨sent, delivering.applyCh, delivering.ordered⟩

/-- A snapshot of a leader of term 2, and the entry after one. -/
def snapshotArgs (index : Nat) : InstallSnapshotArgs 2 :=
  { term := 2, leaderId := 1, lastIncludedIndex := index, lastIncludedTerm := 2,
    snapshot := [] }

def appendAfter (index : Nat) : AppendEntriesArgs 2 Nat :=
  { term := 2, leaderId := 1, prevLogIndex := index, prevLogTerm := 2,
    entries := [{ term := 2, commandValid := true, command := some 7 }],
    leaderCommit := index + 1 }

/-- The server receives a snapshot up to 5 and the command at 6. -/
def caughtUpServer : Raft 2 Nat :=
  (serverSystem 2 Nat).after (orderly 0)
    (make 0 (makePersister 2 Nat))
    [.installSnapshot (snapshotArgs 5), .collect, .send, .finish,
     .appendEntries (appendAfter 5), .collect, .send, .finish]

theorem applyCh_gapFree_caughtUp :
    caughtUpServer.applyCh.map ApplyMsg.index = [5, 6] ∧
      ApplyMsg.GapFree 0 caughtUpServer.applyCh :=
  ⟨rfl, (@applyCh_gapFree _ _ 0 (makePersister 2 Nat) caughtUpServer
    (System.run_after (orderly 0) _ _)).1⟩

/-- A second snapshot, up to 8, arrives after the first was sent and before it is
booked. -/
def skippingCalls : List (Call 2 Nat) :=
  [.installSnapshot (snapshotArgs 5), .collect, .send, .installSnapshot (snapshotArgs 8),
   .finish, .appendEntries (appendAfter 8), .collect, .send]

/-- The second snapshot is never sent, and the command at 9 follows the snapshot
up to 5. -/
theorem applyCh_skips_snapshot :
    ((serverSystem 2 Nat).execute (fun _ _ => true) (make 0 (makePersister 2 Nat))
      skippingCalls).map
      (fun rf => rf.applyCh.map fun msg => (msg.snapshotValid, msg.index)) =
        some [(true, 5), (false, 9)] ∧
    ¬ ApplyMsg.GapFree 0 ((serverSystem 2 Nat).after (fun _ _ => true)
      (make 0 (makePersister 2 Nat)) skippingCalls).applyCh := by
  refine ⟨by decide +kernel, ?_⟩
  intro gapFree
  exact absurd (gapFree.2.1 rfl) (by decide)

end MultiRaft.Raft
