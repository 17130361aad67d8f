import MultiRaft.Raft.Persistence

/-!
# What one section does to the log

Five sections change a log, and each of them goes with a role: only a leader
appends, whoever takes over entries or a snapshot becomes a follower, and
compaction leaves role and term alone.  Candidates are made in a new term only.
-/

namespace MultiRaft.Raft

variable {n : Nat} {Command : Type}

inductive LogStep (rf next : Raft n Command) : Call n Command → Prop
  | kept {call : Call n Command} (log : next.log = rf.log) : LogStep rf next call
  | append {command : Option Command} (leads : rf.role = .leader) (role : next.role = .leader)
      (term : next.currentTerm = rf.currentTerm)
      (log : next.log = rf.log.append
        { term := rf.currentTerm, commandValid := true, command }) :
      LogStep rf next (.start command)
  | adopt {args : AppendEntriesArgs n Command} {prev : LogEntry Command}
      (current : rf.currentTerm ≤ args.term) (role : next.role = .follower)
      (term : next.currentTerm = args.term)
      (found : rf.log.entryAt args.prevLogIndex = some prev)
      (prevTerm : prev.term = args.prevLogTerm)
      (log : rf.log.appendFrom args.prevLogIndex args.entries = some next.log) :
      LogStep rf next (.appendEntries args)
  | install {args : InstallSnapshotArgs n} (current : rf.currentTerm ≤ args.term)
      (role : next.role = .follower) (term : next.currentTerm = args.term)
      (newer : rf.log.snapLastIdx < args.lastIncludedIndex)
      (log : rf.log.installSnapshot args.lastIncludedIndex args.lastIncludedTerm args.snapshot =
        some next.log) :
      LogStep rf next (.installSnapshot args)
  | compact {index : Nat} {bytes : Bytes} (role : next.role = rf.role)
      (term : next.currentTerm = rf.currentTerm) (committed : index ≤ rf.commitIndex)
      (newer : rf.log.snapLastIdx < index)
      (log : rf.log.doSnapshot index bytes = some next.log) :
      LogStep rf next (.snapshot index bytes)

/-- What any section does to the log, the commit index and a candidacy. -/
structure Proceeds (rf next : Raft n Command) (call : Call n Command) : Prop where
  log : LogStep rf next call
  commit : rf.commitIndex ≤ next.commitIndex
  candidate : next.role = .candidate →
    (rf.role = .candidate ∧ next.currentTerm = rf.currentTerm) ∨ rf.currentTerm < next.currentTerm

variable {rf next : Raft n Command} {call : Call n Command}

theorem Proceeds.of_same (log : next.log = rf.log) (commit : rf.commitIndex ≤ next.commitIndex)
    (role : next.role = rf.role) (term : next.currentTerm = rf.currentTerm) :
    Proceeds rf next call :=
  ⟨.kept log, commit, fun isCandidate => .inl ⟨role ▸ isCandidate, term⟩⟩

/-- A section that leaves a follower makes no candidate. -/
theorem Proceeds.of_follower (log : LogStep rf next call)
    (commit : rf.commitIndex ≤ next.commitIndex) (role : next.role = .follower) :
    Proceeds rf next call :=
  ⟨log, commit, fun isCandidate => nomatch isCandidate.symm.trans role⟩

/-- Aligning the term keeps a candidacy of the same term and ends one of an earlier
term. -/
theorem proceeds_aligned {term : Nat} (current : rf.currentTerm ≤ term)
    (log : next.log = (rf.aligned term).log)
    (commit : next.commitIndex = (rf.aligned term).commitIndex)
    (role : next.role = (rf.aligned term).role)
    (sameTerm : next.currentTerm = (rf.aligned term).currentTerm) : Proceeds rf next call := by
  rcases rf.aligned_cases current with ⟨_, result⟩ | ⟨_, result⟩
  · rw [result] at log commit role sameTerm
    exact .of_same log commit.ge role sameTerm
  · rw [result] at log commit role
    exact .of_follower (.kept log) commit.ge role

theorem proceeds_handle (handled : rf.handle call = some next) : Proceeds rf next call := by
  cases handle_outcome handled with
  | follow _ term current =>
      exact .of_follower (.kept (rf.becomeFollowerLocked_log current))
        (rf.becomeFollowerLocked_commitIndex current).ge (rf.becomeFollowerLocked_role current)
  | stand => exact ⟨.kept rfl, le_rfl, fun _ => .inr (Nat.lt_succ_self _)⟩
  | vote args current => exact proceeds_aligned current rfl rfl rfl rfl
  | win => exact ⟨.kept rfl, le_rfl, nofun⟩
  | adopt args prev log current found prevTerm written =>
      have role := rf.becomeFollowerLocked_role current
      exact .of_follower (.adopt current role (rf.becomeFollowerLocked_currentTerm current) found
        prevTerm written) (le_max_left _ _) role
  | commit peer args reply majority sameTerm leads more => exact .of_same rfl more.le rfl rfl
  | install args log current newer written =>
      have role := rf.becomeFollowerLocked_role current
      exact .of_follower (.install current role (rf.becomeFollowerLocked_currentTerm current)
        newer written) (rf.becomeFollowerLocked_commitIndex current).ge role
  | start command leads =>
      exact ⟨.append leads leads rfl rfl, le_rfl,
        fun isCandidate => nomatch isCandidate.symm.trans leads⟩
  | compact index bytes log committed newer written =>
      exact ⟨.compact rfl rfl committed newer written, le_rfl,
        fun isCandidate => .inl ⟨isCandidate, rfl⟩⟩
  | bookSnapshot => exact .of_same rfl (le_max_left _ _) rfl rfl
  | stay | replicate | probe | count | ship | awaitSnapshot | collect | sendEntry | sendSnapshot
  | bookEntries => exact .of_same rfl le_rfl rfl rfl

end MultiRaft.Raft
