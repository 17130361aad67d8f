import MultiRaft.Lib.System
import MultiRaft.Raft.WholeLog

/-!
# The compacted log as a plain list

What a log is for: a list of entries, indexed from 1.  Compaction does not change
it.  An installed snapshot replaces everything up to its index by entries nobody
reads any more, the last of which has the term of the snapshot.  Whatever
operations are applied, the compacted log answers as the plain one does, as far as
its snapshot lets it answer at all.
-/

namespace MultiRaft

variable {Command : Type}

/-- `covered` is how far the snapshot reaches. -/
structure PlainLog (Command : Type) where
  entries : List (LogEntry Command)
  covered : Nat
  bounded : covered ≤ entries.length

/-- The methods that change a log. -/
inductive LogOp (Command : Type) where
  | append (entry : LogEntry Command)
  | appendFrom (logicPrevIndex : Nat) (entries : List (LogEntry Command))
  | doSnapshot (index : Nat) (snapshot : Bytes)
  | installSnapshot (index term : Nat) (snapshot : Bytes)

namespace PlainLog

def empty : PlainLog Command := ⟨[], 0, Nat.le_refl 0⟩

def append (plain : PlainLog Command) (entry : LogEntry Command) : PlainLog Command where
  entries := plain.entries ++ [entry]
  covered := plain.covered
  bounded := by
    rw [List.length_append]
    exact plain.bounded.trans (Nat.le_add_right _ _)

def appendFrom (plain : PlainLog Command) (prev : Nat) (entries : List (LogEntry Command)) :
    PlainLog Command :=
  if inside : plain.covered ≤ prev ∧ prev ≤ plain.entries.length then
    { entries := plain.entries.take prev ++ entries
      covered := plain.covered
      bounded := by
        rw [List.length_append, List.length_take]
        omega }
  else plain

/-- Only what can be asked for changes. -/
def doSnapshot (plain : PlainLog Command) (index : Nat) : PlainLog Command :=
  if inside : plain.covered < index ∧ index ≤ plain.entries.length then
    { plain with covered := index, bounded := inside.2 }
  else plain

/-- The entries that a snapshot stands for: as many as its index, the last one of
its term.  The others are never read. -/
def image (entries : List (LogEntry Command)) (index term : Nat) : List (LogEntry Command) :=
  (entries.take (index - 1)).rightpad (index - 1) (.dummy invalidTerm) ++ [.dummy term]

theorem length_image (entries : List (LogEntry Command)) {index : Nat} (positive : 0 < index)
    (term : Nat) : (image entries index term).length = index := by
  rw [image, List.length_append, List.length_rightpad, List.length_take, List.length_singleton]
  omega

theorem lastTerm_image (entries : List (LogEntry Command)) (index term : Nat) :
    lastTerm (image entries index term) = term := by
  rw [image, lastTerm, List.getLast?_append, List.getLast?_singleton]
  rfl

def installSnapshot (plain : PlainLog Command) (index term : Nat) : PlainLog Command :=
  if newer : plain.covered < index then
    { entries := image plain.entries index term ++ plain.entries.drop index
      covered := index
      bounded := by
        rw [List.length_append, length_image _ (by omega)]
        exact Nat.le_add_right _ _ }
  else plain

/-- Index and term of the last entry. -/
def last (plain : PlainLog Command) : Nat × Nat :=
  (plain.entries.length, lastTerm plain.entries)

end PlainLog

def LogOp.perform (rl : RaftLog Command) : LogOp Command → Option (RaftLog Command)
  | .append entry => some (rl.append entry)
  | .appendFrom prev entries => rl.appendFrom prev entries
  | .doSnapshot index snapshot => rl.doSnapshot index snapshot
  | .installSnapshot index term snapshot => rl.installSnapshot index term snapshot

def LogOp.performPlain (plain : PlainLog Command) : LogOp Command → PlainLog Command
  | .append entry => plain.append entry
  | .appendFrom prev entries => plain.appendFrom prev entries
  | .doSnapshot index _ => plain.doSnapshot index
  | .installSnapshot index term _ => plain.installSnapshot index term

/-- Entries are appended to an index that the log still has. -/
def RaftLog.permits (rl : RaftLog Command) : LogOp Command → Bool
  | .appendFrom prev _ => decide (rl.snapLastIdx ≤ prev) && decide (prev < rl.size)
  | _ => true

/-- A log and the plain one, changed by the same operations. -/
def logSystem (Command : Type) : System (RaftLog Command × PlainLog Command) (LogOp Command) where
  init state := state = (newLog 0 0 [] [], .empty)
  step state op := (op.perform state.1).map fun next => (next, op.performPlain state.2)

namespace RaftLog

variable {rl next : RaftLog Command} {plain : PlainLog Command}

/-- The log shows what is left of the plain one. -/
def Refines (rl : RaftLog Command) (plain : PlainLog Command) : Prop :=
  rl.Represents plain.entries (plain.entries.take plain.covered)

theorem Refines.snapLastIdx (refines : rl.Refines plain) : rl.snapLastIdx = plain.covered := by
  rw [Represents.snapLastIdx refines, List.length_take, min_eq_left plain.bounded]

theorem Refines.length_take (refines : rl.Refines plain) :
    (plain.entries.take plain.covered).length = rl.snapLastIdx :=
  (Represents.snapLastIdx refines).symm

/-- Entries under the snapshot are not read. -/
theorem Represents.replace {log other snap : List (LogEntry Command)}
    (represents : rl.Represents log snap) (covered : snap.length ≤ other.length)
    (same : other.drop snap.length = log.drop snap.length) : rl.Represents other snap := by
  refine ⟨?_, represents.snapLastIdx, represents.snapLastTerm, covered⟩
  rw [represents.tailLog, represents.snapLastIdx, same]

theorem Refines.append (refines : rl.Refines plain) (entry : LogEntry Command) :
    (rl.append entry).Refines (plain.append entry) := by
  have kept : (plain.entries ++ [entry]).take plain.covered =
      plain.entries.take plain.covered := List.take_append_of_le_length plain.bounded
  unfold Refines PlainLog.append
  rw [kept]
  exact Represents.append refines entry

theorem Refines.appendFrom (refines : rl.Refines plain) {prev : Nat}
    {entries : List (LogEntry Command)} (appended : rl.appendFrom prev entries = some next) :
    next.Refines (plain.appendFrom prev entries) := by
  obtain ⟨above, below, _⟩ := appendFrom_bounds appended
  have size := Represents.size refines
  have covered := refines.snapLastIdx
  have length : (plain.entries.take prev).length = prev := by
    rw [List.length_take]
    omega
  rw [PlainLog.appendFrom, dif_pos (by omega)]
  have whole : (plain.entries.take prev ++ entries).take (prev + entries.length) =
      plain.entries.take prev ++ entries :=
    List.take_of_length_le (by rw [List.length_append, length])
  have kept : (plain.entries.take prev ++ entries).take plain.covered =
      plain.entries.take plain.covered := by
    rw [List.take_append_of_le_length (by omega), List.take_take, min_eq_left (by omega)]
  -- the plain log itself is the one that the entries continue
  have continued : entries = ((plain.entries.take prev ++ entries).take
      (prev + entries.length)).drop prev := by
    rw [whole, List.drop_left' length]
  have shown := Represents.appendFrom refines continued
    (by rw [List.length_append]; omega) (fun _ => (List.take_left' length).symm) appended
  rw [whole, ← kept] at shown
  exact shown

theorem Refines.doSnapshot (refines : rl.Refines plain) {index : Nat} {snapshot : Bytes}
    (compacted : rl.doSnapshot index snapshot = some next) :
    next.Refines (plain.doSnapshot index) := by
  have size := Represents.size refines
  have covered := refines.snapLastIdx
  have length := refines.length_take
  unfold PlainLog.doSnapshot
  split
  · rename_i inside
    have newer : (plain.entries.take plain.covered).length < index := by omega
    exact Represents.doSnapshot refines newer inside.2 compacted
  · rw [RaftLog.doSnapshot, if_pos (by omega)] at compacted
    cases compacted
    exact refines

theorem Refines.installSnapshot (refines : rl.Refines plain) {index term : Nat} {snapshot : Bytes}
    (installed : rl.installSnapshot index term snapshot = some next) :
    next.Refines (plain.installSnapshot index term) := by
  have covered := refines.snapLastIdx
  have cut := refines.length_take
  unfold PlainLog.installSnapshot
  split
  · rename_i newer
    have length : (PlainLog.image plain.entries index term).length = index :=
      PlainLog.length_image _ (by omega) term
    have shown := Represents.installSnapshot refines (by omega) length
      (PlainLog.lastTerm_image _ index term).symm installed
    unfold Refines
    rw [List.take_left' length]
    refine shown.replace (by rw [List.length_append]; omega) ?_
    rw [length, List.drop_left' length]
    split
    · rename_i short
      rw [List.drop_of_length_le short, List.drop_of_length_le length.le]
    · rfl
  · rw [RaftLog.installSnapshot, if_pos (by omega)] at installed
    cases installed
    exact refines

theorem Refines.perform (refines : rl.Refines plain) {op : LogOp Command}
    (performed : op.perform rl = some next) : next.Refines (op.performPlain plain) := by
  cases op with
  | append entry =>
      cases performed
      exact refines.append entry
  | appendFrom prev entries => exact refines.appendFrom performed
  | doSnapshot index snapshot => exact refines.doSnapshot performed
  | installSnapshot index term snapshot => exact refines.installSnapshot performed

theorem isSome_doSnapshot (rl : RaftLog Command) (index : Nat) (snapshot : Bytes) :
    (rl.doSnapshot index snapshot).isSome := by
  unfold RaftLog.doSnapshot
  split
  · rfl
  · have inside : index - rl.snapLastIdx < rl.tailLog.length := by
      simp only [size] at *
      omega
    rw [idx_of_mem (by omega) (by omega)]
    simp [List.getElem?_eq_getElem inside]

/-- No method panics. -/
theorem isSome_perform {op : LogOp Command} (permitted : rl.permits op = true) :
    (op.perform rl).isSome := by
  cases op with
  | append entry => rfl
  | appendFrom prev entries =>
      simp only [permits, Bool.and_eq_true, decide_eq_true_eq] at permitted
      simp [LogOp.perform, RaftLog.appendFrom, idx_of_mem permitted.1 permitted.2]
  | doSnapshot index snapshot => exact isSome_doSnapshot rl index snapshot
  | installSnapshot index term snapshot =>
      rcases Nat.lt_or_ge rl.snapLastIdx index with newer | older
      · exact isSome_installSnapshot newer term snapshot
      · rw [LogOp.perform, RaftLog.installSnapshot, if_pos older]
        rfl

theorem refines_of_reachable
    (reached : (logSystem Command).Reachable (fun state op => state.1.permits op = true)
      (rl, plain)) : rl.Refines plain := by
  let Holds : RaftLog Command × PlainLog Command → Prop := fun state => state.1.Refines state.2
  have start : ∀ state, (logSystem Command).init state → Holds state := by
    rintro _ rfl
    exact represents_newLog []
  suffices held : Holds (rl, plain) from held
  refine reached.preserves start ?_
  intro state op next refines _ stepped
  obtain ⟨rl, performed, rfl⟩ := Option.map_eq_some_iff.mp stepped
  exact refines.perform performed

end RaftLog

/-- After any operations, the log begins with the mock entry of its snapshot, it
answers as the plain list does, and no operation that is permitted panics. -/
theorem raftLog_refines_plainLog {rl : RaftLog Command} {plain : PlainLog Command}
    (reached : (logSystem Command).Reachable (fun state op => state.1.permits op = true)
      (rl, plain)) :
    (∃ first rest, rl.tailLog = first :: rest ∧ first.term = rl.snapLastTerm) ∧
    rl.snapLastIdx = plain.covered ∧
    rl.size = plain.entries.length + 1 ∧
    rl.last = plain.last ∧
    (∀ index, rl.snapLastIdx < index → index < rl.size →
      ∃ entry, rl.entryAt index = some entry ∧ plain.entries[index - 1]? = some entry) ∧
    (∀ index, rl.snapLastIdx < index →
      rl.tail index = some (plain.entries.drop (index - 1))) ∧
    ∀ op, rl.permits op = true → ∃ next, op.perform rl = some next := by
  have refines := RaftLog.refines_of_reachable reached
  have cut := refines.length_take
  refine ⟨⟨_, _, RaftLog.Represents.tailLog refines, rfl⟩, refines.snapLastIdx,
    RaftLog.Represents.size refines, RaftLog.Represents.last refines ?_, ?_, ?_, ?_⟩
  · intro whole
    rw [cut, refines.snapLastIdx] at whole
    exact (List.take_of_length_le whole).symm
  · intro index above below
    obtain ⟨entry, found⟩ := Option.isSome_iff_exists.mp (RaftLog.isSome_entryAt above.le below)
    refine ⟨entry, found, ?_⟩
    rw [← RaftLog.Represents.entryAt_of_lt refines (by omega), found]
  · intro index above
    have read : rl.tail (index - 1 + 1) = some (plain.entries.drop (index - 1)) :=
      RaftLog.Represents.tail refines (by omega)
    rwa [Nat.sub_add_cancel (by omega)] at read
  · intro op permitted
    exact Option.isSome_iff_exists.mp (RaftLog.isSome_perform permitted)

/-- A log is compacted at its last entry, receives a snapshot from beyond its end and
goes on from there. -/
def overtakenLog : RaftLog Nat × PlainLog Nat :=
  (logSystem Nat).after (fun state op => state.1.permits op) (newLog 0 0 [] [], .empty)
    [.append ⟨1, true, some 10⟩, .append ⟨1, true, some 11⟩, .doSnapshot 2 [],
     .installSnapshot 5 3 [], .append ⟨4, true, some 12⟩, .appendFrom 5 [⟨6, true, some 13⟩]]

theorem raftLog_refines_plainLog_overtaken :
    overtakenLog.1.snapLastIdx = 5 ∧ overtakenLog.1.last = (6, 6) ∧
    overtakenLog.1.size = overtakenLog.2.entries.length + 1 := by
  have reached : (logSystem Nat).Reachable (fun state op => state.1.permits op = true)
      overtakenLog :=
    ⟨_, rfl, System.run_after (fun (state : RaftLog Nat × PlainLog Nat) op => state.1.permits op)
      _ _⟩
  exact ⟨rfl, rfl, (raftLog_refines_plainLog reached).2.2.1⟩

end MultiRaft
