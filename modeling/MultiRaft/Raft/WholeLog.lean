import MultiRaft.RaftLog
import MultiRaft.Lib.Replication.Basic

/-!
# The whole log behind a compacted one

A `RaftLog` shows the part of a whole log that follows its snapshot.  The
snapshot stands for a list of its own: after `InstallSnapshot` the entries below
it may be others than the ones the server once had.
-/

namespace MultiRaft

variable {Command : Type}

instance : Termed (LogEntry Command) where
  termOf entry := entry.term

theorem drop_take_append_drop_take {Entry : Type*} (log : List Entry) {start middle stop : Nat}
    (front : start ≤ middle) (back : middle ≤ stop) :
    (log.take middle).drop start ++ (log.take stop).drop middle = (log.take stop).drop start := by
  have first : (log.take middle).drop start = ((log.take stop).drop start).take (middle - start) := by
    rw [List.take_drop, List.take_take, Nat.add_sub_cancel' front, min_eq_left back]
  have second : (log.take stop).drop middle = ((log.take stop).drop start).drop (middle - start) := by
    rw [List.drop_drop, Nat.add_sub_cancel' front]
  rw [first, second, List.take_append_drop]

namespace RaftLog

structure Represents (rl : RaftLog Command) (log snap : List (LogEntry Command)) : Prop where
  tailLog : rl.tailLog = LogEntry.dummy rl.snapLastTerm :: log.drop rl.snapLastIdx
  snapLastIdx : rl.snapLastIdx = snap.length
  snapLastTerm : rl.snapLastTerm = lastTerm snap
  covered : snap.length ≤ log.length

variable {rl : RaftLog Command} {log snap : List (LogEntry Command)}

theorem represents_newLog (bytes : Bytes) :
    (newLog invalidIndex invalidTerm bytes ([] : List (LogEntry Command))).Represents [] [] :=
  ⟨rfl, rfl, rfl, le_rfl⟩

theorem Represents.size (represents : rl.Represents log snap) : rl.size = log.length + 1 := by
  have covered := represents.covered
  rw [RaftLog.size, represents.tailLog, List.length_cons, List.length_drop,
    represents.snapLastIdx]
  omega

theorem Represents.entryAt_of_lt (represents : rl.Represents log snap) {index : Nat}
    (beyond : snap.length < index) : rl.entryAt index = log[index - 1]? := by
  have size := represents.size
  have sameIdx := represents.snapLastIdx
  rcases Nat.lt_or_ge index rl.size with within | outside
  · rw [entryAt_of_mem (by omega) within, represents.tailLog,
      show index - rl.snapLastIdx = index - 1 - rl.snapLastIdx + 1 by omega,
      List.getElem?_cons_succ, List.getElem?_drop, Nat.add_sub_cancel' (by omega)]
  · rw [List.getElem?_eq_none (by omega), Option.eq_none_iff_forall_ne_some]
    intro entry found
    have bounds := (entryAt_bounds found).2
    omega

/-- What `at` reads is the mock entry of the snapshot or an entry of the log. -/
theorem Represents.entryAt (represents : rl.Represents log snap) {index : Nat}
    {entry : LogEntry Command} (found : rl.entryAt index = some entry) :
    (index = snap.length ∧ entry = .dummy (lastTerm snap)) ∨
      (snap.length < index ∧ log[index - 1]? = some entry) := by
  obtain ⟨above, below⟩ := entryAt_bounds found
  have sameIdx := represents.snapLastIdx
  rcases Nat.eq_or_lt_of_le above with atSnap | beyond
  · left
    rw [entryAt_of_mem above below, represents.tailLog, ← atSnap, Nat.sub_self,
      List.getElem?_cons_zero] at found
    rw [← represents.snapLastTerm]
    exact ⟨by omega, (Option.some.inj found).symm⟩
  · right
    rw [represents.entryAt_of_lt (by omega)] at found
    exact ⟨by omega, found⟩

/-- An entry that `at` finds has the last term of the log up to it, provided the
snapshot has the one of the log it replaced. -/
theorem Represents.entryAt_term (represents : rl.Represents log snap)
    (trusted : lastTerm snap = lastTerm (log.take snap.length)) {index : Nat}
    {entry : LogEntry Command} (found : rl.entryAt index = some entry) :
    entry.term = lastTerm (log.take index) ∧ snap.length ≤ index ∧ index ≤ log.length := by
  rcases represents.entryAt found with ⟨rfl, rfl⟩ | ⟨beyond, inLog⟩
  · exact ⟨trusted, le_rfl, represents.covered⟩
  · have within := (List.getElem?_eq_some_iff.mp inLog).1
    have last := lastTerm_of_getElem? inLog
    rw [Nat.sub_add_cancel (by omega)] at last
    exact ⟨last.symm, beyond.le, by omega⟩

theorem Represents.last (represents : rl.Represents log snap)
    (short : log.length ≤ snap.length → log = snap) :
    rl.last = (log.length, lastTerm log) := by
  have covered := represents.covered
  rw [RaftLog.last, represents.tailLog, represents.snapLastIdx]
  rcases Nat.eq_or_lt_of_le covered with equal | longer
  · have same := short equal.ge
    rw [same, List.drop_length]
    simp [LogEntry.dummy, represents.snapLastTerm]
  · have nonempty : log.drop snap.length ≠ [] := by
      rw [Ne, List.drop_eq_nil_iff]
      omega
    obtain ⟨entry, found⟩ : ∃ entry, log.getLast? = some entry := by
      rw [List.getLast?_eq_getElem?]
      exact ⟨_, List.getElem?_eq_getElem (show log.length - 1 < log.length by omega)⟩
    have last : (LogEntry.dummy rl.snapLastTerm :: log.drop snap.length).getLast? = some entry := by
      rw [List.getLast?_cons_of_ne_nil nonempty, List.getLast?_drop, if_neg (by omega), found]
    simp only [last, lastTerm, found, List.length_cons, List.length_drop, Option.map_some,
      Option.getD_some, Prod.mk.injEq]
    exact ⟨by omega, rfl⟩

/-- The entries after a position of the log. -/
theorem Represents.tail (represents : rl.Represents log snap) {prev : Nat}
    (covered : snap.length ≤ prev) : rl.tail (prev + 1) = some (log.drop prev) := by
  have size := represents.size
  have sameIdx := represents.snapLastIdx
  unfold RaftLog.tail
  split
  · rw [List.drop_of_length_le (by omega)]
  · rw [if_neg (by omega), idx_of_mem (by omega) (by omega), represents.tailLog,
      show prev + 1 - rl.snapLastIdx = prev - rl.snapLastIdx + 1 by omega]
    simp only [Option.pure_def, Option.bind_eq_bind, Option.bind_some, List.drop_succ_cons,
      List.drop_drop]
    rw [Nat.add_sub_cancel' (by omega)]

theorem Represents.append (represents : rl.Represents log snap) (entry : LogEntry Command) :
    (rl.append entry).Represents (log ++ [entry]) snap := by
  have covered := represents.covered
  refine ⟨?_, represents.snapLastIdx, represents.snapLastTerm, ?_⟩
  · change rl.tailLog ++ [entry] = _ :: (log ++ [entry]).drop rl.snapLastIdx
    rw [represents.tailLog, represents.snapLastIdx, List.drop_append_of_le_length covered]
    rfl
  · rw [List.length_append]
    omega

/-- The log after `appendFrom`, if the entries continue another log that agrees
with this one as far as the tail shows it. -/
theorem Represents.appendFrom (represents : rl.Represents log snap) {prev : Nat}
    {entries leader : List (LogEntry Command)} {next : RaftLog Command}
    (entries_eq : entries = (leader.take (prev + entries.length)).drop prev)
    (bound : prev + entries.length ≤ leader.length)
    (agrees : snap.length < prev → log.take prev = leader.take prev)
    (appended : rl.appendFrom prev entries = some next) :
    next.Represents (leader.take (prev + entries.length)) snap := by
  obtain ⟨i, inRange, result⟩ := Option.bind_eq_some_iff.mp appended
  cases result
  obtain ⟨above, below, rfl⟩ := idx_eq_some.mp inRange
  have sameIdx := represents.snapLastIdx
  refine ⟨?_, sameIdx, represents.snapLastTerm, ?_⟩
  · change rl.tailLog.take (prev - rl.snapLastIdx + 1) ++ entries = _
    rw [represents.tailLog, List.take_succ_cons, List.cons_append, sameIdx]
    congr 1
    have middle : (log.drop snap.length).take (prev - snap.length) =
        (leader.take prev).drop snap.length := by
      rw [List.take_drop, Nat.add_sub_cancel' (by omega)]
      rcases Nat.eq_or_lt_of_le (show snap.length ≤ prev by omega) with atSnap | beyond
      · rw [← atSnap, List.drop_of_length_le (List.length_take_le _ _),
          List.drop_of_length_le (List.length_take_le _ _)]
      · rw [agrees beyond]
    rw [middle]
    nth_rewrite 1 [entries_eq]
    exact drop_take_append_drop_take leader (by omega) (by omega)
  · rw [List.length_take]
    omega

theorem Represents.doSnapshot (represents : rl.Represents log snap) {index : Nat}
    {bytes : Bytes} {next : RaftLog Command} (newer : snap.length < index)
    (within : index ≤ log.length) (compacted : rl.doSnapshot index bytes = some next) :
    next.Represents log (log.take index) := by
  have size := represents.size
  have sameIdx := represents.snapLastIdx
  unfold RaftLog.doSnapshot at compacted
  rw [if_neg (by omega)] at compacted
  obtain ⟨i, inRange, rest⟩ := Option.bind_eq_some_iff.mp compacted
  obtain ⟨_, _, rfl⟩ := idx_eq_some.mp inRange
  obtain ⟨entry, found, result⟩ := Option.bind_eq_some_iff.mp rest
  cases result
  rw [represents.tailLog,
    show index - rl.snapLastIdx = index - 1 - rl.snapLastIdx + 1 by omega,
    List.getElem?_cons_succ, List.getElem?_drop, Nat.add_sub_cancel' (by omega)] at found
  have last := lastTerm_of_getElem? found
  rw [Nat.sub_add_cancel (by omega)] at last
  refine ⟨?_, ?_, last.symm, ?_⟩
  · change _ :: rl.tailLog.drop (index - rl.snapLastIdx + 1) = _ :: log.drop index
    rw [represents.tailLog, List.drop_succ_cons, List.drop_drop, Nat.add_sub_cancel' (by omega)]
  · rw [List.length_take, min_eq_left within]
  · exact List.length_take_le' _ _

theorem Represents.installSnapshot (represents : rl.Represents log snap) {index term : Nat}
    {bytes : Bytes} {next : RaftLog Command} {image : List (LogEntry Command)}
    (newer : snap.length < index) (length : image.length = index) (last : term = lastTerm image)
    (installed : rl.installSnapshot index term bytes = some next) :
    next.Represents (if log.length ≤ index then image else log) image := by
  have size := represents.size
  have sameIdx := represents.snapLastIdx
  unfold RaftLog.installSnapshot at installed
  rw [if_neg (by omega)] at installed
  split at installed
  · rw [idx_of_mem (by omega) (by omega)] at installed
    cases installed
    rw [if_neg (by omega)]
    refine ⟨?_, length.symm, last, by omega⟩
    change _ :: rl.tailLog.drop (index - rl.snapLastIdx + 1) = _ :: log.drop index
    rw [represents.tailLog, List.drop_succ_cons, List.drop_drop, Nat.add_sub_cancel' (by omega)]
  · cases installed
    rw [if_pos (by omega)]
    refine ⟨?_, length.symm, last, le_rfl⟩
    rw [List.drop_of_length_le length.le]

end RaftLog

end MultiRaft
