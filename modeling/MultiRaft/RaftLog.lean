import Mathlib.Data.List.Basic

/-!
# The compacted log of a server

`RaftLog` keeps the entries after index `snapLastIdx`; everything up to that
index lives in the snapshot.  `tailLog` starts with a dummy entry that carries
`snapLastTerm`, so that the entry before the first real one always has a term.

`idx` panics on an index outside `[snapLastIdx, size()-1]`.  A function that
calls it returns `none` where the program panics.
-/

namespace MultiRaft

abbrev Bytes := List UInt8

def invalidTerm : Nat := 0
def invalidIndex : Nat := 0

/-- `command` is an `interface{}`; `none` is its nil value. -/
structure LogEntry (Command : Type) where
  term : Nat
  commandValid : Bool
  command : Option Command
  deriving DecidableEq, Repr

/-- `LogEntry{Term: term}`, the mock entry at the snapshot index. -/
def LogEntry.dummy {Command : Type} (term : Nat) : LogEntry Command :=
  { term, commandValid := false, command := none }

structure RaftLog (Command : Type) where
  snapLastIdx : Nat
  snapLastTerm : Nat
  snapshot : Bytes
  tailLog : List (LogEntry Command)
  deriving DecidableEq, Repr

variable {Command : Type}

def newLog (snapLastIdx snapLastTerm : Nat) (snapshot : Bytes)
    (entries : List (LogEntry Command)) : RaftLog Command :=
  { snapLastIdx, snapLastTerm, snapshot,
    tailLog := LogEntry.dummy snapLastTerm :: entries }

namespace RaftLog

def size (rl : RaftLog Command) : Nat := rl.snapLastIdx + rl.tailLog.length

def idx (rl : RaftLog Command) (logicIdx : Nat) : Option Nat :=
  if logicIdx < rl.snapLastIdx ∨ logicIdx ≥ rl.size then none
  else some (logicIdx - rl.snapLastIdx)

/-- The method `at`. -/
def entryAt (rl : RaftLog Command) (logicIdx : Nat) : Option (LogEntry Command) := do
  let i ← rl.idx logicIdx
  rl.tailLog[i]?

/-- Index and term of the last entry. -/
def last (rl : RaftLog Command) : Nat × Nat :=
  match rl.tailLog.getLast? with
  | none => (rl.snapLastIdx, rl.snapLastTerm)
  | some entry => (rl.snapLastIdx + (rl.tailLog.length - 1), entry.term)

/-- The loop of `firstFor`, at logical index `index`. -/
def firstForFrom (term : Nat) : Nat → List (LogEntry Command) → Nat
  | _, [] => invalidIndex
  | index, entry :: rest =>
      if entry.term = term then index
      else if entry.term > term then invalidIndex
      else firstForFrom term (index + 1) rest

def firstFor (rl : RaftLog Command) (term : Nat) : Nat :=
  firstForFrom term rl.snapLastIdx rl.tailLog

def tail (rl : RaftLog Command) (startIdx : Nat) : Option (List (LogEntry Command)) :=
  if startIdx ≥ rl.size then some []
  else do
    let i ← rl.idx (if startIdx < rl.snapLastIdx then rl.snapLastIdx else startIdx)
    return rl.tailLog.drop i

def append (rl : RaftLog Command) (entry : LogEntry Command) : RaftLog Command :=
  { rl with tailLog := rl.tailLog ++ [entry] }

def appendFrom (rl : RaftLog Command) (logicPrevIndex : Nat)
    (entries : List (LogEntry Command)) : Option (RaftLog Command) := do
  let i ← rl.idx logicPrevIndex
  return { rl with tailLog := rl.tailLog.take (i + 1) ++ entries }

def doSnapshot (rl : RaftLog Command) (index : Nat) (snapshot : Bytes) :
    Option (RaftLog Command) :=
  if index ≤ rl.snapLastIdx ∨ index ≥ rl.size then some rl
  else do
    let i ← rl.idx index
    let entry ← rl.tailLog[i]?
    return { snapLastIdx := index, snapLastTerm := entry.term, snapshot,
             tailLog := LogEntry.dummy entry.term :: rl.tailLog.drop (i + 1) }

def installSnapshot (rl : RaftLog Command) (index term : Nat) (snapshot : Bytes) :
    Option (RaftLog Command) :=
  if index ≤ rl.snapLastIdx then some rl
  else if rl.size > index + 1 then do
    let i ← rl.idx index
    return { snapLastIdx := index, snapLastTerm := term, snapshot,
             tailLog := LogEntry.dummy term :: rl.tailLog.drop (i + 1) }
  else
    some { snapLastIdx := index, snapLastTerm := term, snapshot,
           tailLog := [LogEntry.dummy term] }

theorem idx_eq_some {rl : RaftLog Command} {logicIdx i : Nat} :
    rl.idx logicIdx = some i ↔
      rl.snapLastIdx ≤ logicIdx ∧ logicIdx < rl.size ∧ i = logicIdx - rl.snapLastIdx := by
  unfold idx
  split
  · simp only [reduceCtorEq, false_iff]
    omega
  · rw [Option.some.injEq]
    omega

variable {logicIdx : Nat}

theorem idx_of_mem {rl : RaftLog Command} (above : rl.snapLastIdx ≤ logicIdx)
    (below : logicIdx < rl.size) :
    rl.idx logicIdx = some (logicIdx - rl.snapLastIdx) :=
  idx_eq_some.mpr ⟨above, below, rfl⟩

theorem entryAt_of_mem {rl : RaftLog Command} (above : rl.snapLastIdx ≤ logicIdx)
    (below : logicIdx < rl.size) :
    rl.entryAt logicIdx = rl.tailLog[logicIdx - rl.snapLastIdx]? := by
  simp [entryAt, idx_of_mem above below]

theorem isSome_entryAt {rl : RaftLog Command} (above : rl.snapLastIdx ≤ logicIdx)
    (below : logicIdx < rl.size) :
    (rl.entryAt logicIdx).isSome := by
  rw [entryAt_of_mem above below, isSome_getElem?]
  simp only [size] at below
  omega

variable {entry : LogEntry Command}

theorem entryAt_bounds {rl : RaftLog Command} (found : rl.entryAt logicIdx = some entry) :
    rl.snapLastIdx ≤ logicIdx ∧ logicIdx < rl.size := by
  rcases Option.bind_eq_some_iff.mp found with ⟨i, inRange, _⟩
  have bounds := idx_eq_some.mp inRange
  exact ⟨bounds.1, bounds.2.1⟩

theorem entryAt_eq_some {rl : RaftLog Command} :
    rl.entryAt logicIdx = some entry ↔
      rl.snapLastIdx ≤ logicIdx ∧ rl.tailLog[logicIdx - rl.snapLastIdx]? = some entry := by
  constructor
  · intro found
    obtain ⟨above, below⟩ := entryAt_bounds found
    exact ⟨above, (entryAt_of_mem above below).symm.trans found⟩
  · rintro ⟨above, located⟩
    have within := (List.getElem?_eq_some_iff.mp located).1
    exact (entryAt_of_mem above (by rw [size]; omega)).trans located

variable {entries : List (LogEntry Command)}

theorem tail_eq {rl : RaftLog Command} {startIdx : Nat} (above : rl.snapLastIdx ≤ startIdx)
    (read : rl.tail startIdx = some entries) :
    entries = rl.tailLog.drop (startIdx - rl.snapLastIdx) := by
  unfold tail at read
  split at read
  · rename_i beyond
    cases read
    refine (List.drop_eq_nil_of_le ?_).symm
    simp only [size] at beyond
    omega
  · rw [if_neg (by omega)] at read
    obtain ⟨i, inRange, result⟩ := Option.bind_eq_some_iff.mp read
    obtain ⟨_, _, rfl⟩ := idx_eq_some.mp inRange
    cases result
    rfl

/-- The entries after an entry that is there go up to the end. -/
theorem length_of_tail {rl : RaftLog Command} (found : rl.entryAt logicIdx = some entry)
    (read : rl.tail (logicIdx + 1) = some entries) : logicIdx + entries.length + 1 = rl.size := by
  obtain ⟨above, below⟩ := entryAt_bounds found
  have length := congrArg List.length (tail_eq (by omega) read)
  rw [List.length_drop] at length
  simp only [size] at below ⊢
  omega

/-- In a list in order, the loop of `firstFor` misses no entry of the term and stops at
the first one. -/
theorem firstForFrom_cases (term : Nat)
    (sorted : entries.Pairwise fun earlier later => earlier.term ≤ later.term) (start : Nat) :
    (firstForFrom term start entries = invalidIndex ∧ ∀ entry ∈ entries, entry.term ≠ term) ∨
    ∃ (position : Nat) (entry : LogEntry Command),
      firstForFrom term start entries = start + position ∧
      entries[position]? = some entry ∧ entry.term = term ∧
      ∀ (other : Nat) (found : LogEntry Command),
        entries[other]? = some found → found.term = term → position ≤ other := by
  induction entries generalizing start with
  | nil => exact .inl ⟨rfl, nofun⟩
  | cons first rest inductionHypothesis =>
      obtain ⟨before, sortedRest⟩ := List.pairwise_cons.mp sorted
      by_cases same : first.term = term
      · right
        exact ⟨0, first, by rw [firstForFrom, if_pos same]; rfl, rfl, same, fun _ _ _ _ =>
          Nat.zero_le _⟩
      by_cases larger : term < first.term
      · left
        refine ⟨by rw [firstForFrom, if_neg same, if_pos larger], ?_⟩
        intro entry member
        rcases List.mem_cons.mp member with rfl | later
        · exact same
        · have notSmaller := before entry later
          omega
      · have next : firstForFrom term start (first :: rest) =
            firstForFrom term (start + 1) rest := by
          rw [firstForFrom, if_neg same, if_neg larger]
        rw [next]
        rcases inductionHypothesis sortedRest (start + 1) with
          ⟨missing, absent⟩ | ⟨position, entry, found, located, isTerm, least⟩
        · refine .inl ⟨missing, ?_⟩
          intro entry member
          rcases List.mem_cons.mp member with rfl | later
          · exact same
          · exact absent entry later
        · refine .inr ⟨position + 1, entry, by omega, located, isTerm, ?_⟩
          intro other another there its
          cases other with
          | zero =>
              cases there
              exact absurd its same
          | succ other => exact Nat.succ_le_succ (least other another there its)

variable {rl next : RaftLog Command}

theorem appendFrom_snapLastIdx {prev : Nat} (appended : rl.appendFrom prev entries = some next) :
    next.snapLastIdx = rl.snapLastIdx := by
  rcases Option.bind_eq_some_iff.mp appended with ⟨i, _, result⟩
  cases result
  rfl

theorem appendFrom_bounds {prev : Nat} (appended : rl.appendFrom prev entries = some next) :
    rl.snapLastIdx ≤ prev ∧ prev < rl.size ∧ next.size = prev + 1 + entries.length := by
  obtain ⟨i, inRange, result⟩ := Option.bind_eq_some_iff.mp appended
  obtain ⟨above, below, rfl⟩ := idx_eq_some.mp inRange
  cases result
  refine ⟨above, below, ?_⟩
  simp only [size, List.length_append, List.length_take] at below ⊢
  omega

/-- The entries stand right after the index they were appended to. -/
theorem entryAt_appendFrom {prev : Nat} (appended : rl.appendFrom prev entries = some next)
    (k : Nat) : next.entryAt (prev + 1 + k) = entries[k]? := by
  have snapshot := appendFrom_snapLastIdx appended
  obtain ⟨above, below, length⟩ := appendFrom_bounds appended
  by_cases inside : k < entries.length
  · rw [entryAt_of_mem (by omega) (by omega), snapshot]
    obtain ⟨i, inRange, result⟩ := Option.bind_eq_some_iff.mp appended
    obtain ⟨-, -, rfl⟩ := idx_eq_some.mp inRange
    cases result
    have taken : (rl.tailLog.take (prev - rl.snapLastIdx + 1)).length =
        prev - rl.snapLastIdx + 1 := by
      rw [List.length_take]
      simp only [size] at below
      omega
    rw [List.getElem?_append_right (by omega), taken]
    congr 1
    omega
  · rw [List.getElem?_eq_none (Nat.le_of_not_lt inside), entryAt, idx, if_pos (by omega)]
    rfl

theorem appendFrom_of_mem {prev : Nat} (above : rl.snapLastIdx ≤ prev) (below : prev < rl.size)
    (entries : List (LogEntry Command)) :
    rl.appendFrom prev entries =
      some { rl with tailLog := rl.tailLog.take (prev - rl.snapLastIdx + 1) ++ entries } := by
  rw [appendFrom, idx_of_mem above below]
  rfl

/-- The entries up to the index that others are appended to stay. -/
theorem entryAt_appendFrom_of_le {prev index : Nat}
    (appended : rl.appendFrom prev entries = some next) (before : index ≤ prev) :
    next.entryAt index = rl.entryAt index := by
  obtain ⟨above, below, length⟩ := appendFrom_bounds appended
  have snapshot := appendFrom_snapLastIdx appended
  rcases Nat.lt_or_ge index rl.snapLastIdx with outside | inside
  · rw [entryAt, entryAt, idx, idx, if_pos (.inl (by omega)), if_pos (.inl outside)]
    rfl
  · rw [entryAt_of_mem inside (by omega), entryAt_of_mem (by omega) (by omega), snapshot]
    rw [appendFrom_of_mem above below] at appended
    cases appended
    simp only [size] at below
    rw [List.getElem?_append_left (by rw [List.length_take]; omega),
      List.getElem?_take_of_lt (by omega)]

/-- A cut further down forgets what was appended above it. -/
theorem appendFrom_forgets {middle : RaftLog Command} {prev later : Nat}
    (appended : rl.appendFrom later entries = some middle) (before : prev ≤ later)
    (others : List (LogEntry Command)) :
    middle.appendFrom prev others = rl.appendFrom prev others := by
  obtain ⟨above, below, length⟩ := appendFrom_bounds appended
  have snapshot := appendFrom_snapLastIdx appended
  rcases Nat.lt_or_ge prev rl.snapLastIdx with outside | inside
  · rw [appendFrom, appendFrom, idx, idx, if_pos (.inl (by omega)), if_pos (.inl outside)]
    rfl
  · rw [appendFrom_of_mem inside (by omega), appendFrom_of_mem (by omega) (by omega), snapshot]
    rw [appendFrom_of_mem above below] at appended
    cases appended
    simp only [size] at below
    rw [List.take_append_of_le_length (by rw [List.length_take]; omega), List.take_take,
      Nat.min_eq_left (by omega)]

/-- Appending again what already stands there changes nothing. -/
theorem appendFrom_again {prev later : Nat} (appended : rl.appendFrom prev entries = some next)
    (after : prev ≤ later) (within : later ≤ prev + entries.length) :
    next.appendFrom later (entries.drop (later - prev)) = some next := by
  obtain ⟨above, below, length⟩ := appendFrom_bounds appended
  have snapshot := appendFrom_snapLastIdx appended
  rw [appendFrom_of_mem (by omega) (by omega), snapshot]
  rw [appendFrom_of_mem above below] at appended
  cases appended
  simp only [size] at below
  have front : (rl.tailLog.take (prev - rl.snapLastIdx + 1)).length = prev - rl.snapLastIdx + 1 := by
    rw [List.length_take]
    omega
  have cut : (rl.tailLog.take (prev - rl.snapLastIdx + 1) ++ entries).take
        (later - rl.snapLastIdx + 1) =
      rl.tailLog.take (prev - rl.snapLastIdx + 1) ++ entries.take (later - prev) := by
    rw [show later - rl.snapLastIdx + 1 = (rl.tailLog.take (prev - rl.snapLastIdx + 1)).length +
      (later - prev) by omega, List.take_length_add_append]
  rw [cut, List.append_assoc, List.take_append_drop]

/-- The log with one more entry. -/
theorem size_append (rl : RaftLog Command) (entry : LogEntry Command) :
    (rl.append entry).size = rl.size + 1 := by
  simp [size, append, Nat.add_assoc]

variable {index : Nat}

theorem entryAt_append (below : index < rl.size) :
    (rl.append entry).entryAt index = rl.entryAt index := by
  rcases Nat.lt_or_ge index rl.snapLastIdx with outside | above
  · rw [entryAt, entryAt, idx, idx, if_pos (.inl outside), if_pos (.inl outside)]
    rfl
  · have inNew : index < (rl.append entry).size := by
      rw [size_append]
      omega
    have aboveNew : (rl.append entry).snapLastIdx ≤ index := above
    rw [entryAt_of_mem above below, entryAt_of_mem aboveNew inNew]
    refine List.getElem?_append_left ?_
    change index - rl.snapLastIdx < rl.tailLog.length
    simp only [size] at below
    omega

theorem entryAt_append_self (entry : LogEntry Command) :
    (rl.append entry).entryAt rl.size = some entry := by
  rw [entryAt_of_mem (by simp [size, append]) (by rw [size_append]; omega)]
  simp [append, size]

variable {snapshot : Bytes}

/-- Compaction does nothing, or cuts at an entry that the log has. -/
theorem doSnapshot_cases (compacted : rl.doSnapshot index snapshot = some next) :
    next = rl ∨
    (rl.snapLastIdx < index ∧ index < rl.size ∧ ∃ entry,
      rl.tailLog[index - rl.snapLastIdx]? = some entry ∧
      next = { snapLastIdx := index, snapLastTerm := entry.term, snapshot,
               tailLog := LogEntry.dummy entry.term ::
                 rl.tailLog.drop (index - rl.snapLastIdx + 1) }) := by
  unfold doSnapshot at compacted
  split at compacted
  · cases compacted
    exact .inl rfl
  · obtain ⟨i, inRange, rest⟩ := Option.bind_eq_some_iff.mp compacted
    obtain ⟨entry, found, result⟩ := Option.bind_eq_some_iff.mp rest
    obtain ⟨_, below, rfl⟩ := idx_eq_some.mp inRange
    cases result
    exact .inr ⟨by omega, below, entry, found, rfl⟩

theorem doSnapshot_snapLastIdx (compacted : rl.doSnapshot index snapshot = some next) :
    next = rl ∨ next.snapLastIdx = index := by
  rcases doSnapshot_cases compacted with same | ⟨_, _, entry, _, rfl⟩
  · exact .inl same
  · exact .inr rfl

theorem size_doSnapshot (compacted : rl.doSnapshot index snapshot = some next) :
    next.size = rl.size := by
  rcases doSnapshot_cases compacted with rfl | ⟨above, below, entry, _, rfl⟩
  · rfl
  · simp only [size, List.length_cons, List.length_drop] at below ⊢
    omega

/-- What is left of the log keeps its place. -/
theorem entryAt_doSnapshot {position : Nat} (compacted : rl.doSnapshot index snapshot = some next)
    (above : next.snapLastIdx < position) : next.entryAt position = rl.entryAt position := by
  have size := size_doSnapshot compacted
  rcases doSnapshot_cases compacted with rfl | ⟨newer, below, entry, _, rfl⟩
  · rfl
  · dsimp only at above
    rcases Nat.lt_or_ge position rl.size with inside | outside
    · rw [entryAt_of_mem (by dsimp only; omega) (by omega), entryAt_of_mem (by omega) inside,
        show position - index = position - index - 1 + 1 by omega, List.getElem?_cons_succ,
        List.getElem?_drop]
      congr 1
      omega
    · rw [entryAt, entryAt, idx, idx, if_pos (by omega), if_pos (by omega)]
      rfl

/-- Compaction does not change the last index and term, even at the last index. -/
theorem last_doSnapshot (compacted : rl.doSnapshot index snapshot = some next) :
    next.last = rl.last := by
  rcases doSnapshot_cases compacted with rfl | ⟨newer, below, entry, found, rfl⟩
  · rfl
  · have within : index - rl.snapLastIdx < rl.tailLog.length :=
      (List.getElem?_eq_some_iff.mp found).1
    have filled : rl.tailLog ≠ [] := List.ne_nil_of_length_pos (by omega)
    rcases Nat.lt_or_ge (index - rl.snapLastIdx + 1) rl.tailLog.length with more | all
    · have rest : rl.tailLog.drop (index - rl.snapLastIdx + 1) ≠ [] := by
        rw [Ne, List.drop_eq_nil_iff]
        omega
      simp only [last, List.getLast?_cons, List.getLast?_eq_some_getLast rest,
        List.getLast?_eq_some_getLast filled, Option.getD_some, List.getLast_drop,
        List.length_cons, List.length_drop]
      congr 1
      omega
    · -- the entry cut at is the last one, and the mock entry takes its place
      have atEnd : rl.tailLog.getLast? = some entry := by
        rw [List.getLast?_eq_getElem?, ← found]
        congr 1
        omega
      simp only [last, List.drop_eq_nil_of_le all, List.getLast?_singleton, atEnd,
        List.length_singleton, LogEntry.dummy]
      congr 1
      omega

/-- An installed snapshot keeps the entries behind it, or stands alone. -/
theorem installSnapshot_cases {term : Nat} (newer : rl.snapLastIdx < index)
    (installed : rl.installSnapshot index term snapshot = some next) :
    (index + 1 < rl.size ∧ next =
      { snapLastIdx := index, snapLastTerm := term, snapshot,
        tailLog := LogEntry.dummy term :: rl.tailLog.drop (index - rl.snapLastIdx + 1) }) ∨
    (rl.size ≤ index + 1 ∧ next =
      { snapLastIdx := index, snapLastTerm := term, snapshot,
        tailLog := [LogEntry.dummy term] }) := by
  unfold installSnapshot at installed
  rw [if_neg (by omega)] at installed
  split at installed
  · rename_i longer
    obtain ⟨i, inRange, result⟩ := Option.bind_eq_some_iff.mp installed
    obtain ⟨_, _, rfl⟩ := idx_eq_some.mp inRange
    cases result
    exact .inl ⟨longer, rfl⟩
  · rename_i shorter
    cases installed
    exact .inr ⟨Nat.le_of_not_lt shorter, rfl⟩

theorem installSnapshot_snapLastIdx {term : Nat} (newer : rl.snapLastIdx < index)
    (installed : rl.installSnapshot index term snapshot = some next) :
    next.snapLastIdx = index := by
  rcases installSnapshot_cases newer installed with ⟨_, rfl⟩ | ⟨_, rfl⟩
  · rfl
  · rfl

theorem isSome_installSnapshot (newer : rl.snapLastIdx < index) (term : Nat) (snapshot : Bytes) :
    (rl.installSnapshot index term snapshot).isSome := by
  unfold installSnapshot
  rw [if_neg (Nat.not_le.mpr newer)]
  split
  · rw [idx_of_mem (Nat.le_of_lt newer) (by omega)]
    rfl
  · rfl

theorem entryAt_installSnapshot {term : Nat} (newer : rl.snapLastIdx < index)
    (installed : rl.installSnapshot index term snapshot = some next) :
    next.entryAt index = some (.dummy term) := by
  rcases installSnapshot_cases newer installed with ⟨_, rfl⟩ | ⟨_, rfl⟩
  all_goals
    rw [entryAt_of_mem (Nat.le_refl _) (by simp [size]), Nat.sub_self]
    rfl

/-- The tail starts with the mock entry of the snapshot. -/
def Headed (rl : RaftLog Command) : Prop :=
  ∃ entries, rl.tailLog = LogEntry.dummy rl.snapLastTerm :: entries

theorem Headed.snapLastIdx_lt (headed : rl.Headed) :
    rl.snapLastIdx < rl.size := by
  obtain ⟨entries, shape⟩ := headed
  simp [size, shape]

theorem Headed.entryAt_snapLastIdx (headed : rl.Headed) :
    rl.entryAt rl.snapLastIdx = some (.dummy rl.snapLastTerm) := by
  rw [entryAt_of_mem (Nat.le_refl _) headed.snapLastIdx_lt, Nat.sub_self]
  obtain ⟨entries, shape⟩ := headed
  rw [shape]
  rfl

theorem size_le (rl : RaftLog Command) : rl.size ≤ rl.last.1 + 1 := by
  unfold last size
  cases found : rl.tailLog.getLast? with
  | none =>
      rw [List.getLast?_eq_none_iff.mp found]
      exact Nat.le_succ _
  | some entry =>
      dsimp only
      omega

theorem snapLastIdx_le_last (rl : RaftLog Command) : rl.snapLastIdx ≤ rl.last.1 := by
  unfold last
  cases rl.tailLog.getLast? with
  | none => exact Nat.le_refl _
  | some entry => exact Nat.le_add_right _ _

theorem Headed.size_eq (headed : rl.Headed) :
    rl.size = rl.last.1 + 1 := by
  obtain ⟨entries, shape⟩ := headed
  simp [size, last, shape, List.getLast?_cons, Nat.add_assoc]

theorem headed_newLog (snapLastIdx snapLastTerm : Nat) (snapshot : Bytes)
    (entries : List (LogEntry Command)) :
    (newLog snapLastIdx snapLastTerm snapshot entries).Headed :=
  ⟨entries, rfl⟩

theorem Headed.append (headed : rl.Headed) (entry : LogEntry Command) :
    (rl.append entry).Headed := by
  rcases headed with ⟨entries, shape⟩
  exact ⟨entries ++ [entry], by simp [RaftLog.append, shape]⟩

theorem Headed.appendFrom {prev : Nat} (headed : rl.Headed)
    (appended : rl.appendFrom prev entries = some next) : next.Headed := by
  rcases Option.bind_eq_some_iff.mp appended with ⟨i, _, result⟩
  cases result
  rcases headed with ⟨old, shape⟩
  exact ⟨old.take i ++ entries, by simp [shape]⟩

theorem Headed.doSnapshot (headed : rl.Headed)
    (compacted : rl.doSnapshot index snapshot = some next) :
    next.Headed := by
  rcases doSnapshot_cases compacted with rfl | ⟨_, _, entry, _, rfl⟩
  · exact headed
  · exact ⟨_, rfl⟩

theorem Headed.installSnapshot {term : Nat} (headed : rl.Headed)
    (installed : rl.installSnapshot index term snapshot = some next) : next.Headed := by
  unfold RaftLog.installSnapshot at installed
  split at installed
  · cases installed
    exact headed
  split at installed
  · rcases Option.bind_eq_some_iff.mp installed with ⟨i, _, result⟩
    cases result
    exact ⟨_, rfl⟩
  · cases installed
    exact ⟨[], rfl⟩

end RaftLog

end MultiRaft
