import Mathlib.Algebra.BigOperators.Fin
import MultiRaft.Lib.System
import MultiRaft.Porcupine.Verdict

/-!
# `checkParallel`

One goroutine for each partition runs `checkSingle` and sends its verdict over a
buffered channel.  The main goroutine collects the verdicts until one of them is
false, all have come, or the time is up, and tells the others to stop through the
variable `kill`.  The steps of all goroutines and the timer are interleaved in any
order.
-/

namespace MultiRaft.Porcupine

variable {State Input Output : Type}

inductive CheckResult where
  | unknown
  | ok
  | illegal
  deriving DecidableEq

/-- A goroutine runs the loop of `checkSingle`, has written its `longest[i]` and is about to
send, or has ended. -/
inductive Worker (State Input Output : Type) where
  | running (search : Search State Input Output)
  | sending (ok : Bool)
  | ended

def Worker.isEnded : Worker State Input Output → Bool
  | .ended => true
  | _ => false

/-- Where the main goroutine is: in its loop, behind the loop, or at the return.  The
partial linearizations are returned with `computeInfo` only. -/
inductive Phase (k : Nat) where
  | collecting
  | collected
  | returned (result : CheckResult) (partials : Option (Fin k → List (List Nat)))

/-- The variables of `checkParallel`; the buffer of the channel `results` has the oldest
value first. -/
structure Check (State Input Output : Type) (k : Nat) where
  workers : Fin k → Worker State Input Output
  longest : Fin k → Longest
  results : List Bool
  kill : Bool
  count : Nat
  ok : Bool
  timedOut : Bool
  phase : Phase k

inductive CheckEvent (k : Nat) where
  | work (i : Fin k)
  | receive
  | timeout
  | proceed
  deriving DecidableEq

/-- `longest[i]` as a set of unique linearizations, which a range over a map lists in any
order. -/
def partialLinearizations (longest : Longest) : List (List Nat) := (longest.filterMap id).dedup

namespace Check

variable {k : Nat} [DecidableEq State] (model : Model State Input Output)
  (computeInfo : Bool)

/-- The next step of a goroutine: a round of the loop, or the send, which waits while the
buffer is full. -/
def work (i : Fin k) (check : Check State Input Output k) : Option (Check State Input Output k) :=
  match check.workers i with
  | .running search =>
      match search.step model computeInfo check.kill with
      | none => none
      | some (.inl next) =>
          some { check with workers := Function.update check.workers i (.running next) }
      | some (.inr (ok, l)) =>
          some { check with
            workers := Function.update check.workers i (.sending ok)
            longest := Function.update check.longest i l }
  | .sending ok =>
      if check.results.length < k then
        some { check with
          workers := Function.update check.workers i .ended
          results := check.results ++ [ok] }
      else none
  | .ended => none

/-- The first case of the select, or the receive behind the loop. -/
def receive (check : Check State Input Output k) : Option (Check State Input Output k) :=
  match check.phase, check.results with
  | .collecting, result :: results =>
      let check := { check with results, count := check.count + 1, ok := check.ok && result }
      if !check.ok && !computeInfo then some { check with kill := true, phase := .collected }
      else if k ≤ check.count then some { check with phase := .collected }
      else some check
  | .collected, _ :: results =>
      if computeInfo && check.count < k then
        some { check with results, count := check.count + 1 }
      else none
  | _, _ => none

/-- The second case of the select. -/
def timeout (check : Check State Input Output k) : Option (Check State Input Output k) :=
  match check.phase with
  | .collecting => some { check with timedOut := true, kill := true, phase := .collected }
  | _ => none

def result (check : Check State Input Output k) : CheckResult :=
  if !check.ok then .illegal else if check.timedOut then .unknown else .ok

def info (check : Check State Input Output k) : Option (Fin k → List (List Nat)) :=
  if computeInfo then some fun i => partialLinearizations (check.longest i) else none

/-- The return, for which `computeInfo` waits for all goroutines. -/
def proceed (check : Check State Input Output k) : Option (Check State Input Output k) :=
  match check.phase with
  | .collected =>
      if computeInfo && check.count < k then none
      else some { check with phase := .returned check.result (check.info computeInfo) }
  | _ => none

/-- The timer runs only if there is a timeout. -/
def step (timed : Bool) (check : Check State Input Output k) :
    CheckEvent k → Option (Check State Input Output k)
  | .work i => check.work model computeInfo i
  | .receive => check.receive computeInfo
  | .timeout => if timed then check.timeout else none
  | .proceed => check.proceed computeInfo

end Check

section

variable [DecidableEq State] (model : Model State Input Output)

/-- The goroutines are started with all variables at their first values. -/
def startCheck (history : List (List (Entry Input Output)))
    (searches : Fin history.length → Search State Input Output) :
    Check State Input Output history.length :=
  { workers := fun i => .running (searches i)
    longest := fun _ => []
    results := []
    kill := false
    count := 0
    ok := true
    timedOut := false
    phase := .collecting }

def checkParallel (history : List (List (Entry Input Output))) (computeInfo timed : Bool) :
    System (Check State Input Output history.length) (CheckEvent history.length) where
  init check := ∃ searches, (∀ i, startSearch model (history.get i) = some (searches i)) ∧
    check = startCheck history searches
  step check event := check.step model computeInfo timed event

end

section Workers

variable {k : Nat} [DecidableEq State] {model : Model State Input Output} {computeInfo : Bool}
  {check next : Check State Input Output k}

/-- A round of the loop, seen from the rest of the loop. -/
theorem checkLoop_cases {fuel : Nat} {search : Search State Input Output} {result : Bool × Longest}
    (ended : checkLoop model computeInfo fuel search = some result) :
    ∃ less, fuel = less + 1 ∧
      (search.step model computeInfo false = some (.inr result) ∨
        ∃ next, search.step model computeInfo false = some (.inl next) ∧
          checkLoop model computeInfo less next = some result) := by
  cases fuel with
  | zero => cases ended
  | succ less =>
      refine ⟨less, rfl, ?_⟩
      rw [checkLoop] at ended
      cases stepped : search.step model computeInfo false with
      | none => simp only [stepped, reduceCtorEq] at ended
      | some outcome =>
          rw [stepped] at ended
          cases outcome with
          | inl next => exact .inr ⟨next, rfl, ended⟩
          | inr result' =>
              cases ended
              exact .inl rfl

/-- A goroutine that sees `kill` stops. -/
theorem step_killed (model : Model State Input Output) (computeInfo : Bool)
    (search : Search State Input Output) :
    ∃ ok longest, search.step model computeInfo true = some (.inr (ok, longest)) := by
  rw [Search.step]
  split
  · exact ⟨_, _, rfl⟩
  · exact ⟨_, _, rfl⟩

/-- A goroutine that goes on has not seen `kill`. -/
theorem alive_of_goes_on {killed : Bool} {search further : Search State Input Output}
    (taken : search.step model computeInfo killed = some (.inl further)) : killed = false := by
  cases killed with
  | false => rfl
  | true =>
      obtain ⟨ok, longest, stops⟩ := step_killed model computeInfo search
      cases stops.symm.trans taken

/-- The three things a goroutine does. -/
theorem work_cases {i : Fin k} (stepped : check.work model computeInfo i = some next) :
    (∃ search search', check.workers i = .running search ∧
      search.step model computeInfo check.kill = some (.inl search') ∧
      next = { check with workers := Function.update check.workers i (.running search') }) ∨
    (∃ search ok l, check.workers i = .running search ∧
      search.step model computeInfo check.kill = some (.inr (ok, l)) ∧
      next = { check with
        workers := Function.update check.workers i (.sending ok)
        longest := Function.update check.longest i l }) ∨
    ∃ ok, check.workers i = .sending ok ∧
      next = { check with
        workers := Function.update check.workers i .ended
        results := check.results ++ [ok] } := by
  rw [Check.work] at stepped
  split at stepped
  · rename_i search isRunning
    split at stepped
    · cases stepped
    · rename_i search' taken
      cases stepped
      exact .inl ⟨search, search', isRunning, taken, rfl⟩
    · rename_i ok l taken
      cases stepped
      exact .inr (.inl ⟨search, ok, l, isRunning, taken, rfl⟩)
  · rename_i ok isSending
    split at stepped
    · cases stepped
      exact .inr (.inr ⟨ok, isSending, rfl⟩)
    · cases stepped
  · cases stepped

omit [DecidableEq State] in
/-- The ways to receive: the loop goes on, it ends since a partition failed or since all
results have come, or a result is thrown away behind the loop. -/
theorem receive_cases (stepped : check.receive computeInfo = some next) :
    ∃ result rest, check.results = result :: rest ∧
      ((check.phase = .collecting ∧
        ((check.ok && result) = false ∧ computeInfo = false ∧
            next = { check with
              results := rest, count := check.count + 1, ok := check.ok && result
              kill := true, phase := .collected } ∨
          ((check.ok && result) = true ∨ computeInfo = true) ∧
            ((k ≤ check.count + 1 ∧
                next = { check with
                  results := rest, count := check.count + 1, ok := check.ok && result
                  phase := .collected }) ∨
              (check.count + 1 < k ∧
                next = { check with
                  results := rest, count := check.count + 1, ok := check.ok && result })))) ∨
        check.phase = .collected ∧ computeInfo = true ∧ check.count < k ∧
          next = { check with results := rest, count := check.count + 1 }) := by
  rw [Check.receive] at stepped
  split at stepped
  · rename_i result rest collecting results
    refine ⟨result, rest, results, .inl ⟨collecting, ?_⟩⟩
    dsimp only at stepped
    split at stepped
    · rename_i failed
      cases stepped
      rw [Bool.and_eq_true, Bool.not_eq_true', Bool.not_eq_true'] at failed
      exact .inl ⟨failed.1, failed.2, rfl⟩
    · rename_i goes
      have open_ : (check.ok && result) = true ∨ computeInfo = true := by
        cases computeInfo <;> simp_all
      split at stepped
      · rename_i full
        cases stepped
        exact .inr ⟨open_, .inl ⟨full, rfl⟩⟩
      · rename_i few
        cases stepped
        exact .inr ⟨open_, .inr ⟨Nat.lt_of_not_le few, rfl⟩⟩
  · rename_i result rest collected results
    split at stepped
    · rename_i waits
      cases stepped
      rw [Bool.and_eq_true, decide_eq_true_eq] at waits
      exact ⟨result, rest, results, .inr ⟨collected, waits.1, waits.2, rfl⟩⟩
    · cases stepped
  · cases stepped

omit [DecidableEq State] in
theorem timeout_cases (stepped : check.timeout = some next) : check.phase = .collecting ∧
    next = { check with timedOut := true, kill := true, phase := .collected } := by
  rw [Check.timeout] at stepped
  split at stepped
  · rename_i collecting
    cases stepped
    exact ⟨collecting, rfl⟩
  · cases stepped

omit [DecidableEq State] in
theorem proceed_cases (stepped : check.proceed computeInfo = some next) :
    check.phase = .collected ∧ (computeInfo = true → k ≤ check.count) ∧
      next = { check with phase := .returned check.result (check.info computeInfo) } := by
  rw [Check.proceed] at stepped
  split at stepped
  · rename_i collected
    split at stepped
    · cases stepped
    · rename_i goes
      cases stepped
      refine ⟨collected, ?_, rfl⟩
      rintro rfl
      simpa using goes
  · cases stepped

/-- The goroutines that have ended. -/
def endedSet (workers : Fin k → Worker State Input Output) : Finset (Fin k) :=
  Finset.univ.filter fun i => (workers i).isEnded = true

end Workers

section Ended

variable {k : Nat} {workers : Fin k → Worker State Input Output} {i : Fin k}

theorem mem_endedSet : i ∈ endedSet workers ↔ workers i = .ended := by
  simp only [endedSet, Finset.mem_filter, Finset.mem_univ, true_and]
  cases workers i <;> simp [Worker.isEnded]

theorem endedSet_update {worker : Worker State Input Output} (before : workers i ≠ .ended)
    (after : worker ≠ .ended) : endedSet (Function.update workers i worker) = endedSet workers := by
  ext j
  by_cases same : j = i
  · subst same
    simp [mem_endedSet, before, after]
  · rw [mem_endedSet, mem_endedSet, Function.update_of_ne same]

theorem endedSet_ended (workers : Fin k → Worker State Input Output) (i : Fin k) :
    endedSet (Function.update workers i .ended) = insert i (endedSet workers) := by
  ext j
  by_cases same : j = i
  · subst same
    simp [mem_endedSet]
  · rw [mem_endedSet, Finset.mem_insert, mem_endedSet, Function.update_of_ne same]
    simp [same]

end Ended

section Genuine

variable {k : Nat} {verdict : Fin k → Bool} {longests : Fin k → Longest}
  {check : Check State Input Output k} {i : Fin k}

/-- What a goroutine sends and writes is what the search of its partition comes to. -/
def Worker.Genuine (verdict : Bool) (longest written : Longest) : Worker State Input Output → Prop
  | .running _ => True
  | .sending ok => ok = verdict ∧ written = longest
  | .ended => written = longest

/-- As long as nothing is killed, what has been sent are the verdicts of the partitions. -/
structure Check.Genuine (verdict : Fin k → Bool) (longests : Fin k → Longest)
    (check : Check State Input Output k) : Prop where
  workers : ∀ i, (check.workers i).Genuine (verdict i) (longests i) (check.longest i)
  received : ∃ got : List Bool, got.length = check.count ∧ check.ok = got.all id ∧
    ((got ++ check.results : List Bool) : Multiset Bool) = (endedSet check.workers).val.map verdict

/-- What has been sent is the verdict of some partition. -/
theorem Check.Genuine.exists_verdict (genuine : check.Genuine verdict longests) {result : Bool}
    (sent : result ∈ check.results) : ∃ i, verdict i = result := by
  obtain ⟨got, -, -, values⟩ := genuine.received
  have member : result ∈ (endedSet check.workers).val.map verdict := by
    rw [← values]
    exact Multiset.mem_coe.mpr (List.mem_append_right _ sent)
  obtain ⟨i, -, isVerdict⟩ := Multiset.mem_map.mp member
  exact ⟨i, isVerdict⟩

/-- All verdicts have been received and were true. -/
theorem Check.Genuine.all_true {result : Bool} {rest : List Bool}
    (genuine : check.Genuine verdict longests) (results : check.results = result :: rest)
    (counted : check.count + check.results.length = (endedSet check.workers).card)
    (full : k ≤ check.count + 1) (ok : (check.ok && result) = true) (i : Fin k) :
    verdict i = true := by
  obtain ⟨got, size, isOk, values⟩ := genuine.received
  have bound : (endedSet check.workers).card ≤ k :=
    (Finset.card_le_univ _).trans_eq (Fintype.card_fin k)
  rw [results, List.length_cons] at counted
  have last : rest = [] := List.eq_nil_of_length_eq_zero (by omega)
  have everyone : endedSet check.workers = Finset.univ := by
    rw [← Finset.card_eq_iff_eq_univ, Fintype.card_fin]
    omega
  have member : verdict i ∈ got ++ [result] := by
    rw [results, last, everyone] at values
    rw [← Multiset.mem_coe, values]
    exact Multiset.mem_map_of_mem verdict (Finset.mem_univ i)
  rw [isOk, Bool.and_eq_true, List.all_eq_true] at ok
  rcases List.mem_append.mp member with early | last
  · exact ok.1 _ early
  · exact List.mem_singleton.mp last ▸ ok.2

theorem Check.Genuine.receive {result : Bool} {rest : List Bool} {phase : Phase k}
    (genuine : check.Genuine verdict longests) (results : check.results = result :: rest) :
    Check.Genuine verdict longests { check with
      results := rest, count := check.count + 1, ok := check.ok && result, phase } := by
  obtain ⟨got, size, isOk, values⟩ := genuine.received
  refine ⟨genuine.workers, got ++ [result], ?_, ?_, ?_⟩
  · rw [List.length_append, size]
    rfl
  · simp [isOk]
  · rw [← values, results, List.append_assoc]
    rfl

/-- One goroutine moves, and its `longest[i]` may be written. -/
theorem Check.Genuine.update (genuine : check.Genuine verdict longests) (i : Fin k)
    (worker : Worker State Input Output) (longest : Longest)
    (here : worker.Genuine (verdict i) (longests i) longest) (j : Fin k) :
    (Function.update check.workers i worker j).Genuine (verdict j) (longests j)
      (Function.update check.longest i longest j) := by
  by_cases same : j = i
  · subst same
    rwa [Function.update_self, Function.update_self]
  · rw [Function.update_of_ne same, Function.update_of_ne same]
    exact genuine.workers j

/-- A goroutine that has not sent yet. -/
theorem Check.Genuine.move (genuine : check.Genuine verdict longests)
    (worker : Worker State Input Output) (longest : Longest) (before : check.workers i ≠ .ended)
    (after : worker ≠ .ended) (here : worker.Genuine (verdict i) (longests i) longest) :
    Check.Genuine verdict longests { check with
      workers := Function.update check.workers i worker
      longest := Function.update check.longest i longest } := by
  refine ⟨genuine.update i worker longest here, ?_⟩
  rw [endedSet_update before after]
  exact genuine.received

/-- A goroutine that sends its verdict. -/
theorem Check.Genuine.send {ok : Bool} (genuine : check.Genuine verdict longests)
    (isSending : check.workers i = .sending ok) :
    Check.Genuine verdict longests { check with
      workers := Function.update check.workers i .ended
      results := check.results ++ [ok] } := by
  have before := genuine.workers i
  rw [isSending] at before
  refine ⟨?_, ?_⟩
  · have after := genuine.update i .ended (check.longest i) before.2
    rwa [Function.update_eq_self] at after
  · obtain ⟨got, size, isOk, values⟩ := genuine.received
    have fresh : i ∉ endedSet check.workers := fun ended => by
      cases isSending.symm.trans (mem_endedSet.mp ended)
    refine ⟨got, size, isOk, ?_⟩
    rw [endedSet_ended, Finset.insert_val_of_notMem fresh, Multiset.map_cons, ← values,
      ← before.1, ← List.append_assoc]
    exact Multiset.coe_eq_coe.mpr (List.perm_append_singleton ok _)

end Genuine

section Tracks

variable {k : Nat} [DecidableEq State]

/-- What is known of the variables in every state. -/
structure Check.Tracks (model : Model State Input Output) (computeInfo timed : Bool)
    (verdict : Fin k → Bool) (longests : Fin k → Longest) (check : Check State Input Output k) :
    Prop where
  running : ∀ i search, check.workers i = .running search →
    ∃ fuel, checkLoop model computeInfo fuel search = some (verdict i, longests i)
  counted : check.count + check.results.length = (endedSet check.workers).card
  genuine : check.kill = false → check.Genuine verdict longests
  collecting : check.phase = .collecting →
    check.kill = false ∧ check.timedOut = false ∧ (check.count < k ∨ k = 0)
  refuted : check.ok = false → ∃ i, verdict i = false
  stopped : check.phase ≠ .collecting → check.kill = false → k ≤ check.count
  confirmed : check.phase ≠ .collecting → check.ok = true → check.timedOut = false →
    ∀ i, verdict i = true
  killed : check.kill = true → check.timedOut = true ∨ computeInfo = false
  timer : check.timedOut = true → timed = true
  returned : ∀ result partials, check.phase = .returned result partials →
    result = check.result ∧
      (computeInfo = true → k ≤ check.count ∧
        partials = some fun i => partialLinearizations (check.longest i))

variable {model : Model State Input Output} {computeInfo timed : Bool} {verdict : Fin k → Bool}
  {longests : Fin k → Longest} {check next : Check State Input Output k}

theorem Check.Tracks.count_le (tracks : check.Tracks model computeInfo timed verdict longests) :
    check.count + check.results.length ≤ k := by
  rw [tracks.counted]
  exact (Finset.card_le_univ _).trans_eq (Fintype.card_fin k)

/-- All goroutines have ended when their results have been received. -/
theorem Check.Tracks.all_ended (tracks : check.Tracks model computeInfo timed verdict longests)
    (all : k ≤ check.count) (i : Fin k) : check.workers i = .ended := by
  have counted := tracks.counted
  have full : endedSet check.workers = Finset.univ := by
    rw [← Finset.card_eq_iff_eq_univ, Fintype.card_fin]
    have bound := tracks.count_le
    omega
  exact mem_endedSet.mp (full ▸ Finset.mem_univ i)

theorem Check.Tracks.receive (tracks : check.Tracks model computeInfo timed verdict longests)
    (stepped : check.receive computeInfo = some next) :
    next.Tracks model computeInfo timed verdict longests := by
  obtain ⟨result, rest, results, ⟨collecting, ⟨failed, noInfo, rfl⟩ | ⟨_, ⟨full, rfl⟩ | ⟨few, rfl⟩⟩⟩ |
    ⟨collected, info, few, rfl⟩⟩ := receive_cases stepped
  all_goals
    have counted : check.count + 1 + rest.length = (endedSet check.workers).card := by
      rw [← tracks.counted, results, List.length_cons]
      omega
  all_goals
    have refuted : check.phase = .collecting → (check.ok && result) = false →
        ∃ i, verdict i = false := by
      intro collecting failed
      cases isOk : check.ok with
      | false => exact tracks.refuted isOk
      | true =>
          rw [isOk, Bool.true_and] at failed
          exact (tracks.genuine (tracks.collecting collecting).1).exists_verdict
            (results ▸ failed ▸ List.mem_cons_self)
  · refine ⟨tracks.running, counted, ?_, ?_, fun _ => refuted collecting failed, ?_, ?_,
      fun _ => .inr noInfo, tracks.timer, ?_⟩
    · intro alive
      cases alive
    · intro impossible
      cases impossible
    · intro _ alive
      cases alive
    · intro _ isOk
      cases failed.symm.trans isOk
    · intro _ _ impossible
      cases impossible
  · have genuine := tracks.genuine (tracks.collecting collecting).1
    refine ⟨tracks.running, counted, fun _ => genuine.receive results, ?_, refuted collecting,
      fun _ _ => full, ?_, tracks.killed, tracks.timer, ?_⟩
    · intro impossible
      cases impossible
    · intro _ isOk _
      exact genuine.all_true results tracks.counted full isOk
    · intro _ _ impossible
      cases impossible
  · obtain ⟨alive, untimed, -⟩ := tracks.collecting collecting
    refine ⟨tracks.running, counted, fun _ => (tracks.genuine alive).receive results,
      fun _ => ⟨alive, untimed, .inl few⟩, refuted collecting, ?_, ?_, tracks.killed, tracks.timer,
      ?_⟩
    · exact fun away => absurd collecting away
    · exact fun away => absurd collecting away
    · intro _ _ isReturned
      cases collecting.symm.trans isReturned
  · have away : check.phase ≠ .collecting := fun collecting => by
      cases collected.symm.trans collecting
    have dead : check.kill = false → False := fun alive =>
      absurd (tracks.stopped away alive) (Nat.not_le.mpr few)
    refine ⟨tracks.running, counted, fun alive => (dead alive).elim, ?_, tracks.refuted,
      fun _ alive => (dead alive).elim, fun _ => tracks.confirmed away, tracks.killed, tracks.timer, ?_⟩
    · exact fun collecting => absurd collecting away
    · intro _ _ isReturned
      cases collected.symm.trans isReturned

theorem Check.Tracks.timeout (tracks : check.Tracks model computeInfo true verdict longests)
    (stepped : check.timeout = some next) :
    next.Tracks model computeInfo true verdict longests := by
  obtain ⟨-, rfl⟩ := timeout_cases stepped
  refine ⟨tracks.running, tracks.counted, ?_, ?_, tracks.refuted, ?_, ?_, fun _ => .inl rfl,
    fun _ => rfl, ?_⟩
  · intro alive
    cases alive
  · intro impossible
    cases impossible
  · intro _ alive
    cases alive
  · intro _ _ untimed
    cases untimed
  · intro _ _ impossible
    cases impossible

theorem Check.Tracks.proceed (tracks : check.Tracks model computeInfo timed verdict longests)
    (stepped : check.proceed computeInfo = some next) :
    next.Tracks model computeInfo timed verdict longests := by
  obtain ⟨collected, waited, rfl⟩ := proceed_cases stepped
  have away : check.phase ≠ .collecting := fun collecting => by
    cases collected.symm.trans collecting
  refine ⟨tracks.running, tracks.counted, ?_, ?_, tracks.refuted, fun _ => tracks.stopped away,
    fun _ => tracks.confirmed away, tracks.killed, tracks.timer, ?_⟩
  · exact fun alive => ⟨(tracks.genuine alive).workers, (tracks.genuine alive).received⟩
  · intro impossible
    cases impossible
  · intro result partials isReturned
    cases isReturned
    refine ⟨rfl, ?_⟩
    rintro rfl
    exact ⟨waited rfl, rfl⟩

/-- A goroutine moves that has not ended; nothing has been returned that waits for it. -/
theorem Check.Tracks.move (tracks : check.Tracks model computeInfo timed verdict longests)
    {i : Fin k} {worker : Worker State Input Output} {longest : Fin k → Longest}
    {results : List Bool} (busy : check.workers i ≠ .ended)
    (running : ∀ search, worker = .running search →
      ∃ fuel, checkLoop model computeInfo fuel search = some (verdict i, longests i))
    (counted : check.count + results.length =
      (endedSet (Function.update check.workers i worker)).card)
    (genuine : check.kill = false → Check.Genuine verdict longests { check with
      workers := Function.update check.workers i worker, longest, results }) :
    Check.Tracks model computeInfo timed verdict longests { check with
      workers := Function.update check.workers i worker, longest, results } := by
  refine ⟨?_, counted, genuine, tracks.collecting, tracks.refuted, tracks.stopped,
    tracks.confirmed, tracks.killed, tracks.timer, ?_⟩
  · intro j search isRunning
    dsimp only at isRunning
    by_cases same : j = i
    · subst same
      rw [Function.update_self] at isRunning
      exact running search isRunning
    · rw [Function.update_of_ne same] at isRunning
      exact tracks.running j search isRunning
  · intro result partials isReturned
    obtain ⟨isResult, waited⟩ := tracks.returned result partials isReturned
    exact ⟨isResult, fun info => absurd (tracks.all_ended (waited info).1 i) busy⟩

theorem Check.Tracks.work (tracks : check.Tracks model computeInfo timed verdict longests)
    {i : Fin k} (stepped : check.work model computeInfo i = some next) :
    next.Tracks model computeInfo timed verdict longests := by
  obtain ⟨search, search', isRunning, taken, rfl⟩ | ⟨search, ok, l, isRunning, taken, rfl⟩ |
    ⟨ok, isSending, rfl⟩ := work_cases stepped
  · have busy : check.workers i ≠ .ended := fun ended => by cases isRunning.symm.trans ended
    have unsent : Worker.running search' ≠ .ended := fun impossible => by cases impossible
    rw [alive_of_goes_on taken] at taken
    refine tracks.move busy ?_ ?_ ?_
    · intro search'' isSearch
      cases isSearch
      obtain ⟨fuel, ended⟩ := tracks.running i search isRunning
      obtain ⟨less, -, stops | ⟨further, taken', rest⟩⟩ := checkLoop_cases ended
      · cases taken.symm.trans stops
      · cases taken.symm.trans taken'
        exact ⟨less, rest⟩
    · rw [endedSet_update busy unsent]
      exact tracks.counted
    · intro alive
      have moved := (tracks.genuine alive).move (.running search') (check.longest i) busy unsent
        trivial
      rwa [Function.update_eq_self] at moved
  · have busy : check.workers i ≠ .ended := fun ended => by cases isRunning.symm.trans ended
    have unsent : Worker.sending ok ≠ (.ended : Worker State Input Output) :=
      fun impossible => by cases impossible
    refine tracks.move busy ?_ ?_ ?_
    · intro search'' isSearch
      cases isSearch
    · rw [endedSet_update busy unsent]
      exact tracks.counted
    · intro alive
      rw [alive] at taken
      obtain ⟨fuel, ended⟩ := tracks.running i search isRunning
      obtain ⟨less, -, stops | ⟨further, taken', rest⟩⟩ := checkLoop_cases ended
      · cases taken.symm.trans stops
        exact (tracks.genuine alive).move _ _ busy unsent ⟨rfl, rfl⟩
      · cases taken.symm.trans taken'
  · have busy : check.workers i ≠ .ended := fun ended => by cases isSending.symm.trans ended
    have fresh : i ∉ endedSet check.workers := fun ended => busy (mem_endedSet.mp ended)
    refine tracks.move busy ?_ ?_ ?_
    · intro search'' isSearch
      cases isSearch
    · rw [endedSet_ended, Finset.card_insert_of_notMem fresh, ← tracks.counted,
        List.length_append]
      rfl
    · exact fun alive => (tracks.genuine alive).send isSending

theorem Check.Tracks.step (tracks : check.Tracks model computeInfo timed verdict longests)
    {event : CheckEvent k} (stepped : check.step model computeInfo timed event = some next) :
    next.Tracks model computeInfo timed verdict longests := by
  cases event with
  | work i => exact tracks.work stepped
  | receive => exact tracks.receive stepped
  | timeout =>
      cases timed with
      | false => cases stepped
      | true => exact tracks.timeout stepped
  | proceed => exact tracks.proceed stepped

end Tracks

namespace Check

variable {k : Nat} (check : Check State Input Output k)

theorem result_eq_ok : check.result = .ok ↔ check.ok = true ∧ check.timedOut = false := by
  rw [result]
  cases check.ok <;> cases check.timedOut <;> simp

theorem result_eq_illegal : check.result = .illegal ↔ check.ok = false := by
  rw [result]
  cases check.ok <;> cases check.timedOut <;> simp

theorem result_eq_unknown : check.result = .unknown ↔ check.ok = true ∧ check.timedOut = true := by
  rw [result]
  cases check.ok <;> cases check.timedOut <;> simp

end Check

section Verdict

variable [DecidableEq State] {model : Model State Input Output} {computeInfo timed : Bool}
  {history : List (List (Entry Input Output))} {n : Fin history.length → Nat}
  {verdict : Fin history.length → Bool} {longests : Fin history.length → Longest}
  {check : Check State Input Output history.length} {result : CheckResult}
  {partials : Option (Fin history.length → List (List Nat))}

theorem tracks_start
    (checked : ∀ i, Checked model (n i) (history.get i) computeInfo (verdict i) (longests i))
    (init : (checkParallel model history computeInfo timed).init check) :
    check.Tracks model computeInfo timed verdict longests := by
  obtain ⟨searches, started, rfl⟩ := init
  have nobody : endedSet (fun i => Worker.running (searches i)) = ∅ := by
    simp [endedSet, Worker.isEnded]
  refine ⟨?_, ?_, ?_, ?_, ?_, ?_, ?_, ?_, ?_, ?_⟩
  · intro i search isSearch
    cases isSearch
    obtain ⟨fuel, result⟩ := (checked i).result
    have ended := result fuel (Nat.le_refl _)
    rw [checkSingle, started i] at ended
    exact ⟨fuel, ended⟩
  · rw [startCheck, nobody]
    rfl
  · refine fun _ => ⟨fun _ => trivial, [], rfl, rfl, ?_⟩
    rw [startCheck, nobody]
    rfl
  · exact fun _ => ⟨rfl, rfl, (Nat.eq_zero_or_pos _).symm⟩
  · intro impossible
    cases impossible
  · exact fun away => absurd rfl away
  · exact fun away => absurd rfl away
  · intro impossible
    cases impossible
  · intro impossible
    cases impossible
  · intro _ _ impossible
    cases impossible

/-- In every state that any schedule reaches. -/
theorem exists_tracks (laws : model.EqualLaws) (paired : ∀ i, Paired (n i) (history.get i))
    (reached : (checkParallel model history computeInfo timed).Reachable System.anyStep check) :
    ∃ verdict longests,
      (∀ i, Checked model (n i) (history.get i) computeInfo (verdict i) (longests i)) ∧
        check.Tracks model computeInfo timed verdict longests := by
  choose verdict longests checked using fun i => exists_checked laws (paired i) computeInfo
  refine ⟨verdict, longests, checked, reached.preserves (fun _ => tracks_start checked) ?_⟩
  intro state event next tracks _ stepped
  exact tracks.step stepped

/-- What a result says of the partitions. -/
theorem Check.Tracks.verdicts (tracks : check.Tracks model computeInfo timed verdict longests)
    (returned : check.phase = .returned result partials) :
    (result = .ok → ∀ i, verdict i = true) ∧ (result = .illegal → ∃ i, verdict i = false) ∧
      (result = .unknown → check.timedOut = true ∧ timed = true) := by
  obtain ⟨isResult, -⟩ := tracks.returned _ _ returned
  have away : check.phase ≠ .collecting := fun collecting => by
    cases returned.symm.trans collecting
  refine ⟨?_, ?_, ?_⟩
  · rintro rfl
    obtain ⟨isOk, inTime⟩ := check.result_eq_ok.mp isResult.symm
    exact tracks.confirmed away isOk inTime
  · rintro rfl
    exact tracks.refuted (check.result_eq_illegal.mp isResult.symm)
  · rintro rfl
    have late := (check.result_eq_unknown.mp isResult.symm).2
    exact ⟨late, tracks.timer late⟩

/-- Under every schedule `Ok` is returned only if all partitions are linearizable, `Illegal`
only if one of them is not, and `Unknown` only after a timeout. -/
theorem checkParallel_result (laws : model.EqualLaws) (paired : ∀ i, Paired (n i) (history.get i))
    (reached : (checkParallel model history computeInfo timed).Reachable System.anyStep check)
    (returned : check.phase = .returned result partials) :
    (result = .ok → ∀ i, LinearizableEntries model (n i) (history.get i)) ∧
      (result = .illegal → ∃ i, ¬ LinearizableEntries model (n i) (history.get i)) ∧
      (result = .unknown → check.timedOut = true ∧ timed = true) := by
  obtain ⟨verdict, longests, checked, tracks⟩ := exists_tracks laws paired reached
  obtain ⟨allTrue, oneFalse, late⟩ := tracks.verdicts returned
  refine ⟨?_, ?_, late⟩
  · exact fun isOk i => (checked i).verdict_iff.mp (allTrue isOk i)
  · intro isIllegal
    obtain ⟨i, refuted⟩ := oneFalse isIllegal
    refine ⟨i, fun linearizable => ?_⟩
    cases refuted.symm.trans ((checked i).verdict_iff.mpr linearizable)

/-- A get and a put that overlap, and at the same time an append to another key. -/
def twoKeys : List (List (Entry KvInput KvOutput)) :=
  [overlapping, [⟨.call ⟨2, "y", "a"⟩, 0, 6, 2⟩, ⟨.ret ⟨""⟩, 0, 24, 2⟩]]

theorem forall_twoKeys {holds : Fin twoKeys.length → Prop} (first : holds ⟨0, by decide⟩)
    (second : holds ⟨1, by decide⟩) (i : Fin twoKeys.length) : holds i := by
  obtain ⟨_ | _ | i, inside⟩ := i
  · exact first
  · exact second
  · exact absurd inside (by simp [twoKeys])

theorem paired_twoKeys : ∀ i, Paired ((twoKeys.get i).length / 2) (twoKeys.get i) := by
  refine forall_twoKeys paired_overlapping ⟨?_, .refl _, .refl _⟩
  simp [twoKeys, Answered, Value.isCall]

theorem isSome_startSearch_twoKeys :
    ∀ i, (startSearch kvModel (twoKeys.get i)).isSome = true :=
  forall_twoKeys rfl rfl

def twoKeysSearch (i : Fin twoKeys.length) : Search String KvInput KvOutput :=
  (startSearch kvModel (twoKeys.get i)).get (isSome_startSearch_twoKeys i)

/-- The goroutines take turns, and the second one is the first to send its verdict. -/
def twoKeysEnd (computeInfo : Bool) : Check String KvInput KvOutput twoKeys.length :=
  let first : Fin twoKeys.length := ⟨0, by decide⟩
  let second : Fin twoKeys.length := ⟨1, by decide⟩
  (checkParallel kvModel twoKeys computeInfo false).after (fun _ _ => true)
    (startCheck twoKeys twoKeysSearch)
    [.work first, .work second, .work first, .work second, .work second, .receive,
      .work first, .work first, .work first, .receive, .proceed]

theorem twoKeysEnd_reachable (computeInfo : Bool) :
    (checkParallel kvModel twoKeys computeInfo false).Reachable System.anyStep
      (twoKeysEnd computeInfo) := by
  refine ⟨_, ⟨twoKeysSearch, fun i => ?_, rfl⟩,
    (System.run_after _ _ _).mono fun _ _ _ => trivial⟩
  exact (Option.some_get (isSome_startSearch_twoKeys i)).symm

theorem checkParallel_result_twoKeys :
    kvModel.EqualLaws ∧ (∀ i, Paired ((twoKeys.get i).length / 2) (twoKeys.get i)) ∧
      (checkParallel kvModel twoKeys false false).Reachable System.anyStep (twoKeysEnd false) ∧
      (twoKeysEnd false).phase = .returned .ok none ∧
      ∀ i, LinearizableEntries kvModel ((twoKeys.get i).length / 2) (twoKeys.get i) := by
  have laws := kvModel.equalLaws_shallow rfl
  have ended : (twoKeysEnd false).phase = .returned .ok none := rfl
  refine ⟨laws, paired_twoKeys, twoKeysEnd_reachable false, ended, ?_⟩
  exact (checkParallel_result laws paired_twoKeys (twoKeysEnd_reachable false) ended).1 rfl

/-- A run without a timeout that computes partial linearizations returns for each partition
only partial linearizations of it, and for every operation a longest one with it. -/
theorem checkParallel_partials (laws : model.EqualLaws)
    (paired : ∀ i, Paired (n i) (history.get i))
    (reached : (checkParallel model history true false).Reachable System.anyStep check)
    (returned : check.phase = .returned result partials) :
    ∃ info, partials = some info ∧ ∀ i,
      (∀ seq ∈ info i, PartialLinearization model (n i) (history.get i) seq) ∧
        ∀ order, PartialLinearization model (n i) (history.get i) order → ∀ id ∈ order,
          ∃ seq ∈ info i, id ∈ seq ∧ order.length ≤ seq.length := by
  obtain ⟨verdict, longests, checked, tracks⟩ := exists_tracks laws paired reached
  obtain ⟨full, isPartials⟩ := (tracks.returned _ _ returned).2 rfl
  have alive : check.kill = false := by
    rw [← Bool.not_eq_true]
    intro dead
    rcases tracks.killed dead with late | noInfo
    · cases tracks.timer late
    · cases noInfo
  refine ⟨_, isPartials, fun i => ?_⟩
  have written : check.longest i = longests i := by
    have genuine := (tracks.genuine alive).workers i
    rwa [tracks.all_ended full i] at genuine
  have longest := (checked i).longest rfl
  simp only [partialLinearizations, List.mem_dedup, List.mem_filterMap, id, exists_eq_right, written]
  refine ⟨?_, ?_⟩
  · intro seq member
    obtain ⟨id, recorded⟩ := List.mem_iff_getElem?.mp member
    exact ((longest id _ recorded).sound seq rfl).1
  · intro order part id member
    have inside : id < (longests i).length := by
      rw [(checked i).length]
      exact List.mem_range.mp (part.subset member)
    have recorded := List.getElem?_eq_getElem inside
    obtain ⟨seq, isSeq, shorter⟩ := (longest id _ recorded).best order part member
    refine ⟨seq, isSeq ▸ List.getElem_mem inside, ?_, shorter⟩
    exact ((longest id _ recorded).sound seq isSeq).2

theorem checkParallel_partials_twoKeys :
    kvModel.EqualLaws ∧ (∀ i, Paired ((twoKeys.get i).length / 2) (twoKeys.get i)) ∧
      (checkParallel kvModel twoKeys true false).Reachable System.anyStep (twoKeysEnd true) ∧
      ∃ info, (twoKeysEnd true).phase = .returned .ok (some info) ∧
        ∀ i, ∀ seq ∈ info i,
          PartialLinearization kvModel ((twoKeys.get i).length / 2) (twoKeys.get i) seq := by
  have laws := kvModel.equalLaws_shallow rfl
  obtain ⟨info, ended⟩ : ∃ info, (twoKeysEnd true).phase = .returned .ok (some info) := ⟨_, rfl⟩
  refine ⟨laws, paired_twoKeys, twoKeysEnd_reachable true, info, ended, ?_⟩
  obtain ⟨_, isInfo, each⟩ := checkParallel_partials laws paired_twoKeys
    (twoKeysEnd_reachable true) ended
  cases isInfo
  exact fun i => (each i).1

end Verdict

end MultiRaft.Porcupine
