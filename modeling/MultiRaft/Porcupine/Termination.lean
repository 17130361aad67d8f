import Mathlib.Algebra.Order.BigOperators.Group.Finset
import MultiRaft.Porcupine.Parallel

/-!
# `checkParallel` comes to an end

Every step of a goroutine uses up some of the rounds its search has left, and the main
goroutine receives each result once.  So no schedule goes on for ever, and a schedule
that cannot go on has returned, unless there is nothing to wait for.
-/

namespace MultiRaft.Porcupine

variable {State Input Output : Type}

section Cost

variable {k : Nat}

/-- The steps a goroutine has left, with so much fuel for its search. -/
def Worker.cost (fuel : Nat) : Worker State Input Output → Nat
  | .running _ => fuel + 2
  | .sending _ => 1
  | .ended => 0

def Phase.cost : Phase k → Nat
  | .collecting => 2
  | .collected => 1
  | .returned _ _ => 0

theorem sum_cost_lt {workers : Fin k → Worker State Input Output} {fuels : Fin k → Nat} {i : Fin k}
    {worker : Worker State Input Output} {fuel : Nat}
    (less : worker.cost fuel < (workers i).cost (fuels i)) :
    ∑ j, (Function.update workers i worker j).cost (Function.update fuels i fuel j) <
      ∑ j, (workers j).cost (fuels j) := by
  refine Finset.sum_lt_sum (fun j _ => ?_) ⟨i, Finset.mem_univ i, ?_⟩
  · by_cases same : j = i
    · subst same
      rw [Function.update_self, Function.update_self]
      exact Nat.le_of_lt less
    · rw [Function.update_of_ne same, Function.update_of_ne same]
  · rw [Function.update_self, Function.update_self]
    exact less

variable [DecidableEq State] {model : Model State Input Output} {computeInfo timed : Bool}
  {verdict : Fin k → Bool} {longests : Fin k → Longest} {check next : Check State Input Output k}

/-- A bound on the steps that are left. -/
def Check.Costs (model : Model State Input Output) (computeInfo : Bool) (cost : Nat)
    (check : Check State Input Output k) : Prop :=
  ∃ fuels : Fin k → Nat, (∀ i search, check.workers i = .running search →
      ∃ result, checkLoop model computeInfo (fuels i) search = some result) ∧
    cost = ∑ i, (check.workers i).cost (fuels i) + (k - check.count) + check.phase.cost

theorem Check.Tracks.exists_costs
    (tracks : check.Tracks model computeInfo timed verdict longests) :
    ∃ cost, check.Costs model computeInfo cost := by
  have each : ∀ i, ∃ fuel, ∀ search, check.workers i = .running search →
      ∃ result, checkLoop model computeInfo fuel search = some result := by
    intro i
    cases isWorker : check.workers i with
    | running search =>
        obtain ⟨fuel, ended⟩ := tracks.running i search isWorker
        refine ⟨fuel, fun search' same => ?_⟩
        cases same
        exact ⟨_, ended⟩
    | sending ok => exact ⟨0, fun _ impossible => by cases impossible⟩
    | ended => exact ⟨0, fun _ impossible => by cases impossible⟩
  choose fuels enough using each
  exact ⟨_, fuels, enough, rfl⟩

/-- A step of a goroutine costs. -/
theorem Check.Costs.move {cost : Nat} (costs : check.Costs model computeInfo cost) {i : Fin k}
    {worker : Worker State Input Output} {longest : Fin k → Longest} {results : List Bool}
    (here : ∀ fuel, (∀ search, check.workers i = .running search →
        ∃ result, checkLoop model computeInfo fuel search = some result) →
      ∃ less, worker.cost less < (check.workers i).cost fuel ∧
        ∀ search, worker = .running search →
          ∃ result, checkLoop model computeInfo less search = some result) :
    ∃ less < cost, Check.Costs model computeInfo less { check with
      workers := Function.update check.workers i worker, longest, results } := by
  obtain ⟨fuels, enough, rfl⟩ := costs
  obtain ⟨fuel, less, running⟩ := here (fuels i) (enough i)
  refine ⟨_, ?_, Function.update fuels i fuel, ?_, rfl⟩
  · exact Nat.add_lt_add_right (Nat.add_lt_add_right (sum_cost_lt less) _) _
  · intro j search isRunning
    dsimp only at isRunning
    by_cases same : j = i
    · subst same
      rw [Function.update_self] at isRunning ⊢
      exact running search isRunning
    · rw [Function.update_of_ne same] at isRunning ⊢
      exact enough j search isRunning

theorem Check.Costs.work {cost : Nat} (costs : check.Costs model computeInfo cost) {i : Fin k}
    (stepped : check.work model computeInfo i = some next) :
    ∃ less < cost, next.Costs model computeInfo less := by
  obtain ⟨search, search', isRunning, taken, rfl⟩ | ⟨search, ok, l, isRunning, taken, rfl⟩ |
    ⟨ok, isSending, rfl⟩ := work_cases stepped
  · refine costs.move fun fuel enough => ?_
    obtain ⟨result, ended⟩ := enough search isRunning
    rw [alive_of_goes_on taken] at taken
    obtain ⟨less, rfl, stops | ⟨further, taken', rest⟩⟩ := checkLoop_cases ended
    · cases taken.symm.trans stops
    · cases taken.symm.trans taken'
      refine ⟨less, ?_, ?_⟩
      · rw [isRunning]
        exact Nat.lt_succ_self _
      · intro search'' isSearch
        cases isSearch
        exact ⟨result, rest⟩
  · refine costs.move fun fuel _ => ⟨0, ?_, ?_⟩
    · rw [isRunning]
      exact Nat.succ_lt_succ (Nat.succ_pos fuel)
    · intro search'' isSearch
      cases isSearch
  · refine costs.move fun fuel _ => ⟨0, ?_, ?_⟩
    · rw [isSending]
      exact Nat.one_pos
    · intro search'' isSearch
      cases isSearch

theorem Check.Tracks.costs_receive {cost : Nat}
    (tracks : check.Tracks model computeInfo timed verdict longests)
    (costs : check.Costs model computeInfo cost)
    (stepped : check.receive computeInfo = some next) :
    ∃ less < cost, next.Costs model computeInfo less := by
  have bound := tracks.count_le
  obtain ⟨fuels, enough, rfl⟩ := costs
  obtain ⟨result, rest, results, ⟨collecting, ⟨_, _, rfl⟩ | ⟨_, ⟨_, rfl⟩ | ⟨_, rfl⟩⟩⟩ |
    ⟨collected, _, _, rfl⟩⟩ := receive_cases stepped
  all_goals
    refine ⟨_, ?_, fuels, enough, rfl⟩
    rw [results, List.length_cons] at bound
  · rw [collecting]
    simp only [Phase.cost]
    omega
  · rw [collecting]
    simp only [Phase.cost]
    omega
  · dsimp only
    omega
  · dsimp only
    omega

theorem Check.Tracks.costs_step {cost : Nat}
    (tracks : check.Tracks model computeInfo timed verdict longests)
    (costs : check.Costs model computeInfo cost) {event : CheckEvent k}
    (stepped : check.step model computeInfo timed event = some next) :
    ∃ less < cost, next.Costs model computeInfo less := by
  cases event with
  | work i => exact costs.work stepped
  | receive => exact tracks.costs_receive costs stepped
  | timeout =>
      cases timed with
      | false => cases stepped
      | true =>
          obtain ⟨collecting, rfl⟩ := timeout_cases stepped
          obtain ⟨fuels, enough, rfl⟩ := costs
          refine ⟨_, ?_, fuels, enough, rfl⟩
          rw [collecting]
          exact Nat.lt_succ_self _
  | proceed =>
      obtain ⟨collected, -, rfl⟩ := proceed_cases stepped
      obtain ⟨fuels, enough, rfl⟩ := costs
      refine ⟨_, ?_, fuels, enough, rfl⟩
      rw [collected]
      exact Nat.lt_succ_self _

/-- A goroutine that has not ended can go on: its search never panics, and the buffer has
room for its result. -/
theorem Check.Tracks.exists_work (tracks : check.Tracks model computeInfo timed verdict longests)
    {i : Fin k} (busy : check.workers i ≠ .ended) :
    ∃ next, check.work model computeInfo i = some next := by
  rw [Check.work]
  cases isWorker : check.workers i with
  | running search =>
      have steps : ∃ outcome, search.step model computeInfo check.kill = some outcome := by
        cases check.kill with
        | false =>
            obtain ⟨fuel, ended⟩ := tracks.running i search isWorker
            obtain ⟨less, -, stops | ⟨further, taken, -⟩⟩ := checkLoop_cases ended
            · exact ⟨_, stops⟩
            · exact ⟨_, taken⟩
        | true =>
            obtain ⟨ok, longest, stops⟩ := step_killed model computeInfo search
            exact ⟨_, stops⟩
      obtain ⟨outcome, taken⟩ := steps
      dsimp only
      rw [taken]
      cases outcome with
      | inl further => exact ⟨_, rfl⟩
      | inr result => exact ⟨_, rfl⟩
  | sending ok =>
      have room : check.results.length < k := by
        have some_ : (endedSet check.workers).card < k := by
          refine (Finset.card_lt_univ_of_notMem (x := i) ?_).trans_eq (Fintype.card_fin k)
          exact fun ended => busy (mem_endedSet.mp ended)
        have counted := tracks.counted
        omega
      exact ⟨_, if_pos room⟩
  | ended => exact absurd isWorker busy

/-- Where nothing can happen any more, the results of all goroutines have been received. -/
theorem Check.Tracks.count_of_stuck
    (tracks : check.Tracks model computeInfo timed verdict longests)
    (stuck : ∀ event, check.step model computeInfo timed event = none)
    (empty : check.results = []) : check.count = k := by
  have all : endedSet check.workers = Finset.univ := by
    refine Finset.eq_univ_iff_forall.mpr fun i => mem_endedSet.mpr ?_
    by_contra busy
    obtain ⟨next, worked⟩ := tracks.exists_work busy
    cases worked.symm.trans (stuck (.work i))
  have counted := tracks.counted
  rw [all, empty, Finset.card_univ, Fintype.card_fin] at counted
  simpa using counted

theorem Check.Tracks.returned_of_stuck
    (tracks : check.Tracks model computeInfo timed verdict longests)
    (stuck : ∀ event, check.step model computeInfo timed event = none)
    (waits : 0 < k ∨ timed = true) : ∃ result partials, check.phase = .returned result partials := by
  have received := stuck .receive
  simp only [Check.step, Check.receive] at received
  cases phase : check.phase with
  | returned result partials => exact ⟨result, partials, rfl⟩
  | collecting =>
      exfalso
      have untimed : timed = false := by
        cases timed with
        | false => rfl
        | true =>
            have fired := stuck .timeout
            simp [Check.step, Check.timeout, phase] at fired
      have empty : check.results = [] := by
        cases results : check.results with
        | nil => rfl
        | cons result rest =>
            rw [phase, results] at received
            dsimp only at received
            split at received
            · cases received
            · split at received <;> cases received
      have full := tracks.count_of_stuck stuck empty
      have few := (tracks.collecting phase).2.2
      rw [untimed] at waits
      rcases waits with some_ | impossible
      · omega
      · cases impossible
  | collected =>
      exfalso
      have waiting := stuck .proceed
      simp only [Check.step, Check.proceed, phase] at waiting
      split at waiting
      · rename_i few
        have empty : check.results = [] := by
          cases results : check.results with
          | nil => rfl
          | cons result rest =>
              rw [phase, results] at received
              dsimp only at received
              rw [if_pos few] at received
              cases received
        have full := tracks.count_of_stuck stuck empty
        simp [full] at few
      · cases waiting

end Cost

section Ends

variable [DecidableEq State] {model : Model State Input Output} {computeInfo timed : Bool}
  {history : List (List (Entry Input Output))} {n : Fin history.length → Nat}
  {check : Check State Input Output history.length}

/-- The loop has nothing to receive. -/
def Check.Waiting {k : Nat} (check : Check State Input Output k) : Prop :=
  check.phase = .collecting ∧ check.results = []

/-- Without partitions and without a timer the loop waits for ever. -/
theorem collecting_of_empty (nothing : history = [])
    (reached : (checkParallel model history computeInfo false).Reachable System.anyStep check) :
    check.phase = .collecting := by
  subst nothing
  have waiting : check.Waiting := by
    refine reached.preserves ?_ ?_
    · rintro _ ⟨_, _, rfl⟩
      exact ⟨rfl, rfl⟩
    · rintro state event next ⟨phase, results⟩ - stepped
      cases event with
      | work i => exact i.elim0
      | receive =>
          obtain ⟨_, _, sent, _⟩ := receive_cases stepped
          cases results.symm.trans sent
      | timeout => cases stepped
      | proceed =>
          obtain ⟨collected, _⟩ := proceed_cases stepped
          cases phase.symm.trans collected
  exact waiting.1

/-- No schedule of `checkParallel` goes on for ever, and where nothing can happen any more it
has returned, unless it waits without a timeout for the results of no partition at all. -/
theorem checkParallel_ends (laws : model.EqualLaws) (paired : ∀ i, Paired (n i) (history.get i)) :
    (∀ run : Nat → Check State Input Output history.length,
      (checkParallel model history computeInfo timed).init (run 0) →
        ¬ ∀ i, ∃ event,
          (checkParallel model history computeInfo timed).step (run i) event = some (run (i + 1))) ∧
      ∀ check, (checkParallel model history computeInfo timed).Reachable System.anyStep check →
        (∀ event, (checkParallel model history computeInfo timed).step check event = none) →
          ((∃ result partials, check.phase = .returned result partials) ↔
            history ≠ [] ∨ timed = true) := by
  refine ⟨?_, ?_⟩
  · intro run starts goesOn
    have reached : ∀ i,
        (checkParallel model history computeInfo timed).Reachable System.anyStep (run i) := by
      intro i
      induction i with
      | zero => exact ⟨_, starts, .refl _⟩
      | succ i inductionHypothesis =>
          obtain ⟨event, stepped⟩ := goesOn i
          exact inductionHypothesis.run (.tail (.refl _) trivial stepped)
    obtain ⟨_, _, _, first⟩ := exists_tracks laws paired (reached 0)
    obtain ⟨cost, costs⟩ := first.exists_costs
    have spent : ∀ i, ∃ left, left + i ≤ cost ∧ (run i).Costs model computeInfo left := by
      intro i
      induction i with
      | zero => exact ⟨cost, Nat.le_refl _, costs⟩
      | succ i inductionHypothesis =>
          obtain ⟨left, bound, known⟩ := inductionHypothesis
          obtain ⟨event, stepped⟩ := goesOn i
          obtain ⟨_, _, _, tracks⟩ := exists_tracks laws paired (reached i)
          obtain ⟨less, lower, further⟩ := tracks.costs_step known stepped
          exact ⟨less, by omega, further⟩
    obtain ⟨left, bound, -⟩ := spent (cost + 1)
    omega
  · intro check reached stuck
    obtain ⟨_, _, _, tracks⟩ := exists_tracks laws paired reached
    constructor
    · rintro ⟨result, partials, returned⟩
      by_contra nothing
      rw [not_or, Decidable.not_not, Bool.not_eq_true] at nothing
      obtain ⟨empty, rfl⟩ := nothing
      cases (collecting_of_empty empty reached).symm.trans returned
    · rintro (some_ | isTimed)
      · exact tracks.returned_of_stuck stuck (.inl (List.length_pos_iff.mpr some_))
      · exact tracks.returned_of_stuck stuck (.inr isTimed)

theorem checkParallel_ends_twoKeys :
    kvModel.EqualLaws ∧ (∀ i, Paired ((twoKeys.get i).length / 2) (twoKeys.get i)) ∧
      ∀ check, (checkParallel kvModel twoKeys true false).Reachable System.anyStep check →
        (∀ event, (checkParallel kvModel twoKeys true false).step check event = none) →
          ∃ result partials, check.phase = .returned result partials := by
  have laws := kvModel.equalLaws_shallow rfl
  refine ⟨laws, paired_twoKeys, fun check reached stuck => ?_⟩
  refine ((checkParallel_ends laws paired_twoKeys).2 check reached stuck).mpr
    (.inl fun impossible => ?_)
  cases impossible

end Ends

end MultiRaft.Porcupine
