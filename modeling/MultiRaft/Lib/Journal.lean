import Mathlib.Data.List.Basic
import Mathlib.Data.Nat.Init

/-!
# Agents that apply commands, recorded in one list

Several agents apply commands to states of their own.  The journal lists all
applications in the order in which they happened; an agent's state at a time is
what its own commands before that time made of its first state.
-/

namespace MultiRaft.Journal

universe u v w

variable {Agent : Type u} {State : Type v} {Command : Type w} [DecidableEq Agent]

/-- The state of an agent after the first `time` applications. -/
def stateAt (init : Agent → State) (apply : Command → State → State)
    (journal : List (Agent × Command)) (agent : Agent) (time : Nat) : State :=
  (journal.take time).foldl
    (fun state entry => if entry.1 = agent then apply entry.2 state else state) (init agent)

variable {init : Agent → State} {apply : Command → State → State}
  {journal : List (Agent × Command)} {agent other : Agent} {command : Command}
  {time first last : Nat}

@[simp] theorem stateAt_zero : stateAt init apply journal agent 0 = init agent := rfl

/-- What comes later does not change what was. -/
theorem stateAt_append (rest : List (Agent × Command)) (within : time ≤ journal.length) :
    stateAt init apply (journal ++ rest) agent time = stateAt init apply journal agent time := by
  simp only [stateAt, List.take_append_of_le_length within]

theorem stateAt_succ_self (applied : journal[time]? = some (agent, command)) :
    stateAt init apply journal agent (time + 1) =
      apply command (stateAt init apply journal agent time) := by
  simp [stateAt, List.take_add_one, applied]

theorem stateAt_succ_other (applied : journal[time]? = some (other, command))
    (away : other ≠ agent) :
    stateAt init apply journal agent (time + 1) = stateAt init apply journal agent time := by
  simp [stateAt, List.take_add_one, applied, away]

theorem stateAt_succ_none (ended : journal[time]? = none) :
    stateAt init apply journal agent (time + 1) = stateAt init apply journal agent time := by
  simp [stateAt, List.take_add_one, ended]

/-- The agent moves by a command of its own or not at all. -/
theorem stateAt_succ (journal : List (Agent × Command)) (agent : Agent) (time : Nat) :
    stateAt init apply journal agent (time + 1) = stateAt init apply journal agent time ∨
      ∃ command, journal[time]? = some (agent, command) ∧
        stateAt init apply journal agent (time + 1) =
          apply command (stateAt init apply journal agent time) := by
  cases applied : journal[time]? with
  | none => exact .inl (stateAt_succ_none applied)
  | some entry =>
      obtain ⟨other, command⟩ := entry
      by_cases same : other = agent
      · subst same
        exact .inr ⟨command, rfl, stateAt_succ_self applied⟩
      · exact .inl (stateAt_succ_other applied same)

/-- The rule for what an agent's own commands preserve over a stretch of time. -/
theorem stateAt_preserves (holds : State → Prop) (ordered : first ≤ last)
    (start : holds (stateAt init apply journal agent first))
    (step : ∀ time command, first ≤ time → time < last →
      journal[time]? = some (agent, command) →
      holds (stateAt init apply journal agent time) →
      holds (apply command (stateAt init apply journal agent time))) :
    holds (stateAt init apply journal agent last) := by
  induction last, ordered using Nat.le_induction with
  | base => exact start
  | succ last later inductionHypothesis =>
      have before := inductionHypothesis fun time command from_first until_last =>
        step time command from_first (Nat.lt_succ_of_lt until_last)
      rcases stateAt_succ journal agent last with still | ⟨command, applied, moved⟩
      · rw [still]
        exact before
      · rw [moved]
        exact step last command later (Nat.lt_succ_self _) applied before

/-- The rule for the moment of a change: what comes to hold over a stretch of time
comes to hold by one of the agent's own commands. -/
theorem exists_change (holds : State → Prop) (ordered : first ≤ last)
    (before : ¬ holds (stateAt init apply journal agent first))
    (after : holds (stateAt init apply journal agent last)) :
    ∃ time command, first ≤ time ∧ time < last ∧ journal[time]? = some (agent, command) ∧
      ¬ holds (stateAt init apply journal agent time) ∧
      holds (apply command (stateAt init apply journal agent time)) := by
  by_contra never
  have lasting : ¬ holds (stateAt init apply journal agent last) := by
    refine stateAt_preserves (fun state => ¬ holds state) ordered before ?_
    intro time command from_first until_last applied lacks comes
    exact never ⟨time, command, from_first, until_last, applied, lacks, comes⟩
  exact lasting after

end MultiRaft.Journal
