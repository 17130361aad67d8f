import Mathlib.Data.Option.Basic
import Mathlib.Order.Iterate

/-!
# Repeating one exchange until it settles

Two parties go through the same exchange again and again, with nothing else
happening.  A round may stop the program, settle the matter, or leave the parties
in states from which the next round starts.
-/

namespace MultiRaft.Rounds

universe u

inductive Verdict (State : Type u) where
  | settled
  | again (state : State)

/-- The two parties of a replication. -/
structure Exchange (Server : Type u) where
  leader : Server
  follower : Server

variable {State : Type u}

/-- At most `count` rounds. -/
def run (round : State → Option (Verdict State)) : Nat → State → Option (Verdict State)
  | 0, state => some (.again state)
  | count + 1, state =>
      match round state with
      | some (.again next) => run round count next
      | other => other

/-- Finitely many rounds are enough. -/
def Settles (round : State → Option (Verdict State)) (state : State) : Prop :=
  ∃ count, run round count state = some .settled

variable {round : State → Option (Verdict State)} {state next : State}

theorem settles_of_settled (done : round state = some .settled) : Settles round state :=
  ⟨1, by simp only [run, done]⟩

theorem settles_of_again (went : round state = some (.again next))
    (later : Settles round next) : Settles round state := by
  obtain ⟨count, done⟩ := later
  exact ⟨count + 1, by simp only [run, went, done]⟩

theorem not_settles_of_again (went : round state = some (.again next))
    (unsettled : ¬ Settles round next) : ¬ Settles round state := by
  rintro ⟨count, done⟩
  cases count with
  | zero => cases done
  | succ count =>
      simp only [run, went] at done
      exact unsettled ⟨count, done⟩

/-- The rule for rounds that go on for ever: what every round leaves to hold keeps
the matter open. -/
theorem not_settles_of_invariant (holds : State → Prop)
    (goesOn : ∀ state, holds state → ∃ next, round state = some (.again next) ∧ holds next)
    (start : holds state) : ¬ Settles round state := by
  rintro ⟨count, done⟩
  induction count generalizing state with
  | zero => cases done
  | succ count inductionHypothesis =>
      obtain ⟨next, went, kept⟩ := goesOn state start
      simp only [run, went] at done
      exact inductionHypothesis kept done

/-- The rule for rounds that move a point: the matter is settled exactly if the point
arrives somewhere good.  Where it does not move, no round settles anything. -/
theorem settles_iff_of_moves {Point : Type} (holds : State → Prop) (point : State → Point)
    (move : Point → Point) (good : Point → Prop)
    (goesOn : ∀ state, holds state → (good (point state) ∧ Settles round state) ∨
      (¬ good (point state) ∧ ∃ next, round state = some (.again next) ∧ holds next ∧
        point next = move (point state)) ∨
      (¬ Settles round state ∧ ∀ count, ¬ good (move^[count] (point state))))
    (start : holds state) : Settles round state ↔ ∃ count, good (move^[count] (point state)) := by
  constructor
  · rintro ⟨rounds, done⟩
    induction rounds generalizing state with
    | zero => cases done
    | succ rounds inductionHypothesis =>
        rcases goesOn state start with ⟨here, -⟩ | ⟨-, next, went, kept, moved⟩ | ⟨never, -⟩
        · exact ⟨0, here⟩
        · simp only [run, went] at done
          obtain ⟨count, arrives⟩ := inductionHypothesis kept done
          exact ⟨count + 1, by rwa [Function.iterate_succ_apply, ← moved]⟩
        · exact absurd ⟨_, done⟩ never
  · rintro ⟨count, arrives⟩
    induction count generalizing state with
    | zero =>
        rcases goesOn state start with ⟨-, done⟩ | ⟨missing, -⟩ | ⟨-, missing⟩
        · exact done
        · exact absurd arrives missing
        · exact absurd arrives (missing 0)
    | succ count inductionHypothesis =>
        rcases goesOn state start with ⟨-, done⟩ | ⟨-, next, went, kept, moved⟩ | ⟨-, missing⟩
        · exact done
        · rw [Function.iterate_succ_apply, ← moved] at arrives
          exact settles_of_again went (inductionHypothesis kept arrives)
        · exact absurd arrives (missing _)

end MultiRaft.Rounds
