import Mathlib.Order.Lattice

/-!
# A poll that is counted concurrently

A candidate starts a poll with its own vote.  A vote granted to it is counted
later by whoever received it, and a count above the threshold is declared later
again, so that between two steps some votes are received and not counted, and some
counts are found sufficient and not declared.  Once the candidate is elected,
further votes may be dropped.
-/

namespace MultiRaft

/-- `counting` votes are received and not counted yet; `won` counts above the
threshold are not declared yet. -/
structure Poll where
  votes : Nat
  counting : Nat
  won : Nat
  granted : Nat
  elected : Prop

namespace Poll

variable {threshold : Nat} {poll : Poll}

def start : Poll := ⟨1, 0, 0, 0, False⟩

/-- A granted vote is received and will be counted. -/
def grant (poll : Poll) : Poll :=
  { poll with counting := poll.counting + 1, granted := poll.granted + 1 }

/-- A granted vote is dropped. -/
def drop (poll : Poll) : Poll := { poll with granted := poll.granted + 1 }

def count (threshold : Nat) (poll : Poll) : Poll :=
  { poll with
    votes := poll.votes + 1
    counting := poll.counting - 1
    won := if threshold < poll.votes + 1 then poll.won + 1 else poll.won }

def declare (poll : Poll) : Poll := { poll with won := poll.won - 1, elected := True }

/-- The candidate is elected, or about to be, only by a count above the threshold, and
as long as it is not elected no vote is lost and no sufficient count is forgotten. -/
structure Fair (threshold : Nat) (poll : Poll) : Prop where
  counted : poll.votes + poll.counting ≤ 1 + poll.granted
  sound : 0 < poll.won ∨ poll.elected → threshold < poll.votes
  complete : ¬ poll.elected → poll.votes + poll.counting = 1 + poll.granted
  prompt : ¬ poll.elected → threshold < poll.votes → 0 < poll.won

/-- The candidate's own vote must not be enough. -/
theorem fair_start (positive : 0 < threshold) : start.Fair threshold where
  counted := Nat.le_refl _
  sound claimed := by
    rcases claimed with none | elected
    · exact absurd none (Nat.lt_irrefl 0)
    · exact elected.elim
  complete _ := rfl
  prompt _ enough := absurd enough (Nat.not_lt.mpr positive)

theorem Fair.grant (fair : poll.Fair threshold) : poll.grant.Fair threshold where
  counted := Nat.succ_le_succ fair.counted
  sound := fair.sound
  complete undecided := congrArg (· + 1) (fair.complete undecided)
  prompt := fair.prompt

theorem Fair.drop (fair : poll.Fair threshold) (elected : poll.elected) :
    poll.drop.Fair threshold where
  counted := Nat.le_succ_of_le fair.counted
  sound := fair.sound
  complete undecided := absurd elected undecided
  prompt := fair.prompt

theorem Fair.count (fair : poll.Fair threshold) (received : 0 < poll.counting) :
    (poll.count threshold).Fair threshold := by
  have moved : poll.votes + 1 + (poll.counting - 1) = poll.votes + poll.counting := by omega
  refine ⟨moved.trans_le fair.counted, ?_, fun undecided => moved.trans (fair.complete undecided),
    ?_⟩
  · intro claimed
    by_cases enough : threshold < poll.votes + 1
    · exact enough
    · simp only [Poll.count, enough, if_false] at claimed
      exact Nat.lt_succ_of_lt (fair.sound claimed)
  · intro _ enough
    simp only [Poll.count] at enough ⊢
    simp only [enough, if_true]
    exact Nat.succ_pos _

theorem Fair.declare (fair : poll.Fair threshold) (found : 0 < poll.won) :
    poll.declare.Fair threshold where
  counted := fair.counted
  sound _ := fair.sound (.inl found)
  complete undecided := absurd trivial undecided
  prompt undecided := absurd trivial undecided

/-- A poll in which all is counted and declared elects exactly on more than the
threshold. -/
theorem Fair.elected_iff (fair : poll.Fair threshold) (counted : poll.counting = 0)
    (declared : poll.won = 0) : poll.elected ↔ threshold < 1 + poll.granted := by
  constructor
  · intro elected
    have enough := fair.sound (.inr elected)
    have bound := fair.counted
    omega
  · intro enough
    by_contra undecided
    have all := fair.complete undecided
    rw [counted, Nat.add_zero] at all
    have found := fair.prompt undecided (all ▸ enough)
    exact absurd declared found.ne'

end Poll

end MultiRaft
