import Mathlib.Data.List.Basic

/-!
# Streams of indexed messages without gaps

A message either continues the stream, with the index after the one before it,
or jumps to an index of its own, as a snapshot does.
-/

namespace MultiRaft

universe u

variable {Msg : Type u} (index : Msg → Nat) (jumps : Msg → Bool)

/-- The index a stream has reached that started at an index. -/
def endIndex : Nat → List Msg → Nat
  | start, [] => start
  | _, msg :: rest => endIndex (index msg) rest

/-- No message that continues the stream leaves a gap before it. -/
def Contiguous : Nat → List Msg → Prop
  | _, [] => True
  | start, msg :: rest =>
      (jumps msg = false → index msg = start + 1) ∧ Contiguous (index msg) rest

@[simp]
theorem endIndex_append (start : Nat) (front back : List Msg) :
    endIndex index start (front ++ back) = endIndex index (endIndex index start front) back := by
  induction front generalizing start with
  | nil => rfl
  | cons msg rest inductionHypothesis =>
      simp only [List.cons_append, endIndex, inductionHypothesis]

theorem contiguous_append (start : Nat) (front back : List Msg) :
    Contiguous index jumps start (front ++ back) ↔
      Contiguous index jumps start front ∧
        Contiguous index jumps (endIndex index start front) back := by
  induction front generalizing start with
  | nil => simp [Contiguous, endIndex]
  | cons msg rest inductionHypothesis =>
      simp only [List.cons_append, Contiguous, endIndex, inductionHypothesis, and_assoc]

/-- Messages made from consecutive indexes continue the stream. -/
theorem contiguous_of_range {read : Nat → Option Msg}
    (indexed : ∀ position msg, read position = some msg → index msg = position)
    {start count : Nat} {msgs : List Msg}
    (made : (List.range' (start + 1) count).mapM read = some msgs) :
    Contiguous index jumps start msgs ∧ endIndex index start msgs = start + count := by
  induction count generalizing start msgs with
  | zero =>
      cases made
      exact ⟨trivial, rfl⟩
  | succ count inductionHypothesis =>
      rw [List.range'_succ, List.mapM_cons] at made
      rcases Option.bind_eq_some_iff.mp made with ⟨msg, first, remaining⟩
      rcases Option.bind_eq_some_iff.mp remaining with ⟨rest, further, result⟩
      cases result
      have position := indexed _ _ first
      rcases inductionHypothesis further with ⟨contiguous, reached⟩
      rw [← position] at contiguous reached
      refine ⟨⟨fun _ => position, contiguous⟩, ?_⟩
      rw [endIndex, reached]
      omega

end MultiRaft
