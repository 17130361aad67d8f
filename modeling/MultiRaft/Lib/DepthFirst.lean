import Mathlib.Logic.Relation

/-!
# Depth-first search with a memo

A node offers candidates, which are tried in order.  A candidate leads to a child
or to nothing.  A child that is the same as a remembered node is not entered
again, whether that node has been given up or is still being searched below.

The search ends, and it finds a goal if there is one: when it gives up, every node
that the root leads to is the same as a node it has finished.
-/

namespace MultiRaft

universe u v

/-- `same` is the test against the memo.  Children have smaller rank. -/
structure SearchProblem (Node : Type u) (Candidate : Type v) where
  candidates : Node → List Candidate
  child : Node → Candidate → Option Node
  goal : Node → Bool
  same : Node → Node → Bool
  rank : Node → Nat
  rank_child : ∀ {node candidate next}, child node candidate = some next → rank next < rank node

/-- The frames hold a node and the candidates of it that are still untried, the
deepest first. -/
structure DepthFirst (Node : Type u) (Candidate : Type v) where
  stack : List (Node × List Candidate)
  memo : List Node
  finished : List Node

namespace SearchProblem

variable {Node : Type u} {Candidate : Type v} (problem : SearchProblem Node Candidate)

def start (root : Node) : DepthFirst Node Candidate :=
  ⟨[(root, problem.candidates root)], [], []⟩

/-- One step, or the verdict. -/
def step (search : DepthFirst Node Candidate) : DepthFirst Node Candidate ⊕ Bool :=
  match search.stack with
  | [] => .inr false
  | (node, untried) :: below =>
      if problem.goal node then .inr true else
      match untried with
      | [] => .inl { search with stack := below, finished := node :: search.finished }
      | candidate :: untried =>
          match problem.child node candidate with
          | none => .inl { search with stack := (node, untried) :: below }
          | some next =>
              if search.memo.any (problem.same next) then
                .inl { search with stack := (node, untried) :: below }
              else
                .inl { search with
                  stack := (next, problem.candidates next) :: (node, untried) :: below
                  memo := next :: search.memo }

/-- Several steps without a verdict. -/
def Steps : DepthFirst Node Candidate → DepthFirst Node Candidate → Prop :=
  Relation.ReflTransGen fun search next => problem.step search = .inl next

/-- The nodes that a node leads to. -/
inductive LeadsTo : Node → Node → Prop
  | refl (node : Node) : LeadsTo node node
  | tail {root node next : Node} {candidate : Candidate} : LeadsTo root node →
      candidate ∈ problem.candidates node → problem.child node candidate = some next →
      LeadsTo root next

/-- Nodes that are the same offer the same candidates, which lead to nodes that are the
same again. -/
structure SameLaws : Prop where
  refl : ∀ node, problem.same node node = true
  trans : ∀ {one two three}, problem.same one two = true → problem.same two three = true →
    problem.same one three = true
  goal : ∀ {one two}, problem.same one two = true → problem.goal one = problem.goal two
  candidates : ∀ {one two}, problem.same one two = true →
    problem.candidates one = problem.candidates two
  child : ∀ {one two candidate next}, problem.same one two = true →
    problem.child one candidate = some next →
    ∃ next', problem.child two candidate = some next' ∧ problem.same next next' = true

variable {problem} {search next : DepthFirst Node Candidate} {root node : Node}
  {untried : List Candidate} {below : List (Node × List Candidate)}

section Step

/-- The four things a step does. -/
theorem step_cases (stepped : problem.step search = .inl next) :
    ∃ node untried below, search.stack = (node, untried) :: below ∧ problem.goal node = false ∧
      ((untried = [] ∧
          next = { search with stack := below, finished := node :: search.finished }) ∨
        ∃ candidate rest, untried = candidate :: rest ∧
          ((next = { search with stack := (node, rest) :: below } ∧
              ∀ child, problem.child node candidate = some child →
                ∃ known ∈ search.memo, problem.same child known = true) ∨
            ∃ child, problem.child node candidate = some child ∧
              search.memo.any (problem.same child) = false ∧
              next = { search with
                stack := (child, problem.candidates child) :: (node, rest) :: below
                memo := child :: search.memo })) := by
  obtain ⟨stack, memo, finished⟩ := search
  cases stack with
  | nil => cases stepped
  | cons frame below =>
      obtain ⟨node, untried⟩ := frame
      simp only [step] at stepped
      split at stepped
      · cases stepped
      · rename_i unfit
        refine ⟨node, untried, below, rfl, by simpa using unfit, ?_⟩
        cases untried with
        | nil =>
            cases stepped
            exact .inl ⟨rfl, rfl⟩
        | cons candidate rest =>
            refine .inr ⟨candidate, rest, rfl, ?_⟩
            dsimp only at stepped
            split at stepped
            · rename_i nothing
              cases stepped
              refine .inl ⟨rfl, ?_⟩
              intro child found
              cases nothing.symm.trans found
            · rename_i child found
              split at stepped
              · rename_i remembered
                cases stepped
                refine .inl ⟨rfl, ?_⟩
                intro child' found'
                cases found.symm.trans found'
                exact List.any_eq_true.mp remembered
              · rename_i new
                cases stepped
                exact .inr ⟨child, found, by simpa using new, rfl⟩

end Step

section Ends

/-- A frame is searched to its end, or a goal is met on top of the stack.  The
induction is on the rank of the node, and within it on what is untried. -/
theorem steps_below (problem : SearchProblem Node Candidate) (node : Node)
    (untried : List Candidate) (below : List (Node × List Candidate)) (memo finished : List Node) :
    ∃ next, problem.Steps ⟨(node, untried) :: below, memo, finished⟩ next ∧
      (next.stack = below ∨ problem.step next = .inr true) := by
  induction rank : problem.rank node using Nat.strongRecOn
    generalizing node untried below memo finished with
  | ind rankOf deeper =>
  by_cases goal : problem.goal node = true
  · exact ⟨_, .refl, .inr (by simp [step, goal])⟩
  induction untried generalizing memo finished with
  | nil =>
      refine ⟨⟨below, memo, node :: finished⟩, .single ?_, .inl rfl⟩
      simp [step, goal]
  | cons candidate rest further =>
      cases found : problem.child node candidate with
      | none =>
          obtain ⟨last, steps, ends⟩ := further memo finished
          refine ⟨last, .head ?_ steps, ends⟩
          simp [step, goal, found]
      | some child =>
          cases remembered : memo.any (problem.same child) with
          | true =>
              obtain ⟨last, steps, ends⟩ := further memo finished
              refine ⟨last, .head ?_ steps, ends⟩
              simp [step, goal, found, remembered]
          | false =>
              have smaller : problem.rank child < rankOf := rank ▸ problem.rank_child found
              obtain ⟨middle, into, back | verdict⟩ := deeper _ smaller child
                (problem.candidates child) ((node, rest) :: below) (child :: memo) finished rfl
              · obtain ⟨stack, memo', finished'⟩ := middle
                cases back
                obtain ⟨last, steps, ends⟩ := further memo' finished'
                refine ⟨last, .head ?_ (into.trans steps), ends⟩
                simp [step, goal, found, remembered]
              · refine ⟨middle, .head ?_ into, .inr verdict⟩
                simp [step, goal, found, remembered]

/-- The search comes to a verdict. -/
theorem steps_to_verdict (problem : SearchProblem Node Candidate) (root : Node) :
    ∃ last verdict, problem.Steps (problem.start root) last ∧
      problem.step last = .inr verdict := by
  obtain ⟨last, steps, empty | found⟩ := steps_below problem root (problem.candidates root)
    [] [] []
  · refine ⟨last, false, steps, ?_⟩
    rw [step, empty]
  · exact ⟨last, true, steps, found⟩

end Ends

/-- What is known of a frame: a candidate that is no longer untried leads to nothing or
to a remembered node. -/
structure Searched (problem : SearchProblem Node Candidate) (root : Node) (memo : List Node)
    (frame : Node × List Candidate) : Prop where
  reached : problem.LeadsTo root frame.1
  offered : ∀ candidate ∈ frame.2, candidate ∈ problem.candidates frame.1
  tried : ∀ candidate ∈ problem.candidates frame.1, candidate ∈ frame.2 ∨
    ∀ child, problem.child frame.1 candidate = some child →
      ∃ known ∈ memo, problem.same child known = true

section Frames

variable {memo wider : List Node} {candidate : Candidate}

theorem Searched.mono {frame : Node × List Candidate}
    (searched : problem.Searched root memo frame) (subset : memo ⊆ wider) :
    problem.Searched root wider frame := by
  refine ⟨searched.reached, searched.offered, ?_⟩
  intro candidate offered
  rcases searched.tried candidate offered with untried | settled
  · exact .inl untried
  · refine .inr fun child found => ?_
    obtain ⟨known, member, same⟩ := settled child found
    exact ⟨known, subset member, same⟩

theorem Searched.drop (searched : problem.Searched root memo (node, candidate :: untried))
    (settled : ∀ child, problem.child node candidate = some child →
      ∃ known ∈ memo, problem.same child known = true) :
    problem.Searched root memo (node, untried) := by
  refine ⟨searched.reached, ?_, ?_⟩
  · exact fun other member => searched.offered other (List.mem_cons_of_mem _ member)
  · intro other offered
    rcases searched.tried other offered with untried | known
    · rcases List.mem_cons.mp untried with rfl | later
      · exact .inr settled
      · exact .inl later
    · exact .inr known

theorem Searched.child (searched : problem.Searched root memo (node, candidate :: untried))
    {child : Node} (found : problem.child node candidate = some child) (wider : List Node) :
    problem.Searched root wider (child, problem.candidates child) where
  reached := .tail searched.reached (searched.offered candidate List.mem_cons_self) found
  offered _ member := member
  tried _ member := .inl member

end Frames

/-- What the search knows.  A remembered node is finished or still on the stack. -/
structure Sound (problem : SearchProblem Node Candidate) (root : Node)
    (search : DepthFirst Node Candidate) : Prop where
  frames : ∀ frame ∈ search.stack, problem.Searched root search.memo frame
  remembered : ∀ known ∈ search.memo, known ∈ search.finished ∨ known ∈ search.stack.map Prod.fst
  rooted : root ∈ search.finished ∨ root ∈ search.stack.map Prod.fst
  closed : ∀ node ∈ search.finished, problem.goal node = false ∧
    problem.Searched root search.memo (node, [])

theorem sound_start (problem : SearchProblem Node Candidate) (root : Node) :
    problem.Sound root (problem.start root) where
  frames := by
    refine List.forall_mem_singleton.mpr ⟨.refl root, ?_, ?_⟩
    · exact fun _ member => member
    · exact fun _ member => .inl member
  remembered := List.forall_mem_nil _
  rooted := .inr (List.mem_singleton_self _)
  closed := List.forall_mem_nil _

section Keeps

variable {memo finished : List Node} {candidate : Candidate}

/-- The top frame leaves the stack when nothing of it is untried. -/
theorem Sound.finish (sound : problem.Sound root ⟨(node, []) :: below, memo, finished⟩)
    (unfit : problem.goal node = false) :
    problem.Sound root ⟨below, memo, node :: finished⟩ := by
  obtain ⟨top, under⟩ := List.forall_mem_cons.mp sound.frames
  have moved : ∀ known, known ∈ finished ∨ known ∈ node :: below.map Prod.fst →
      known ∈ node :: finished ∨ known ∈ below.map Prod.fst := by
    rintro known (done | stacked)
    · exact .inl (List.mem_cons_of_mem _ done)
    · rcases List.mem_cons.mp stacked with rfl | deeper
      · exact .inl List.mem_cons_self
      · exact .inr deeper
  refine ⟨under, ?_, moved root sound.rooted, ?_⟩
  · exact fun known member => moved known (sound.remembered known member)
  · exact List.forall_mem_cons.mpr ⟨⟨unfit, top⟩, sound.closed⟩

/-- A candidate that needs no search is dropped. -/
theorem Sound.drop
    (sound : problem.Sound root ⟨(node, candidate :: untried) :: below, memo, finished⟩)
    (settled : ∀ child, problem.child node candidate = some child →
      ∃ known ∈ memo, problem.same child known = true) :
    problem.Sound root ⟨(node, untried) :: below, memo, finished⟩ := by
  obtain ⟨top, under⟩ := List.forall_mem_cons.mp sound.frames
  exact ⟨List.forall_mem_cons.mpr ⟨top.drop settled, under⟩, sound.remembered, sound.rooted,
    sound.closed⟩

/-- A child is entered and remembered. -/
theorem Sound.enter
    (sound : problem.Sound root ⟨(node, candidate :: untried) :: below, memo, finished⟩)
    (laws : problem.SameLaws) {child : Node} (found : problem.child node candidate = some child) :
    problem.Sound root ⟨(child, problem.candidates child) :: (node, untried) :: below,
      child :: memo, finished⟩ := by
  obtain ⟨top, under⟩ := List.forall_mem_cons.mp sound.frames
  have wider : memo ⊆ child :: memo := List.subset_cons_self _ _
  have settled : ∀ other, problem.child node candidate = some other →
      ∃ known ∈ child :: memo, problem.same other known = true := by
    intro other leads
    cases found.symm.trans leads
    exact ⟨child, List.mem_cons_self, laws.refl child⟩
  refine ⟨?_, ?_, ?_, ?_⟩
  · refine List.forall_mem_cons.mpr ⟨top.child found _, ?_⟩
    refine List.forall_mem_cons.mpr ⟨(top.mono wider).drop settled, ?_⟩
    exact fun frame member => (under frame member).mono wider
  · refine List.forall_mem_cons.mpr ⟨.inr List.mem_cons_self, ?_⟩
    exact fun known member => (sound.remembered known member).imp_right (List.mem_cons_of_mem _)
  · exact sound.rooted.imp_right (List.mem_cons_of_mem _)
  · intro done member
    obtain ⟨unfit, searched⟩ := sound.closed done member
    exact ⟨unfit, searched.mono wider⟩

theorem Sound.step (laws : problem.SameLaws) (sound : problem.Sound root search)
    (stepped : problem.step search = .inl next) : problem.Sound root next := by
  obtain ⟨stack, memo, finished⟩ := search
  obtain ⟨node, untried, below, rfl, unfit, ⟨rfl, rfl⟩ |
    ⟨candidate, rest, rfl, ⟨rfl, settled⟩ | ⟨child, found, -, rfl⟩⟩⟩ := step_cases stepped
  · exact sound.finish unfit
  · exact sound.drop settled
  · exact sound.enter laws found

theorem Sound.steps (laws : problem.SameLaws) (sound : problem.Sound root search)
    (steps : problem.Steps search next) : problem.Sound root next := by
  induction steps with
  | refl => exact sound
  | tail _ stepped inductionHypothesis => exact inductionHypothesis.step laws stepped

end Keeps

section Verdict

/-- A verdict is given on a goal or on an empty stack. -/
theorem verdict_cases {verdict : Bool} (ends : problem.step search = .inr verdict) :
    (verdict = true ∧ ∃ node untried below, search.stack = (node, untried) :: below ∧
      problem.goal node = true) ∨ (verdict = false ∧ search.stack = []) := by
  obtain ⟨stack, memo, finished⟩ := search
  cases stack with
  | nil =>
      cases ends
      exact .inr ⟨rfl, rfl⟩
  | cons frame below =>
      obtain ⟨node, untried⟩ := frame
      simp only [step] at ends
      split at ends
      · rename_i goal
        cases ends
        exact .inl ⟨rfl, node, untried, below, rfl, goal⟩
      · cases untried with
        | nil => cases ends
        | cons candidate rest =>
            dsimp only at ends
            split at ends
            · cases ends
            · split at ends
              · cases ends
              · cases ends

/-- Once the stack is empty, every node the root leads to is the same as a finished
one. -/
theorem Sound.covered (laws : problem.SameLaws) (sound : problem.Sound root search)
    (empty : search.stack = []) {node : Node} (leads : problem.LeadsTo root node) :
    ∃ done ∈ search.finished, problem.same node done = true := by
  have kept : ∀ known, known ∈ search.finished ∨ known ∈ search.stack.map Prod.fst →
      known ∈ search.finished := by
    intro known place
    rw [empty] at place
    exact place.resolve_right List.not_mem_nil
  induction leads with
  | refl => exact ⟨root, kept root sound.rooted, laws.refl root⟩
  | tail _ offered found inductionHypothesis =>
      obtain ⟨done, member, same⟩ := inductionHypothesis
      rw [laws.candidates same] at offered
      obtain ⟨twin, leads, alike⟩ := laws.child same found
      rcases (sound.closed done member).2.tried _ offered with untried | settled
      · exact absurd untried List.not_mem_nil
      · obtain ⟨known, remembered, same'⟩ := settled twin leads
        exact ⟨known, kept known (sound.remembered known remembered), laws.trans alike same'⟩

/-- The verdict is right. -/
theorem Sound.verdict_iff (laws : problem.SameLaws) (sound : problem.Sound root search)
    {verdict : Bool} (ends : problem.step search = .inr verdict) :
    verdict = true ↔ ∃ node, problem.LeadsTo root node ∧ problem.goal node = true := by
  rcases verdict_cases ends with ⟨rfl, node, untried, below, stack, goal⟩ | ⟨rfl, empty⟩
  · refine ⟨fun _ => ⟨node, ?_, goal⟩, fun _ => rfl⟩
    exact (sound.frames (node, untried) (stack ▸ List.mem_cons_self)).reached
  · refine ⟨fun yes => (Bool.false_ne_true yes).elim, ?_⟩
    rintro ⟨node, leads, goal⟩
    obtain ⟨done, member, same⟩ := sound.covered laws empty leads
    have unfit := (sound.closed done member).1
    rw [← laws.goal same, goal] at unfit
    exact unfit.symm

end Verdict

end SearchProblem

end MultiRaft
