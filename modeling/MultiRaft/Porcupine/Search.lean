import MultiRaft.Lib.DepthFirst
import MultiRaft.Porcupine.Entries

/-!
# `checkSingle` as a depth-first search

A node of the search is what has been linearized so far, with the state reached.  The
loop of `checkSingle` takes the steps of the search: the cells in front of the first
return are its candidates, the cache is its memo, and the cells that are taken out
come back in the reverse order.
-/

namespace MultiRaft.Porcupine

variable {State Input Output : Type}

/-- The operations linearized so far, in their order. -/
structure Config (State : Type) where
  path : List Nat
  state : State

namespace Heap

/-- The cells of the operations that are not linearized. -/
def rest (heap : Heap Input Output) (count : Nat) (path : List Nat) : List Nat :=
  (cellsOf count).filter fun cell => heap.id cell ∉ path

/-- `model.Step` at a call, with the value of its match. -/
def operate [DecidableEq State] (heap : Heap Input Output) (model : Model State Input Output)
    (state : State) (cell : Nat) : Option State :=
  match heap.value cell, (heap.matching cell).bind heap.value with
  | some (.call input), some (.ret output) =>
      if (model.step state input output).1 then some (model.step state input output).2 else none
  | _, _ => none

variable {heap : Heap Input Output} {n count cell : Nat} {path : List Nat}

theorem mem_rest : cell ∈ heap.rest count path ↔ cell < count ∧ heap.id cell ∉ path := by
  simp [rest, mem_cellsOf]

theorem rest_concat (id : Nat) :
    heap.rest count (path ++ [id]) = (heap.rest count path).filter fun cell => heap.id cell ≠ id := by
  rw [rest, rest, List.filter_filter]
  refine List.filter_congr fun cell _ => ?_
  by_cases same : heap.id cell = id <;> simp [same]

theorem pairwise_rest (heap : Heap Input Output) (count : Nat) (path : List Nat) :
    (heap.rest count path).Pairwise (· > ·) :=
  (pairwise_cellsOf count).filter _

/-- The two cells of an operation leave the rest when it is linearized. -/
theorem Sheet.rest_split (sheet : heap.Sheet n count) (member : cell ∈ heap.rest count path)
    (isCall : heap.isCall cell = true) :
    ∃ other front middle back, heap.matching cell = some other ∧
      heap.rest count path = front ++ cell :: (middle ++ other :: back) ∧
      heap.rest count (path ++ [heap.id cell]) = front ++ (middle ++ back) := by
  obtain ⟨inside, unused⟩ := mem_rest.mp member
  obtain ⟨other, later, _, _, matched, notCall, named, _⟩ := sheet.call cell inside isCall
  have sorted := heap.pairwise_rest count path
  have place : other ∈ heap.rest count path := mem_rest.mpr ⟨later.trans inside, named ▸ unused⟩
  obtain ⟨front, behind, split⟩ := List.append_of_mem member
  rw [split] at sorted place
  have order := List.pairwise_append.mp sorted
  have inBehind : other ∈ behind := by
    rcases List.mem_append.mp place with early | late
    · exact absurd (order.2.2 other early cell List.mem_cons_self) (Nat.lt_asymm later)
    · rcases List.mem_cons.mp late with rfl | found
      · exact absurd later (Nat.lt_irrefl _)
      · exact found
  obtain ⟨middle, back, rfl⟩ := List.append_of_mem inBehind
  refine ⟨other, front, middle, back, matched, split, ?_⟩
  have others : ∀ third ∈ front ++ (middle ++ back), heap.id third ≠ heap.id cell := by
    intro third inRest same
    have known : third ∈ heap.rest count path := by
      rw [split]
      simp only [List.mem_append, List.mem_cons] at inRest ⊢
      tauto
    have nodup : (front ++ cell :: (middle ++ other :: back)).Nodup :=
      sorted.imp fun greater => Nat.ne_of_gt greater
    have unlike : third ≠ cell ∧ third ≠ other := by
      constructor
      · rintro rfl
        simp only [List.nodup_append, List.nodup_cons, List.mem_append, List.mem_cons] at nodup inRest
        grind
      · rintro rfl
        simp only [List.nodup_append, List.nodup_cons, List.mem_append, List.mem_cons] at nodup inRest
        grind
    have bound := (mem_rest.mp known).1
    cases kind : heap.isCall third with
    | true => exact unlike.1 (sheet.unique bound inside (kind.trans isCall.symm) same)
    | false =>
        exact unlike.2 (sheet.unique bound (later.trans inside) (kind.trans notCall.symm)
          (same.trans named.symm))
  rw [rest_concat, split, List.filter_append, List.filter_cons, List.filter_append, List.filter_cons]
  rw [if_neg (by simp), if_neg (by simp [named])]
  rw [← List.filter_append, ← List.filter_append]
  exact List.filter_eq_self.mpr fun third known => decide_eq_true (others third known)

section Lift

variable {links : Links Nat} {front middle back : List Nat} {before other : Nat}

/-- The heap with other links. -/
def withLinks (heap : Heap Input Output) (links : Links Nat) : Heap Input Output :=
  { heap with toLinks := links }

@[simp]
theorem withLinks_next : (heap.withLinks links).next = links.next := rfl

@[simp]
theorem withLinks_prev : (heap.withLinks links).prev = links.prev := rfl

@[simp]
theorem withLinks_matching : (heap.withLinks links).matching = heap.matching := rfl

@[simp]
theorem withLinks_value : (heap.withLinks links).value = heap.value := rfl

@[simp]
theorem withLinks_id : (heap.withLinks links).id = heap.id := rfl

@[simp]
theorem withLinks_setNext (value : Option Nat) :
    (heap.withLinks links).setNext cell value = heap.withLinks (links.setNext cell value) := rfl

@[simp]
theorem withLinks_setPrev (value : Option Nat) :
    (heap.withLinks links).setPrev cell value = heap.withLinks (links.setPrev cell value) := rfl

/-- `lift` takes out the call, which has a cell behind it, and then the return. -/
theorem lift_eq {one two : Links Nat} {after : Nat} (matched : heap.matching cell = some other)
    (next : links.next cell = some after) (prev : links.prev cell = some before)
    (apart : cell ≠ before) (taken : links.unlink cell = some one)
    (takenTwo : one.unlink other = some two) :
    (heap.withLinks links).lift cell = some (heap.withLinks two) := by
  have kept : (links.setNext before (some after)).next cell = some after :=
    (Function.update_of_ne apart _ _).trans next
  simp only [Links.unlink, prev, next, kept, Links.setNext_prev, Option.bind_eq_bind,
    Option.bind_some, Option.some.injEq] at taken
  subst taken
  simp only [Links.unlink, Option.bind_eq_bind] at takenTwo
  simp only [lift, withLinks_prev, withLinks_next, withLinks_matching, withLinks_setNext,
    withLinks_setPrev, Links.setNext_prev, prev, next, kept, matched, Option.bind_eq_bind,
    Option.bind_some]
  cases prevTwo : ((links.setNext before (some after)).setPrev after (some before)).prev other with
  | none =>
      rw [prevTwo] at takenTwo
      cases takenTwo
  | some before' =>
      rw [prevTwo] at takenTwo
      simp only [Option.bind_some] at takenTwo ⊢
      split at takenTwo <;> simp_all

/-- `unlift` puts back the return and then the call, which has a cell behind it. -/
theorem unlift_eq {one two : Links Nat} {after : Nat} (matched : heap.matching cell = some other)
    (next : one.next cell = some after) (prev : one.prev cell = some before)
    (apart : cell ≠ before) (restored : one.relink cell = some links)
    (restoredTwo : two.relink other = some one) :
    (heap.withLinks two).unlift cell = some (heap.withLinks links) := by
  have kept : (one.setNext before (some cell)).next cell = some after :=
    (Function.update_of_ne apart _ _).trans next
  simp only [Links.relink, prev, kept, Option.bind_eq_bind, Option.bind_some, Option.some.injEq]
    at restored
  subst restored
  simp only [Links.relink, Option.bind_eq_bind] at restoredTwo
  simp only [unlift, withLinks_prev, withLinks_matching, withLinks_setNext, matched,
    Option.bind_eq_bind, Option.bind_some]
  cases prevTwo : two.prev other with
  | none =>
      rw [prevTwo] at restoredTwo
      cases restoredTwo
  | some before' =>
      rw [prevTwo] at restoredTwo
      simp only [Option.bind_some, withLinks_next] at restoredTwo ⊢
      split at restoredTwo <;> simp_all

/-- A call and its return are taken out, and putting them back restores every link. -/
theorem lift_linked
    (linked : links.Linked (front ++ before :: cell :: (middle ++ other :: back)))
    (matched : heap.matching cell = some other) :
    ∃ less, (heap.withLinks links).lift cell = some (heap.withLinks less) ∧
      less.Linked (front ++ before :: (middle ++ back)) ∧
      (heap.withLinks less).unlift cell = some (heap.withLinks links) := by
  obtain ⟨one, taken, linkedOne, restored, nextOne, prevOne⟩ := linked.unlink
  obtain ⟨after, isNext⟩ : ∃ after, links.next cell = some after := by
    have split : front ++ before :: cell :: (middle ++ other :: back) =
        (front ++ [before]) ++ cell :: (middle ++ other :: back) := by simp
    have next := (split ▸ linked).next
    cases middle with
    | nil => exact ⟨other, next⟩
    | cons first others => exact ⟨first, next⟩
  have isPrev := linked.prev
  obtain ⟨front', before', ends⟩ : ∃ front' before', front ++ before :: middle =
      front' ++ [before'] :=
    ⟨_, _, (List.dropLast_append_getLast (by simp)).symm⟩
  have split : front ++ before :: (middle ++ other :: back) = front' ++ before' :: other :: back := by
    rw [← List.cons_append, ← List.append_assoc, ends]
    simp
  obtain ⟨two, takenTwo, linkedTwo, restoredTwo, nextTwo, prevTwo⟩ := (split ▸ linkedOne).unlink
  have apart : cell ≠ before := by
    have nodup := (List.nodup_append.mp linked.nodup).2.1
    rintro rfl
    exact (List.nodup_cons.mp nodup).1 List.mem_cons_self
  refine ⟨two, lift_eq matched isNext isPrev apart taken takenTwo, ?_, ?_⟩
  · have joined : front ++ before :: (middle ++ back) = front' ++ before' :: back := by
      rw [← List.cons_append, ← List.append_assoc, ends]
      simp
    exact joined ▸ linkedTwo
  · exact unlift_eq matched (nextOne.trans isNext) (prevOne.trans isPrev) apart restored restoredTwo

end Lift

end Heap

section Problem

variable [DecidableEq State] (model : Model State Input Output) (heap : Heap Input Output)
  (count : Nat)

/-- A candidate is a call with no return in front of it.  Two nodes are the same if they
have linearized the same operations and their states are equal for the model. -/
def problem : SearchProblem (Config State) Nat where
  candidates config := (heap.rest count config.path).takeWhile heap.isCall
  child config cell :=
    if cell ∈ heap.rest count config.path then
      (heap.operate model config.state cell).map fun next => ⟨config.path ++ [heap.id cell], next⟩
    else none
  goal config := (heap.rest count config.path).isEmpty
  same one two := one.path.all (· ∈ two.path) && two.path.all (· ∈ one.path) &&
    model.equal one.state two.state
  rank config := (heap.rest count config.path).length
  rank_child := by
    intro config cell next leads
    split at leads
    · rename_i member
      obtain ⟨state, _, rfl⟩ := Option.map_eq_some_iff.mp leads
      rw [Heap.rest_concat]
      exact List.length_filter_lt_length_iff_exists.mpr ⟨cell, member, by simp⟩
    · cases leads

/-- `Equal` is an equality: equal states cannot be told apart by further steps. -/
structure Model.EqualLaws (model : Model State Input Output) : Prop where
  refl : ∀ state, model.equal state state = true
  trans : ∀ {one two three}, model.equal one two = true → model.equal two three = true →
    model.equal one three = true
  step : ∀ {one two}, model.equal one two = true → ∀ input output,
    (model.step one input output).1 = (model.step two input output).1 ∧
      ((model.step one input output).1 = true →
        model.equal (model.step one input output).2 (model.step two input output).2 = true)

theorem Model.equalLaws_shallow (shallow : model.equal = shallowEqual) : model.EqualLaws := by
  have same : ∀ {one two}, model.equal one two = true ↔ one = two := by
    simp [shallow, shallowEqual]
  refine ⟨fun _ => same.mpr rfl, ?_, ?_⟩
  · exact fun first second => same.mpr ((same.mp first).trans (same.mp second))
  · intro one two equal input output
    cases same.mp equal
    exact ⟨rfl, fun _ => same.mpr rfl⟩

variable {model heap count}

theorem same_iff {one two : Config State} : (problem model heap count).same one two = true ↔
    (∀ id, id ∈ one.path ↔ id ∈ two.path) ∧ model.equal one.state two.state = true := by
  simp only [problem, Bool.and_eq_true, List.all_eq_true, decide_eq_true_eq, iff_def,
    forall_and]

theorem child_eq_some {config next : Config State} {cell : Nat} :
    (problem model heap count).child config cell = some next ↔
      cell ∈ heap.rest count config.path ∧ ∃ state,
        heap.operate model config.state cell = some state ∧
          next = ⟨config.path ++ [heap.id cell], state⟩ := by
  simp only [problem]
  split
  · rename_i member
    rw [Option.map_eq_some_iff]
    constructor
    · rintro ⟨state, operated, rfl⟩
      exact ⟨member, state, operated, rfl⟩
    · rintro ⟨_, state, operated, rfl⟩
      exact ⟨state, operated, rfl⟩
  · rename_i absent
    refine ⟨fun impossible => ?_, fun present => absurd present.1 absent⟩
    cases impossible

theorem rest_congr {one two : List Nat} (same : ∀ id, id ∈ one ↔ id ∈ two) :
    heap.rest count one = heap.rest count two := by
  refine List.filter_congr fun cell _ => ?_
  rw [decide_eq_decide, same]

theorem operate_congr (laws : model.EqualLaws) {one two next : State} {cell : Nat}
    (equal : model.equal one two = true) (stepped : heap.operate model one cell = some next) :
    ∃ next', heap.operate model two cell = some next' ∧ model.equal next next' = true := by
  unfold Heap.operate at stepped ⊢
  split at stepped
  · rename_i input output called returned
    obtain ⟨verdict, states⟩ := laws.step equal input output
    split at stepped
    · rename_i ok
      cases stepped
      exact ⟨_, if_pos (verdict ▸ ok), states ok⟩
    · cases stepped
  · cases stepped

theorem sameLaws (laws : model.EqualLaws) : (problem model heap count).SameLaws where
  refl config := same_iff.mpr ⟨fun _ => Iff.rfl, laws.refl _⟩
  trans first second := by
    rw [same_iff] at *
    exact ⟨fun id => (first.1 id).trans (second.1 id), laws.trans first.2 second.2⟩
  goal same := by
    simp only [problem, rest_congr (same_iff.mp same).1]
  candidates same := by
    simp only [problem, rest_congr (same_iff.mp same).1]
  child {one two cell next} same leads := by
    obtain ⟨paths, equal⟩ := same_iff.mp same
    obtain ⟨member, state, operated, rfl⟩ := child_eq_some.mp leads
    obtain ⟨state', operated', equal'⟩ := operate_congr laws equal operated
    rw [rest_congr paths] at member
    refine ⟨_, child_eq_some.mpr ⟨member, state', operated', rfl⟩, same_iff.mpr ⟨?_, equal'⟩⟩
    intro id
    simp [paths id]

end Problem

end MultiRaft.Porcupine
