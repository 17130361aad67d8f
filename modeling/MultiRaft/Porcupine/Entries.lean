import Mathlib.Data.List.Forall2
import MultiRaft.Porcupine.Checker

/-!
# The linked entries of a history

`makeLinkedEntries` allocates the cells from the last entry to the first, so that of
two cells the earlier one in the list has the larger number.
-/

namespace MultiRaft.Porcupine

variable {Input Output : Type}

/-- Every call has its return behind it. -/
def Answered : List (Entry Input Output) → Prop
  | [] => True
  | entry :: rest =>
      (entry.value.isCall = true → ∃ other ∈ rest, other.value.isCall = false ∧ other.id = entry.id) ∧
        Answered rest

/-- The operations 0, ..., n - 1, each with one call and with one return behind the call. -/
structure Paired (n : Nat) (entries : List (Entry Input Output)) : Prop where
  answered : Answered entries
  calls : ((entries.filter fun entry => entry.value.isCall).map (·.id)).Perm (List.range n)
  returns : ((entries.filter fun entry => !entry.value.isCall).map (·.id)).Perm (List.range n)

/-- The cells of so many entries in the order of the list. -/
def cellsOf (count : Nat) : List Nat := (List.range count).reverse

theorem cellsOf_succ (count : Nat) : cellsOf (count + 1) = count :: cellsOf count := by
  simp [cellsOf, List.range_succ]

theorem mem_cellsOf {count cell : Nat} : cell ∈ cellsOf count ↔ cell < count := by
  simp [cellsOf]

theorem pairwise_cellsOf (count : Nat) : (cellsOf count).Pairwise (· > ·) :=
  List.pairwise_reverse.mpr List.pairwise_lt_range

theorem length_cellsOf (count : Nat) : (cellsOf count).length = count := by
  simp [cellsOf]

namespace Heap

/-- What is written in the cells, which the search never changes. -/
structure Writes (heap : Heap Input Output) (cells : List Nat)
    (entries : List (Entry Input Output)) : Prop where
  entries : List.Forall₂ (fun cell entry => heap.value cell = some entry.value ∧
    heap.id cell = entry.id) cells entries
  call : ∀ cell ∈ cells, ∀ input, heap.value cell = some (.call input) →
    ∃ other ∈ cells, other < cell ∧ heap.matching cell = some other ∧
      heap.id other = heap.id cell ∧ ∃ output, heap.value other = some (.ret output)
  ret : ∀ cell ∈ cells, ∀ output, heap.value cell = some (.ret output) → heap.matching cell = none

theorem Writes.congr {heap other : Heap Input Output} {cells : List Nat}
    {entries : List (Entry Input Output)} (writes : heap.Writes cells entries)
    (value : ∀ cell ∈ cells, other.value cell = heap.value cell)
    (matching : ∀ cell ∈ cells, other.matching cell = heap.matching cell)
    (id : ∀ cell ∈ cells, other.id cell = heap.id cell) : other.Writes cells entries := by
  refine ⟨?_, ?_, ?_⟩
  · refine ((List.forall₂_and_left _ _).mpr ⟨fun _ member => member, writes.entries⟩).imp ?_
    rintro cell entry ⟨member, valued, named⟩
    exact ⟨(value cell member).trans valued, (id cell member).trans named⟩
  · intro cell member input called
    rw [value cell member] at called
    obtain ⟨back, inside, later, matched, named, output, returned⟩ :=
      writes.call cell member input called
    exact ⟨back, inside, later, (matching cell member).trans matched,
      (id back inside).trans (named.trans (id cell member).symm), output,
      (value back inside).trans returned⟩
  · intro cell member output returned
    rw [value cell member] at returned
    exact (matching cell member).trans (writes.ret cell member output returned)

theorem length_of_linked {heap : Heap Input Output} {cells : List Nat}
    (linked : heap.toLinks.Linked cells) {fuel : Nat} (enough : cells.length < fuel) :
    heap.length fuel cells.head? = some cells.length := by
  induction cells generalizing fuel with
  | nil =>
      obtain ⟨fuel, rfl⟩ := Nat.exists_eq_add_of_lt enough
      rfl
  | cons cell rest inductionHypothesis =>
      cases fuel with
      | zero => exact absurd enough (Nat.not_lt_zero _)
      | succ fuel =>
          have tail : heap.toLinks.Linked rest := by
            refine ⟨linked.chain.tail, ?_, (List.nodup_cons.mp linked.nodup).2⟩
            intro last final
            refine linked.last last ?_
            cases rest with
            | nil => cases final
            | cons next others => simpa [List.getLast?_cons_cons] using final
          have next : heap.next cell = rest.head? := by
            rw [← List.nil_append (cell :: rest)] at linked
            exact linked.next
          rw [List.head?_cons, length, next, inductionHypothesis tail (Nat.lt_of_succ_lt_succ enough)]
          rfl

end Heap

/-- What the loop has built from the entries behind it. -/
structure Linking.Holds (linking : Linking Input Output) (entries : List (Entry Input Output)) :
    Prop where
  fresh : linking.fresh = entries.length
  root : linking.root = (cellsOf entries.length).head?
  first : ∀ root ∈ linking.root, linking.heap.prev root = none
  linked : linking.heap.toLinks.Linked (cellsOf entries.length)
  writes : linking.heap.Writes (cellsOf entries.length) entries
  matches_ : ∀ entry ∈ entries, entry.value.isCall = false →
    ∃ cell ∈ cellsOf entries.length, linking.matchOf entry.id = some cell ∧
      linking.heap.id cell = entry.id ∧ ∃ output, linking.heap.value cell = some (.ret output)

section Insert

variable {heap : Heap Input Output} {count : Nat} {root : Option Nat}
  (value : Option (Value Input Output)) (matching : Option Nat) (id : Nat)

theorem alloc_next (n : Nat) : (heap.alloc n value matching id).next n = none :=
  Function.update_self _ _ _

theorem alloc_prev (n : Nat) : (heap.alloc n value matching id).prev n = none :=
  Function.update_self _ _ _

/-- A cell allocated in front of the list. -/
theorem linked_insertBefore (linked : heap.toLinks.Linked (cellsOf count))
    (isRoot : root = (cellsOf count).head?) (first : ∀ cell ∈ root, heap.prev cell = none) :
    ((heap.alloc count value matching id).insertBefore count root).toLinks.Linked
      (cellsOf (count + 1)) ∧
    ((heap.alloc count value matching id).insertBefore count root).prev count = none := by
  have apart : ∀ cell ∈ cellsOf count, cell ≠ count := fun cell member =>
    Nat.ne_of_lt (mem_cellsOf.mp member)
  have kept : (heap.alloc count value matching id).toLinks.Linked (cellsOf count) := by
    refine linked.congr (fun cell member => ?_) fun cell member => ?_
    · exact Function.update_of_ne (apart cell member) _ _
    · exact Function.update_of_ne (apart cell member) _ _
  rw [cellsOf_succ]
  cases count with
  | zero =>
      have none_ : root = none := isRoot
      subst none_
      rw [show (heap.alloc 0 value matching id).insertBefore 0 none =
        heap.alloc 0 value matching id from rfl]
      exact ⟨Links.linked_singleton (alloc_next value matching id 0),
        alloc_prev value matching id 0⟩
  | succ before =>
      rw [cellsOf_succ] at isRoot kept apart ⊢
      rw [List.head?_cons] at isRoot
      subst isRoot
      have unlike : before ≠ before + 1 := apart before List.mem_cons_self
      have alone : (heap.alloc (before + 1) value matching id).prev before = none :=
        (Function.update_of_ne unlike _ _).trans (first before rfl)
      have inserted : (heap.alloc (before + 1) value matching id).insertBefore (before + 1)
          (some before) = ((heap.alloc (before + 1) value matching id).setPrev before
            (some (before + 1))).setNext (before + 1) (some before) := by
        simp only [Heap.insertBefore, alone]
      rw [inserted]
      refine ⟨kept.cons fun member => apart _ member rfl, ?_⟩
      exact (Function.update_of_ne unlike.symm _ _).trans (alloc_prev value matching id _)

theorem insertBefore_fields (heap : Heap Input Output) (n : Nat) (mark : Option Nat) :
    (heap.insertBefore n mark).value = heap.value ∧
      (heap.insertBefore n mark).matching = heap.matching ∧
      (heap.insertBefore n mark).id = heap.id := by
  unfold Heap.insertBefore
  cases mark with
  | none => exact ⟨rfl, rfl, rfl⟩
  | some mark =>
      dsimp only
      cases heap.prev mark with
      | none => exact ⟨rfl, rfl, rfl⟩
      | some before => exact ⟨rfl, rfl, rfl⟩

/-- A cell allocated in front of the list leaves what is written in the others. -/
theorem Heap.Writes.insertBefore {entries : List (Entry Input Output)}
    (writes : heap.Writes (cellsOf count) entries) :
    ((heap.alloc count value matching id).insertBefore count root).Writes (cellsOf count)
      entries := by
  have apart : ∀ cell ∈ cellsOf count, cell ≠ count := fun cell member =>
    Nat.ne_of_lt (mem_cellsOf.mp member)
  obtain ⟨values, matchings, ids⟩ := insertBefore_fields (heap.alloc count value matching id)
    count root
  refine writes.congr ?_ ?_ ?_
  · intro cell member
    rw [values]
    exact Function.update_of_ne (apart cell member) _ _
  · intro cell member
    rw [matchings]
    exact Function.update_of_ne (apart cell member) _ _
  · intro cell member
    rw [ids]
    exact Function.update_of_ne (apart cell member) _ _

end Insert

section Link

variable {linking : Linking Input Output} {entries : List (Entry Input Output)}
  {entry : Entry Input Output} {matching : Option Nat} {matchOf : Nat → Option Nat}

/-- What both branches of the body do, for the match they find and the map they leave. -/
theorem Linking.Holds.insert (holds : linking.Holds entries)
    (call : ∀ input, entry.value = .call input → ∃ other ∈ cellsOf entries.length,
      matching = some other ∧ linking.heap.id other = entry.id ∧
        ∃ output, linking.heap.value other = some (.ret output))
    (ret : ∀ output, entry.value = .ret output → matching = none ∧
      matchOf entry.id = some entries.length)
    (kept : ∀ id, (entry.value.isCall = false → id ≠ entry.id) → matchOf id = linking.matchOf id) :
    Linking.Holds
      { heap := (linking.heap.alloc linking.fresh (some entry.value) matching entry.id).insertBefore
          linking.fresh linking.root
        root := some linking.fresh
        matchOf
        fresh := linking.fresh + 1 } (entry :: entries) := by
  obtain ⟨fresh, isRoot, first, linked, writes, matches_⟩ := holds
  obtain ⟨linkedNew, firstNew⟩ := linked_insertBefore (some entry.value) matching entry.id linked
    isRoot first
  have writesOld : ((linking.heap.alloc entries.length (some entry.value) matching
      entry.id).insertBefore entries.length linking.root).Writes (cellsOf entries.length) entries :=
    writes.insertBefore _ _ _
  rw [fresh]
  obtain ⟨values, matchings, ids⟩ := insertBefore_fields
    (linking.heap.alloc entries.length (some entry.value) matching entry.id) entries.length
    linking.root
  generalize ((linking.heap.alloc entries.length (some entry.value) matching
    entry.id).insertBefore entries.length linking.root) = heap at *
  have valued : heap.value entries.length = some entry.value := by
    rw [values]
    exact Function.update_self _ _ _
  have named : heap.id entries.length = entry.id := by
    rw [ids]
    exact Function.update_self _ _ _
  have matched : heap.matching entries.length = matching := by
    rw [matchings]
    exact Function.update_self _ _ _
  have older : ∀ cell ∈ cellsOf entries.length,
      heap.value cell = linking.heap.value cell ∧ heap.id cell = linking.heap.id cell := by
    intro cell member
    have apart := Nat.ne_of_lt (mem_cellsOf.mp member)
    rw [values, ids]
    exact ⟨Function.update_of_ne apart _ _, Function.update_of_ne apart _ _⟩
  have inside : ∀ {cell}, cell ∈ cellsOf entries.length → cell ∈ cellsOf (entry :: entries).length := by
    intro cell member
    rw [List.length_cons, cellsOf_succ]
    exact List.mem_cons_of_mem _ member
  refine ⟨rfl, ?_, ?_, linkedNew, ⟨?_, ?_, ?_⟩, ?_⟩
  · rw [List.length_cons, cellsOf_succ]
    rfl
  · intro root isNew
    cases Option.mem_some_iff.mp isNew
    exact firstNew
  · rw [List.length_cons, cellsOf_succ]
    exact .cons ⟨valued, named⟩ writesOld.entries
  · intro cell member input called
    rw [List.length_cons, cellsOf_succ] at member
    rcases List.mem_cons.mp member with rfl | old
    · rw [valued] at called
      obtain ⟨other, known, found, sameId, output, returned⟩ := call input (Option.some.inj called)
      obtain ⟨value, id⟩ := older other known
      exact ⟨other, inside known, mem_cellsOf.mp known, matched.trans found,
        (id.trans sameId).trans named.symm, output, value.trans returned⟩
    · obtain ⟨other, known, later, rest⟩ := writesOld.call cell old input called
      exact ⟨other, inside known, later, rest⟩
  · intro cell member output returned
    rw [List.length_cons, cellsOf_succ] at member
    rcases List.mem_cons.mp member with rfl | old
    · rw [valued] at returned
      exact matched.trans (ret output (Option.some.inj returned)).1
    · exact writesOld.ret cell old output returned
  · intro other member isReturn
    by_cases isNew : entry.value.isCall = false ∧ other.id = entry.id
    · cases value : entry.value with
      | call input =>
          rw [value] at isNew
          cases isNew.1
      | ret output =>
          refine ⟨entries.length, ?_, ?_, named.trans isNew.2.symm, output, value ▸ valued⟩
          · rw [List.length_cons, cellsOf_succ]
            exact List.mem_cons_self
          · rw [isNew.2]
            exact (ret output value).2
    · have known : other ∈ entries := by
        rcases List.mem_cons.mp member with rfl | old
        · exact absurd ⟨isReturn, rfl⟩ isNew
        · exact old
      obtain ⟨cell, place, found, sameId, output, returned⟩ := matches_ other known isReturn
      obtain ⟨value, id⟩ := older cell place
      refine ⟨cell, inside place, ?_, id.trans sameId, output, value.trans returned⟩
      rw [← found]
      exact kept other.id fun isRet same => isNew ⟨isRet, same⟩

/-- One round of the loop. -/
theorem Linking.Holds.link (holds : linking.Holds entries) (answered : Answered (entry :: entries)) :
    (linking.link entry).Holds (entry :: entries) := by
  obtain ⟨value, id, time, clientId⟩ := entry
  cases value with
  | call input =>
      refine holds.insert ?_ ?_ ?_
      · intro _ _
        obtain ⟨other, member, isReturn, sameId⟩ := answered.1 rfl
        obtain ⟨cell, inside, matched, named, returned⟩ := holds.matches_ other member isReturn
        rw [sameId] at matched named
        exact ⟨cell, inside, matched, named, returned⟩
      · intro output impossible
        cases impossible
      · exact fun _ _ => rfl
  | ret output =>
      refine holds.insert ?_ ?_ ?_
      · intro input impossible
        cases impossible
      · exact fun _ _ => ⟨rfl, holds.fresh ▸ Function.update_self _ _ _⟩
      · exact fun id other => Function.update_of_ne (other rfl) _ _

end Link

theorem holds_makeLinkedEntries {entries : List (Entry Input Output)}
    (answered : Answered entries) : (makeLinkedEntries entries).Holds entries := by
  induction entries with
  | nil =>
      refine ⟨rfl, rfl, ?_, ⟨.nil, ?_, .nil⟩, ⟨.nil, ?_, ?_⟩, ?_⟩
      all_goals
        intro _ member
        cases member
  | cons entry rest inductionHypothesis => exact (inductionHypothesis answered.2).link answered

namespace Heap

/-- The test for a call entry in the loop of `checkSingle`. -/
def isCall (heap : Heap Input Output) (cell : Nat) : Bool := (heap.matching cell).isSome

/-- The cells `0, ..., count - 1` with the calls and returns of the operations
`0, ..., n - 1`. -/
structure Sheet (heap : Heap Input Output) (n count : Nat) : Prop where
  calls : (((cellsOf count).filter heap.isCall).map heap.id).Perm (List.range n)
  returns : (((cellsOf count).filter fun cell => !heap.isCall cell).map heap.id).Perm (List.range n)
  call : ∀ cell < count, heap.isCall cell = true → ∃ other < cell, ∃ input output,
    heap.matching cell = some other ∧ heap.isCall other = false ∧ heap.id other = heap.id cell ∧
      heap.value cell = some (.call input) ∧ heap.value other = some (.ret output)

variable {heap : Heap Input Output} {n count : Nat} {entries : List (Entry Input Output)}

theorem Writes.isCall (writes : heap.Writes (cellsOf count) entries) :
    ∀ cell ∈ cellsOf count, ∀ value, heap.value cell = some value →
      heap.isCall cell = value.isCall := by
  intro cell member value written
  cases value with
  | call input =>
      obtain ⟨other, _, _, matched, _⟩ := writes.call cell member input written
      rw [Heap.isCall, matched]
      rfl
  | ret output =>
      rw [Heap.isCall, writes.ret cell member output written]
      rfl

/-- The ids of the cells of one kind are those of the entries of that kind. -/
theorem Writes.ids (writes : heap.Writes (cellsOf count) entries) (kind : Bool) :
    ((cellsOf count).filter fun cell => heap.isCall cell == kind).map heap.id =
      (entries.filter fun entry => entry.value.isCall == kind).map (·.id) := by
  have alike : List.Forall₂ (fun cell entry => heap.isCall cell = entry.value.isCall ∧
      heap.id cell = entry.id) (cellsOf count) entries := by
    refine ((List.forall₂_and_left _ _).mpr ⟨fun _ member => member, writes.entries⟩).imp ?_
    rintro cell entry ⟨member, valued, named⟩
    exact ⟨writes.isCall cell member _ valued, named⟩
  clear writes
  generalize cellsOf count = cells at alike
  induction alike with
  | nil => rfl
  | @cons cell entry cells entries both _ inductionHypothesis =>
      rw [List.filter_cons, List.filter_cons, both.1]
      split
      · rw [List.map_cons, List.map_cons, both.2, inductionHypothesis]
      · exact inductionHypothesis

theorem Writes.exists_entry (writes : heap.Writes (cellsOf count) entries) {cell : Nat}
    (inside : cell < count) :
    ∃ entry ∈ entries, heap.value cell = some entry.value ∧ heap.id cell = entry.id := by
  obtain ⟨i, bound, rfl⟩ := List.mem_iff_getElem.mp (mem_cellsOf.mpr inside)
  obtain ⟨size, each⟩ := List.forall₂_iff_get.mp writes.entries
  exact ⟨_, List.get_mem entries ⟨i, size ▸ bound⟩, each i bound (size ▸ bound)⟩

theorem Writes.sheet (writes : heap.Writes (cellsOf count) entries) (paired : Paired n entries) :
    heap.Sheet n count := by
  have calls := writes.ids true
  have returns := writes.ids false
  simp only [Bool.beq_eq_decide_eq, Bool.decide_eq_true, Bool.decide_eq_false] at calls returns
  refine ⟨calls ▸ paired.calls, returns ▸ paired.returns, ?_⟩
  intro cell inside isCall
  have member := mem_cellsOf.mpr inside
  obtain ⟨entry, _, valued, _⟩ := writes.exists_entry inside
  rw [writes.isCall cell member _ valued] at isCall
  cases value : entry.value with
  | ret output =>
      rw [value] at isCall
      cases isCall
  | call input =>
      rw [value] at valued
      obtain ⟨other, known, later, matched, named, output, returned⟩ :=
        writes.call cell member input valued
      exact ⟨other, later, input, output, matched, writes.isCall other known _ returned, named,
        valued, returned⟩

variable (sheet : heap.Sheet n count)

include sheet

theorem Sheet.unique {cell other : Nat} (inside : cell < count) (inside' : other < count)
    (kind : heap.isCall cell = heap.isCall other) (same : heap.id cell = heap.id other) :
    cell = other := by
  have injective : ∀ {cells : List Nat}, (cells.map heap.id).Perm (List.range n) →
      cell ∈ cells → other ∈ cells → cell = other := fun perm first second =>
    List.inj_on_of_nodup_map (perm.nodup_iff.mpr List.nodup_range) first second same
  cases isCall : heap.isCall cell with
  | true =>
      refine injective sheet.calls ?_ ?_
      · exact List.mem_filter.mpr ⟨mem_cellsOf.mpr inside, isCall⟩
      · exact List.mem_filter.mpr ⟨mem_cellsOf.mpr inside', kind ▸ isCall⟩
  | false =>
      refine injective sheet.returns ?_ ?_
      · exact List.mem_filter.mpr ⟨mem_cellsOf.mpr inside, by rw [isCall]; rfl⟩
      · exact List.mem_filter.mpr ⟨mem_cellsOf.mpr inside', by rw [← kind, isCall]; rfl⟩

theorem Sheet.id_lt {cell : Nat} (inside : cell < count) : heap.id cell < n := by
  cases isCall : heap.isCall cell with
  | true =>
      refine List.mem_range.mp (sheet.calls.subset (List.mem_map_of_mem ?_))
      exact List.mem_filter.mpr ⟨mem_cellsOf.mpr inside, isCall⟩
  | false =>
      refine List.mem_range.mp (sheet.returns.subset (List.mem_map_of_mem ?_))
      exact List.mem_filter.mpr ⟨mem_cellsOf.mpr inside, by rw [isCall]; rfl⟩

/-- Every operation has its call. -/
theorem Sheet.exists_call {id : Nat} (inside : id < n) :
    ∃ cell < count, heap.isCall cell = true ∧ heap.id cell = id := by
  obtain ⟨cell, member, named⟩ := List.mem_map.mp
    (sheet.calls.symm.subset (List.mem_range.mpr inside))
  obtain ⟨place, isCall⟩ := List.mem_filter.mp member
  exact ⟨cell, mem_cellsOf.mp place, isCall, named⟩

/-- A return is the match of its call. -/
theorem Sheet.exists_matching {cell : Nat} (inside : cell < count)
    (isReturn : heap.isCall cell = false) :
    ∃ call < count, cell < call ∧ heap.isCall call = true ∧ heap.matching call = some cell ∧
      heap.id call = heap.id cell := by
  obtain ⟨call, place, isCall, named⟩ := sheet.exists_call (sheet.id_lt inside)
  obtain ⟨other, later, _, _, matched, notCall, sameId, _⟩ := sheet.call call place isCall
  have same : other = cell :=
    sheet.unique (later.trans place) inside (notCall.trans isReturn.symm) (sameId.trans named)
  exact ⟨call, place, same ▸ later, isCall, same ▸ matched, named⟩

end Heap

section Start

variable {State : Type} [DecidableEq State] (model : Model State Input Output) {n : Nat}
  {entries : List (Entry Input Output)}

theorem Paired.length (paired : Paired n entries) : entries.length = 2 * n := by
  have calls := paired.calls.length_eq
  have returns := paired.returns.length_eq
  rw [List.length_map, List.length_range] at calls returns
  have both := List.length_eq_length_filter_add (l := entries) fun entry => entry.value.isCall
  omega

/-- The loop of `checkSingle` starts with all entries linked behind the head. -/
theorem startSearch_eq (paired : Paired n entries) :
    ∃ heap : Heap Input Output, heap.toLinks.Linked (cellsOf (2 * n + 1)) ∧
      heap.Writes (cellsOf (2 * n)) entries ∧
      startSearch model entries = some
        { heap
          headEntry := 2 * n
          entry := (cellsOf (2 * n)).head?
          calls := []
          linearized := newBitset n
          cache := fun _ => []
          state := model.init
          longest := List.replicate n none } := by
  have holds := holds_makeLinkedEntries paired.answered
  obtain ⟨fresh, root, first, linked, writes, -⟩ := holds
  have size := paired.length
  rw [size] at fresh root linked writes
  refine ⟨_, (linked_insertBefore none none 0 linked root first).1, writes.insertBefore _ _ _, ?_⟩
  have counted : (makeLinkedEntries entries).heap.length (2 * n + 1) (cellsOf (2 * n)).head? =
      some (2 * n) := by
    have known := Heap.length_of_linked linked (Nat.lt_succ_self _)
    rwa [length_cellsOf] at known
  simp only [startSearch, fresh, root]
  rw [counted]
  simp

end Start

end MultiRaft.Porcupine
