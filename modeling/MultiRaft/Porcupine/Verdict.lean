import MultiRaft.Lib.Linearization
import MultiRaft.Porcupine.KvModel
import MultiRaft.Porcupine.Simulation

/-!
# The verdict of `checkSingle`

The nodes that the search can reach are the partial linearizations of the history.
The loop comes to an end, it returns true exactly for the linearizable histories,
and `longest` has for each operation a longest partial linearization with it.
-/

namespace MultiRaft.Porcupine

variable {State Input Output : Type}

/-- The value of the call or of the return of an operation. -/
def valueOf (entries : List (Entry Input Output)) (isCall : Bool) (id : Nat) :
    Option (Value Input Output) :=
  (entries.find? fun entry => entry.value.isCall == isCall && entry.id == id).map (·.value)

/-- `model.Step` for an operation of the history. -/
def stepOf [DecidableEq State] (model : Model State Input Output)
    (entries : List (Entry Input Output)) (state : State) (id : Nat) : Option State :=
  match valueOf entries true id, valueOf entries false id with
  | some (.call input), some (.ret output) =>
      if (model.step state input output).1 then some (model.step state input output).2 else none
  | _, _ => none

/-- The first operation returns before the second one is called. -/
def precedes (entries : List (Entry Input Output)) (one two : Nat) : Prop :=
  ∃ ret call : Entry Input Output, [ret, call].Sublist entries ∧
    ret.value.isCall = false ∧ ret.id = one ∧ call.value.isCall = true ∧ call.id = two

/-- The operations 0, ..., n - 1 of the history can be put in a row. -/
def LinearizableEntries [DecidableEq State] (model : Model State Input Output) (n : Nat)
    (entries : List (Entry Input Output)) : Prop :=
  Linearizable (stepOf model entries) model.init (precedes entries) (List.range n)

/-- A row of some of the operations. -/
def PartialLinearization [DecidableEq State] (model : Model State Input Output) (n : Nat)
    (entries : List (Entry Input Output)) (order : List Nat) : Prop :=
  LinearizesPart (stepOf model entries) model.init (precedes entries) (List.range n) order

section Entries

variable {heap : Heap Input Output} {n count : Nat} {entries : List (Entry Input Output)}

theorem Paired.unique (paired : Paired n entries) {one two : Entry Input Output}
    (first : one ∈ entries) (second : two ∈ entries)
    (kind : one.value.isCall = two.value.isCall) (same : one.id = two.id) : one = two := by
  have injective : ∀ {part : List (Entry Input Output)}, (part.map (·.id)).Perm (List.range n) →
      one ∈ part → two ∈ part → one = two := fun perm inOne inTwo =>
    List.inj_on_of_nodup_map (perm.nodup_iff.mpr List.nodup_range) inOne inTwo same
  cases isCall : one.value.isCall with
  | true =>
      refine injective paired.calls ?_ ?_
      · exact List.mem_filter.mpr ⟨first, isCall⟩
      · exact List.mem_filter.mpr ⟨second, kind ▸ isCall⟩
  | false =>
      refine injective paired.returns ?_ ?_
      · exact List.mem_filter.mpr ⟨first, by rw [isCall]; rfl⟩
      · exact List.mem_filter.mpr ⟨second, by rw [← kind, isCall]; rfl⟩

theorem Paired.valueOf (paired : Paired n entries) {entry : Entry Input Output}
    (member : entry ∈ entries) : valueOf entries entry.value.isCall entry.id = some entry.value := by
  rw [Porcupine.valueOf]
  cases found : entries.find? fun other =>
      other.value.isCall == entry.value.isCall && other.id == entry.id with
  | none =>
      have absent := List.find?_eq_none.mp found entry member
      simp at absent
  | some other =>
      have both := List.find?_some found
      rw [Bool.and_eq_true, beq_iff_eq, beq_iff_eq] at both
      rw [paired.unique (List.mem_of_find?_eq_some found) member both.1 both.2, Option.map_some]

namespace Heap

theorem Writes.valueOf (writes : heap.Writes (cellsOf count) entries) (paired : Paired n entries)
    {cell : Nat} (inside : cell < count) {value : Value Input Output}
    (written : heap.value cell = some value) :
    valueOf entries value.isCall (heap.id cell) = some value := by
  obtain ⟨entry, member, valued, named⟩ := writes.exists_entry inside
  cases written.symm.trans valued
  rw [named]
  exact paired.valueOf member

/-- The search steps the model as the history does. -/
theorem Writes.operate_eq [DecidableEq State] (model : Model State Input Output)
    (writes : heap.Writes (cellsOf count) entries) (paired : Paired n entries) (state : State)
    {cell : Nat} (inside : cell < count) (isCall : heap.isCall cell = true) :
    heap.operate model state cell = stepOf model entries state (heap.id cell) := by
  obtain ⟨other, later, input, output, matched, _, named, called, returned⟩ :=
    (writes.sheet paired).call cell inside isCall
  have first := writes.valueOf paired inside called
  have second := writes.valueOf paired (later.trans inside) returned
  rw [named] at second
  simp only [Value.isCall] at first second
  simp only [operate, stepOf, matched, Option.bind_some, called, returned, first, second]

end Heap

/-- What is in one of two related lists in some order is in the other one in the same
order. -/
theorem forall₂_sublist {α β : Type} {R : α → β → Prop} {left : List α} {right part : List β}
    (related : List.Forall₂ R left right) (sublist : part.Sublist right) :
    ∃ part', part'.Sublist left ∧ List.Forall₂ R part' part := by
  induction sublist generalizing left with
  | slnil => exact ⟨[], List.nil_sublist _, .nil⟩
  | cons _ _ inductionHypothesis =>
      cases related with
      | cons _ rest =>
          obtain ⟨part', within, alike⟩ := inductionHypothesis rest
          exact ⟨part', within.cons _, alike⟩
  | cons_cons _ _ inductionHypothesis =>
      cases related with
      | cons first rest =>
          obtain ⟨part', within, alike⟩ := inductionHypothesis rest
          exact ⟨_ :: part', within.cons_cons _, .cons first alike⟩

theorem pair_sublist_cellsOf {one two : Nat} :
    [one, two].Sublist (cellsOf count) ↔ two < one ∧ one < count := by
  constructor
  · intro sublist
    have sorted := (pairwise_cellsOf count).sublist sublist
    refine ⟨?_, mem_cellsOf.mp (sublist.subset List.mem_cons_self)⟩
    exact (List.pairwise_cons.mp sorted).1 two (List.mem_singleton_self two)
  · rintro ⟨later, inside⟩
    induction count with
    | zero => exact absurd inside (Nat.not_lt_zero _)
    | succ count inductionHypothesis =>
        rw [cellsOf_succ]
        rcases Nat.lt_succ_iff_lt_or_eq.mp inside with smaller | rfl
        · exact (inductionHypothesis smaller).cons _
        · exact (List.singleton_sublist.mpr (mem_cellsOf.mpr later)).cons_cons _

/-- The cell of an earlier entry has the larger number. -/
theorem Heap.Writes.precedes_iff (writes : heap.Writes (cellsOf count) entries) (one two : Nat) :
    precedes entries one two ↔
      ∃ ret < count, ∃ call < ret, heap.isCall ret = false ∧ heap.id ret = one ∧
        heap.isCall call = true ∧ heap.id call = two := by
  have kinds := fun cell inside => writes.isCall cell (mem_cellsOf.mpr inside)
  constructor
  · rintro ⟨ret, call, sublist, notCall, rfl, isCall, rfl⟩
    obtain ⟨_, within, _ | ⟨⟨valued, named⟩, _ | ⟨⟨valued', named'⟩, _ | _⟩⟩⟩ :=
      forall₂_sublist writes.entries sublist
    obtain ⟨later, inside⟩ := pair_sublist_cellsOf.mp within
    refine ⟨_, inside, _, later, ?_, named, ?_, named'⟩
    · exact (kinds _ inside _ valued).trans notCall
    · exact (kinds _ (later.trans inside) _ valued').trans isCall
  · rintro ⟨ret, inside, call, later, notCall, rfl, isCall, rfl⟩
    have reversed := List.Forall₂.flip writes.entries
    obtain ⟨_, within, _ | ⟨⟨valued, named⟩, _ | ⟨⟨valued', named'⟩, _ | _⟩⟩⟩ :=
      forall₂_sublist reversed (pair_sublist_cellsOf.mpr ⟨later, inside⟩)
    refine ⟨_, _, within, ?_, named.symm, ?_, named'.symm⟩
    · exact (kinds _ inside _ valued).symm.trans notCall
    · exact (kinds _ (later.trans inside) _ valued').symm.trans isCall

end Entries

section Nodes

variable [DecidableEq State] {model : Model State Input Output} {heap : Heap Input Output}
  {n count : Nat} {entries : List (Entry Input Output)} {config : Config State} {cell : Nat}

theorem mem_takeWhile_of_sorted {p : Nat → Bool} {cells : List Nat}
    (sorted : cells.Pairwise (· > ·)) :
    cell ∈ cells.takeWhile p ↔ cell ∈ cells ∧ ∀ other ∈ cells, cell ≤ other → p other = true := by
  induction cells with
  | nil => simp
  | cons first rest inductionHypothesis =>
      obtain ⟨greatest, sortedRest⟩ := List.pairwise_cons.mp sorted
      rw [List.takeWhile_cons]
      split
      · rename_i holds
        rw [List.mem_cons, List.mem_cons, inductionHypothesis sortedRest]
        constructor
        · rintro (rfl | ⟨later, all⟩)
          · refine ⟨.inl rfl, List.forall_mem_cons.mpr ⟨fun _ => holds, ?_⟩⟩
            exact fun other member atLeast => absurd (greatest other member) (Nat.not_lt.mpr atLeast)
          · exact ⟨.inr later, List.forall_mem_cons.mpr ⟨fun _ => holds, all⟩⟩
        · rintro ⟨rfl | later, all⟩
          · exact .inl rfl
          · exact .inr ⟨later, (List.forall_mem_cons.mp all).2⟩
      · rename_i fails
        refine ⟨fun impossible => absurd impossible List.not_mem_nil, ?_⟩
        rintro ⟨member, all⟩
        refine absurd (all first List.mem_cons_self ?_) fails
        rcases List.mem_cons.mp member with rfl | later
        · exact Nat.le_refl _
        · exact Nat.le_of_lt (greatest cell later)

/-- The candidates are the calls that no operation left to linearize precedes. -/
theorem Heap.Writes.mem_candidates (writes : heap.Writes (cellsOf count) entries)
    (paired : Paired n entries) :
    cell ∈ (problem model heap count).candidates config ↔
      cell ∈ heap.rest count config.path ∧ heap.isCall cell = true ∧
        ∀ id ∈ List.range n, precedes entries id (heap.id cell) → id ∈ config.path := by
  have sheet := writes.sheet paired
  refine (mem_takeWhile_of_sorted (heap.pairwise_rest count config.path)).trans
    (and_congr_right fun member => ?_)
  obtain ⟨inside, -⟩ := Heap.mem_rest.mp member
  constructor
  · intro all
    have isCall := all cell member (Nat.le_refl _)
    refine ⟨isCall, ?_⟩
    intro id _ before
    obtain ⟨ret, bound, call, later, notCall, rfl, isCall', same⟩ :=
      (writes.precedes_iff _ _).mp before
    cases sheet.unique (later.trans bound) inside (isCall'.trans isCall.symm) same
    by_contra left
    have kind := all ret (Heap.mem_rest.mpr ⟨bound, left⟩) (Nat.le_of_lt later)
    rw [notCall] at kind
    cases kind
  · rintro ⟨isCall, least⟩ other place atLeast
    obtain ⟨bound, left⟩ := Heap.mem_rest.mp place
    by_contra notCall
    rw [Bool.not_eq_true] at notCall
    refine left (least _ (List.mem_range.mpr (sheet.id_lt bound)) ?_)
    rcases Nat.lt_or_eq_of_le atLeast with later | rfl
    · exact (writes.precedes_iff _ _).mpr ⟨other, bound, cell, later, notCall, rfl, isCall, rfl⟩
    · rw [isCall] at notCall
      cases notCall

theorem Heap.Writes.not_precedes_self (writes : heap.Writes (cellsOf count) entries)
    (paired : Paired n entries) (id : Nat) : ¬ precedes entries id id := by
  intro before
  have sheet := writes.sheet paired
  obtain ⟨ret, inside, call, later, notCall, isId, isCall, isId'⟩ :=
    (writes.precedes_iff _ _).mp before
  obtain ⟨call', bound, after, isCall', _, same⟩ := sheet.exists_matching inside notCall
  have twice := sheet.unique bound (later.trans inside) (isCall'.trans isCall.symm)
    (same.trans (isId.trans isId'.symm))
  omega

/-- The nodes of the search are the partial linearizations with the states they lead to. -/
theorem Heap.Writes.leadsTo_iff (writes : heap.Writes (cellsOf count) entries)
    (paired : Paired n entries) :
    (problem model heap count).LeadsTo ⟨[], model.init⟩ config ↔
      PartialLinearization model n entries config.path ∧
        afterAll (stepOf model entries) model.init config.path = some config.state := by
  have sheet := writes.sheet paired
  constructor
  · intro leads
    induction leads with
    | refl => exact ⟨linearizesPart_nil _ _ _ _, rfl⟩
    | tail _ offered child inductionHypothesis =>
        obtain ⟨part, reached⟩ := inductionHypothesis
        obtain ⟨member, isCall, least⟩ := (writes.mem_candidates paired).mp offered
        obtain ⟨-, state, operated, rfl⟩ := child_eq_some.mp child
        obtain ⟨inside, fresh⟩ := Heap.mem_rest.mp member
        rw [writes.operate_eq model paired _ inside isCall] at operated
        refine ⟨part.concat fresh (List.mem_range.mpr (sheet.id_lt inside)) least reached operated,
          ?_⟩
        rw [afterAll_append, reached]
        simp [afterAll, operated]
  · obtain ⟨path, state⟩ := config
    rintro ⟨part, reached⟩
    induction path using List.reverseRecOn generalizing state with
    | nil =>
        cases reached
        exact .refl _
    | append_singleton path id inductionHypothesis =>
        have before : PartialLinearization model n entries path := part.initial
        rw [afterAll_append] at reached
        obtain ⟨middle, reachedPath, last⟩ := Option.bind_eq_some_iff.mp reached
        have stepped : stepOf model entries middle id = some state := by
          simpa [afterAll] using last
        have inside : id < n := List.mem_range.mp (part.subset (by simp))
        have fresh : id ∉ path := by
          intro member
          have nodup := part.nodup
          rw [List.nodup_append] at nodup
          exact nodup.2.2 id member id (List.mem_singleton_self id) rfl
        obtain ⟨cell, bound, isCall, rfl⟩ := sheet.exists_call inside
        have member := Heap.mem_rest.mpr ⟨bound, fresh⟩
        refine .tail (inductionHypothesis middle before reachedPath)
          ((writes.mem_candidates paired).mpr ⟨member, isCall, ?_⟩)
          (child_eq_some.mpr ⟨member, state, ?_, rfl⟩)
        · intro other known earlier
          exact part.least known (writes.not_precedes_self paired _) earlier
        · rw [writes.operate_eq model paired _ bound isCall]
          exact stepped

theorem goal_iff (sheet : heap.Sheet n count) :
    (problem model heap count).goal config = true ↔ List.range n ⊆ config.path := by
  rw [show (problem model heap count).goal config = (heap.rest count config.path).isEmpty from rfl,
    List.isEmpty_iff, List.eq_nil_iff_forall_not_mem]
  constructor
  · intro none id member
    obtain ⟨cell, inside, _, rfl⟩ := sheet.exists_call (List.mem_range.mp member)
    by_contra left
    exact none cell (Heap.mem_rest.mpr ⟨inside, left⟩)
  · intro all cell member
    obtain ⟨inside, left⟩ := Heap.mem_rest.mp member
    exact left (all (List.mem_range.mpr (sheet.id_lt inside)))

/-- A goal can be reached exactly in a linearizable history. -/
theorem Heap.Writes.linearizable_iff (writes : heap.Writes (cellsOf count) entries)
    (paired : Paired n entries) :
    LinearizableEntries model n entries ↔
      ∃ config, (problem model heap count).LeadsTo ⟨[], model.init⟩ config ∧
        (problem model heap count).goal config = true := by
  have sheet := writes.sheet paired
  constructor
  · rintro ⟨order, linearizes⟩
    obtain ⟨state, reached⟩ := Option.isSome_iff_exists.mp linearizes.legal
    refine ⟨⟨order, state⟩, (writes.leadsTo_iff paired).mpr ⟨?_, reached⟩, (goal_iff sheet).mpr ?_⟩
    · exact linearizes.part List.nodup_range
    · exact linearizes.perm.symm.subset
  · rintro ⟨config, leads, goal⟩
    obtain ⟨part, -⟩ := (writes.leadsTo_iff paired).mp leads
    exact ⟨config.path, part.whole List.nodup_range ((goal_iff sheet).mp goal)⟩

end Nodes

section Longest

/-- A record for some ids at the cost of no longer one. -/
structure Improves (seq ids : List Nat) (longest next : Longest) : Prop where
  source : ∀ (id : Nat) (known : List Nat), next[id]? = some (some known) →
    longest[id]? = some (some known) ∨ known = seq ∧ id ∈ ids
  kept : ∀ (id : Nat) (known : List Nat), longest[id]? = some (some known) →
    ∃ better : List Nat, next[id]? = some (some better) ∧ known.length ≤ better.length
  noted : ∀ id ∈ ids, ∃ known : List Nat, next[id]? = some (some known) ∧ seq.length ≤ known.length

theorem improves_refl (seq : List Nat) (longest : Longest) : Improves seq [] longest longest where
  source _ _ known := .inl known
  kept _ known isKnown := ⟨known, isKnown, Nat.le_refl _⟩
  noted := List.forall_mem_nil _

theorem Improves.trans {seq ids more : List Nat} {longest middle next : Longest}
    (first : Improves seq ids longest middle) (second : Improves seq more middle next) :
    Improves seq (ids ++ more) longest next where
  source id known isKnown := by
    rcases second.source id known isKnown with earlier | ⟨isSeq, member⟩
    · exact (first.source id known earlier).imp_right
        fun both => ⟨both.1, List.mem_append_left _ both.2⟩
    · exact .inr ⟨isSeq, List.mem_append_right _ member⟩
  kept id known isKnown := by
    obtain ⟨better, isBetter, shorter⟩ := first.kept id known isKnown
    obtain ⟨best, isBest, shorter'⟩ := second.kept id better isBetter
    exact ⟨best, isBest, shorter.trans shorter'⟩
  noted id member := by
    rcases List.mem_append.mp member with early | late
    · obtain ⟨known, isKnown, shorter⟩ := first.noted id early
      obtain ⟨best, isBest, shorter'⟩ := second.kept id known isKnown
      exact ⟨best, isBest, shorter.trans shorter'⟩
    · exact second.noted id late

theorem improves_noteLongest {seq : List Nat} {longest next : Longest} {id : Nat}
    (noted : noteLongest seq longest id = some next) : Improves seq [id] longest next := by
  obtain ⟨known, isKnown, rest⟩ := Option.bind_eq_some_iff.mp noted
  have inside : id < longest.length := (List.getElem?_eq_some_iff.mp isKnown).1
  split at rest
  · rename_i shorter
    cases rest
    have here : (longest.set id (some seq))[id]? = some (some seq) := by
      simp [inside]
    have there : ∀ other, other ≠ id → (longest.set id (some seq))[other]? = longest[other]? :=
      fun other apart => List.getElem?_set_ne apart.symm
    refine ⟨?_, ?_, ?_⟩
    · intro other seq' isSeq
      by_cases same : other = id
      · subst same
        cases here.symm.trans isSeq
        exact .inr ⟨rfl, List.mem_singleton_self _⟩
      · exact .inl ((there other same).symm.trans isSeq)
    · intro other old isOld
      by_cases same : other = id
      · subst same
        cases isOld.symm.trans isKnown
        exact ⟨seq, here, Nat.le_of_lt (of_decide_eq_true shorter)⟩
      · exact ⟨old, (there other same).trans isOld, Nat.le_refl _⟩
    · exact List.forall_mem_singleton.mpr ⟨seq, here, Nat.le_refl _⟩
  · rename_i longer
    cases rest
    refine ⟨fun _ _ old => .inl old, fun _ old isOld => ⟨old, isOld, Nat.le_refl _⟩, ?_⟩
    cases known with
    | none => exact absurd rfl longer
    | some known =>
        refine List.forall_mem_singleton.mpr ⟨known, isKnown, ?_⟩
        simpa using longer

theorem improves_foldlM {seq ids : List Nat} {longest next : Longest}
    (noted : ids.foldlM (noteLongest seq) longest = some next) : Improves seq ids longest next := by
  induction ids generalizing longest with
  | nil =>
      cases noted
      exact improves_refl seq _
  | cons id rest inductionHypothesis =>
      rw [List.foldlM_cons] at noted
      obtain ⟨middle, first, others⟩ := Option.bind_eq_some_iff.mp noted
      exact (improves_noteLongest first).trans (inductionHypothesis others)

/-- For each operation a longest one of the finished sequences with it. -/
structure Records (finished : List (List Nat)) (longest : Longest) : Prop where
  sound : ∀ (id : Nat) (seq : List Nat), longest[id]? = some (some seq) → seq ∈ finished ∧ id ∈ seq
  best : ∀ seq ∈ finished, ∀ id ∈ seq,
    ∃ known : List Nat, longest[id]? = some (some known) ∧ seq.length ≤ known.length

theorem records_noted {n : Nat} {finished : List (Config State)} {longest : Longest}
    (isNoted : noted true n finished = some longest) : Records (finished.map (·.path)) longest := by
  induction finished generalizing longest with
  | nil =>
      cases isNoted
      refine ⟨?_, List.forall_mem_nil _⟩
      intro id seq recorded
      rw [List.getElem?_replicate] at recorded
      split at recorded <;> cases recorded
  | cons config rest inductionHypothesis =>
      obtain ⟨before, isBefore, after⟩ := Option.bind_eq_some_iff.mp isNoted
      have records := inductionHypothesis isBefore
      have improves := improves_foldlM after
      rw [List.map_cons]
      refine ⟨?_, List.forall_mem_cons.mpr ⟨improves.noted, ?_⟩⟩
      · intro id seq recorded
        rcases improves.source id seq recorded with old | ⟨rfl, member⟩
        · obtain ⟨done, member⟩ := records.sound id seq old
          exact ⟨List.mem_cons_of_mem _ done, member⟩
        · exact ⟨List.mem_cons_self, member⟩
      · intro seq done id member
        obtain ⟨known, isKnown, shorter⟩ := records.best seq done id member
        obtain ⟨better, isBetter, shorter'⟩ := improves.kept id known isKnown
        exact ⟨better, isBetter, shorter.trans shorter'⟩

end Longest

section Verdict

variable [DecidableEq State] {model : Model State Input Output} {n : Nat}
  {entries : List (Entry Input Output)}

/-- A run of `checkSingle` is a whole search. -/
theorem checkSingle_run (model : Model State Input Output) (paired : Paired n entries)
    (computePartial : Bool) :
    ∃ (heap : Heap Input Output) (last : DepthFirst (Config State) Nat) (verdict : Bool)
      (longest : Longest) (fuel : Nat), heap.Writes (cellsOf (2 * n)) entries ∧
        (problem model heap (2 * n)).Steps
          ((problem model heap (2 * n)).start ⟨[], model.init⟩) last ∧
        (problem model heap (2 * n)).step last = .inr verdict ∧
        Returns computePartial n last (verdict, longest) ∧
        ∀ more ≥ fuel, checkSingle model more entries computePartial = some (verdict, longest) := by
  obtain ⟨heap, linked, writes, started⟩ := startSearch_eq model paired
  obtain ⟨last, verdict, steps, ends⟩ :=
    (problem model heap (2 * n)).steps_to_verdict ⟨[], model.init⟩
  have follows : Follows model heap n (2 * n) computePartial _ _ :=
    follows_start linked (Bitset.holds_new n)
  obtain ⟨fuel, longest, ended, returns⟩ := follows.run (writes.sheet paired) steps ends
  refine ⟨heap, last, verdict, longest, fuel, writes, steps, ends, returns, ?_⟩
  intro more enough
  rw [checkSingle, started, Option.bind_some]
  induction more, enough using Nat.le_induction with
  | base => exact ended
  | succ more _ inductionHypothesis => exact checkLoop_more inductionHypothesis

/-- What `longest` has for an operation: a partial linearization with the operation that no
other one exceeds, and nil if there is none. -/
structure LongestWith (model : Model State Input Output) (n : Nat)
    (entries : List (Entry Input Output)) (id : Nat) (known : Option (List Nat)) : Prop where
  sound : ∀ seq, known = some seq → PartialLinearization model n entries seq ∧ id ∈ seq
  best : ∀ order, PartialLinearization model n entries order → id ∈ order →
    ∃ seq, known = some seq ∧ order.length ≤ seq.length

section Ends

variable {heap : Heap Input Output} {last : DepthFirst (Config State) Nat} {longest : Longest}

/-- A whole linearization is a longest one for every operation. -/
theorem longestWith_of_goal (writes : heap.Writes (cellsOf (2 * n)) entries)
    (paired : Paired n entries) {config : Config State}
    (leads : (problem model heap (2 * n)).LeadsTo ⟨[], model.init⟩ config)
    (goal : (problem model heap (2 * n)).goal config = true) {id : Nat} (inside : id < n) :
    LongestWith model n entries id (some config.path) := by
  obtain ⟨part, -⟩ := (writes.leadsTo_iff paired).mp leads
  have all := (goal_iff (writes.sheet paired)).mp goal
  refine ⟨?_, ?_⟩
  · intro seq isSeq
    cases isSeq
    exact ⟨part, all (List.mem_range.mpr inside)⟩
  · intro order other _
    exact ⟨_, rfl, (List.subperm_of_subset other.nodup
      (List.Subset.trans other.subset all)).length_le⟩

/-- Without a goal the finished nodes are all there is, up to the order of their operations. -/
theorem longestWith_of_covered (laws : model.EqualLaws)
    (writes : heap.Writes (cellsOf (2 * n)) entries) (paired : Paired n entries)
    (sound : (problem model heap (2 * n)).Sound ⟨[], model.init⟩ last) (empty : last.stack = [])
    (records : Records (last.finished.map (·.path)) longest) {id : Nat}
    {known : Option (List Nat)} (isKnown : longest[id]? = some known) :
    LongestWith model n entries id known := by
  refine ⟨?_, ?_⟩
  · rintro seq rfl
    obtain ⟨done, member⟩ := records.sound id seq isKnown
    obtain ⟨config, finished, rfl⟩ := List.mem_map.mp done
    have leads := (sound.closed config finished).2.reached
    exact ⟨((writes.leadsTo_iff paired).mp leads).1, member⟩
  · intro order part member
    obtain ⟨state, after⟩ := Option.isSome_iff_exists.mp part.legal
    have leads : (problem model heap (2 * n)).LeadsTo ⟨[], model.init⟩ ⟨order, state⟩ :=
      (writes.leadsTo_iff paired).mpr ⟨part, after⟩
    obtain ⟨config, done, same⟩ := sound.covered (sameLaws laws) empty leads
    have paths := (same_iff.mp same).1
    obtain ⟨seq, recorded, shorter⟩ := records.best config.path (List.mem_map_of_mem done) id
      ((paths id).mp member)
    cases isKnown.symm.trans recorded
    refine ⟨seq, rfl, Nat.le_trans ?_ shorter⟩
    exact (List.subperm_of_subset part.nodup fun other => (paths other).mp).length_le

end Ends

/-- What `checkSingle` comes to. -/
structure Checked (model : Model State Input Output) (n : Nat) (entries : List (Entry Input Output))
    (computePartial verdict : Bool) (longest : Longest) : Prop where
  result : ∃ fuel, ∀ more ≥ fuel,
    checkSingle model more entries computePartial = some (verdict, longest)
  verdict_iff : verdict = true ↔ LinearizableEntries model n entries
  length : longest.length = n
  longest : computePartial = true →
    ∀ id known, longest[id]? = some known → LongestWith model n entries id known

theorem exists_checked (laws : model.EqualLaws) (paired : Paired n entries)
    (computePartial : Bool) :
    ∃ verdict longest, Checked model n entries computePartial verdict longest := by
  obtain ⟨heap, last, verdict, longest, fuel, writes, steps, ends, returns, result⟩ :=
    checkSingle_run model paired computePartial
  have sound := ((problem model heap (2 * n)).sound_start _).steps (sameLaws laws) steps
  have verdict_iff : verdict = true ↔ LinearizableEntries model n entries := by
    rw [sound.verdict_iff (sameLaws laws) ends, writes.linearizable_iff paired]
  refine ⟨verdict, longest, ⟨fuel, result⟩, verdict_iff, ?_, ?_⟩
  · cases verdict with
    | true =>
        obtain ⟨_, _, _, _, rfl⟩ := returns
        exact List.length_replicate
    | false =>
        refine length_noted returns fun config done id member => ?_
        have part := ((writes.leadsTo_iff paired).mp (sound.closed config done).2.reached).1
        exact List.mem_range.mp (part.subset member)
  · rintro rfl id known isKnown
    rcases SearchProblem.verdict_cases ends with ⟨rfl, node, untried, below, top, goal⟩ |
      ⟨rfl, empty⟩
    · obtain ⟨config, _, _, stack, rfl⟩ := returns
      cases top.symm.trans stack
      have leads := (sound.frames _ (stack ▸ List.mem_cons_self)).reached
      rw [List.getElem?_replicate] at isKnown
      split at isKnown
      · cases isKnown
        exact longestWith_of_goal writes paired leads goal (by assumption)
      · cases isKnown
    · exact longestWith_of_covered laws writes paired sound empty (records_noted returns) isKnown

/-- `checkSingle` returns on every history of whole operations, and it returns true exactly
if the history is linearizable. -/
theorem checkSingle_iff_linearizable (model : Model State Input Output) (laws : model.EqualLaws)
    (paired : Paired n entries) (computePartial : Bool) :
    ∃ verdict longest fuel,
      (∀ more ≥ fuel, checkSingle model more entries computePartial = some (verdict, longest)) ∧
        (verdict = true ↔ LinearizableEntries model n entries) := by
  obtain ⟨verdict, longest, checked⟩ := exists_checked laws paired computePartial
  obtain ⟨fuel, result⟩ := checked.result
  exact ⟨verdict, longest, fuel, result, checked.verdict_iff⟩

/-- A get that sees the value of a put during it. -/
def overlapping : List (Entry KvInput KvOutput) :=
  [⟨.call ⟨0, "x", ""⟩, 0, 1, 0⟩, ⟨.call ⟨1, "x", "1"⟩, 1, 3, 1⟩, ⟨.ret ⟨""⟩, 1, 21, 1⟩,
    ⟨.ret ⟨"1"⟩, 0, 22, 0⟩]

theorem paired_overlapping : Paired 2 overlapping := by
  refine ⟨by simp [overlapping, Answered, Value.isCall], ?_, ?_⟩
  · exact .refl _
  · exact .swap 0 1 []

theorem checkSingle_iff_linearizable_overlapping :
    Paired 2 overlapping ∧ kvModel.EqualLaws ∧ ∃ verdict longest fuel,
      (∀ more ≥ fuel, checkSingle kvModel more overlapping true = some (verdict, longest)) ∧
        (verdict = true ↔ LinearizableEntries kvModel 2 overlapping) :=
  ⟨paired_overlapping, kvModel.equalLaws_shallow rfl,
    checkSingle_iff_linearizable kvModel (kvModel.equalLaws_shallow rfl) paired_overlapping true⟩

/-- With `computePartial` the returned sequences are the longest ones, whatever the verdict
is. -/
theorem checkSingle_longest (model : Model State Input Output) (laws : model.EqualLaws)
    (paired : Paired n entries) :
    ∃ verdict longest fuel,
      (∀ more ≥ fuel, checkSingle model more entries true = some (verdict, longest)) ∧
        longest.length = n ∧
        ∀ id known, longest[id]? = some known → LongestWith model n entries id known := by
  obtain ⟨verdict, longest, checked⟩ := exists_checked laws paired true
  obtain ⟨fuel, result⟩ := checked.result
  exact ⟨verdict, longest, fuel, result, checked.length, checked.longest rfl⟩

theorem checkSingle_longest_overlapping :
    Paired 2 overlapping ∧ kvModel.EqualLaws ∧ ∃ verdict longest fuel,
      (∀ more ≥ fuel, checkSingle kvModel more overlapping true = some (verdict, longest)) ∧
        longest.length = 2 ∧
        ∀ id known, longest[id]? = some known → LongestWith kvModel 2 overlapping id known :=
  ⟨paired_overlapping, kvModel.equalLaws_shallow rfl,
    checkSingle_longest kvModel (kvModel.equalLaws_shallow rfl) paired_overlapping⟩

end Verdict

end MultiRaft.Porcupine
