import Mathlib.Data.List.TakeWhile
import MultiRaft.Porcupine.Search

/-!
# The loop of `checkSingle` takes the steps of the search
-/

namespace MultiRaft.Porcupine

variable {State Input Output : Type} {heap : Heap Input Output} {n count : Nat}

section Positions

variable [DecidableEq State] {model : Model State Input Output} {config : Config State} {front untried : List Nat} {cell : Nat}

/-- The cells from a candidate on, the rest behind the candidates included. -/
def ahead (heap : Heap Input Output) (count : Nat) (config : Config State) (untried : List Nat) :
    List Nat :=
  untried ++ (heap.rest count config.path).dropWhile heap.isCall

theorem rest_eq (candidates : (problem model heap count).candidates config = front ++ untried) :
    heap.rest count config.path = front ++ ahead heap count config untried := by
  rw [ahead, ← List.append_assoc, ← candidates]
  exact (List.takeWhile_append_dropWhile).symm

theorem isCall_of_candidate
    (candidates : (problem model heap count).candidates config = front ++ cell :: untried) :
    cell ∈ heap.rest count config.path ∧ heap.isCall cell = true := by
  have member : cell ∈ (problem model heap count).candidates config := by
    rw [candidates]
    exact List.mem_append_right _ List.mem_cons_self
  exact ⟨List.takeWhile_subset _ member, List.mem_takeWhile_imp member⟩

/-- The cell behind a candidate. -/
theorem next_of_candidate {links : Links Nat}
    (linked : links.Linked (count :: heap.rest count config.path))
    (candidates : (problem model heap count).candidates config = front ++ cell :: untried) :
    links.next cell = (ahead heap count config untried).head? := by
  rw [rest_eq candidates, ahead, List.cons_append, ← List.cons_append] at linked
  exact linked.next

/-- Behind the candidates comes a return, as long as some operation is not linearized. -/
theorem Heap.Sheet.ahead_nil (sheet : heap.Sheet n count) (config : Config State)
    (unfit : (problem model heap count).goal config = false) :
    ∃ cell, (ahead heap count config []).head? = some cell ∧ heap.matching cell = none := by
  have nonempty : heap.rest count config.path ≠ [] := by
    intro empty
    simp [problem, empty] at unfit
  obtain ⟨cell, member⟩ := List.exists_mem_of_ne_nil _ nonempty
  have isReturn : ∃ other ∈ heap.rest count config.path, heap.isCall other = false := by
    cases kind : heap.isCall cell with
    | false => exact ⟨cell, member, kind⟩
    | true =>
        obtain ⟨inside, unused⟩ := Heap.mem_rest.mp member
        obtain ⟨other, later, _, _, _, notCall, named, _⟩ := sheet.call cell inside kind
        exact ⟨other, Heap.mem_rest.mpr ⟨later.trans inside, named ▸ unused⟩, notCall⟩
  have stays : (heap.rest count config.path).dropWhile heap.isCall ≠ [] := by
    intro empty
    obtain ⟨other, place, notCall⟩ := isReturn
    have all := List.dropWhile_eq_nil_iff.mp empty other place
    rw [notCall] at all
    cases all
  obtain ⟨first, others, eq⟩ := List.exists_cons_of_ne_nil stays
  refine ⟨first, by rw [ahead, eq]; rfl, ?_⟩
  have notCall := List.head_dropWhile_not heap.isCall stays
  simp only [eq, List.head_cons] at notCall
  simpa [Heap.isCall] using notCall

end Positions

/-- The cache holds the remembered nodes, each under the hash of its bitset. -/
structure Cached (n : Nat) (cache : BitVec 64 → List (CacheEntry State))
    (memo : List (Config State)) : Prop where
  sound : ∀ hash, ∀ entry ∈ cache hash, hash = entry.linearized.hash ∧
    ∃ known ∈ memo, entry.linearized.Holds n known.path ∧ entry.state = known.state
  complete : ∀ known ∈ memo, ∃ entry : CacheEntry State, entry ∈ cache entry.linearized.hash ∧
    entry.linearized.Holds n known.path ∧ entry.state = known.state

section Cache

variable {cache : BitVec 64 → List (CacheEntry State)} {memo : List (Config State)}
  {config : Config State} {linearized : Bitset}

theorem cached_empty : Cached n (fun _ => ([] : List (CacheEntry State))) [] where
  sound _ := List.forall_mem_nil _
  complete := List.forall_mem_nil _

/-- The test of the cache is the test of the memo. -/
theorem Cached.contains [DecidableEq State] (cached : Cached n cache memo)
    (model : Model State Input Output) (heap : Heap Input Output) (count : Nat)
    (config : Config State) (holds : linearized.Holds n config.path) :
    cacheContains model cache ⟨linearized, config.state⟩ =
      memo.any ((problem model heap count).same config) := by
  rw [Bool.eq_iff_iff, cacheContains, List.any_eq_true, List.any_eq_true]
  constructor
  · rintro ⟨entry, member, both⟩
    obtain ⟨equals, equal⟩ := Bool.and_eq_true_iff.mp both
    obtain ⟨-, known, inMemo, represents, state⟩ := cached.sound _ entry member
    rw [Bitset.equals_iff] at equals
    refine ⟨known, inMemo, same_iff.mpr ⟨?_, state ▸ equal⟩⟩
    exact (holds.ext represents).mp equals
  · rintro ⟨known, inMemo, same⟩
    obtain ⟨paths, equal⟩ := same_iff.mp same
    obtain ⟨entry, member, represents, state⟩ := cached.complete known inMemo
    have equals := (holds.ext represents).mpr paths
    refine ⟨entry, equals ▸ member, Bool.and_eq_true_iff.mpr ⟨?_, state ▸ equal⟩⟩
    exact Bitset.equals_iff.mpr equals

theorem Cached.insert (cached : Cached n cache memo) (config : Config State)
    (holds : linearized.Holds n config.path) :
    Cached n (Function.update cache linearized.hash
      (cache linearized.hash ++ [⟨linearized, config.state⟩])) (config :: memo) := by
  refine ⟨?_, ?_⟩
  · intro hash entry member
    have known : entry ∈ cache hash ∨ hash = linearized.hash ∧ entry = ⟨linearized, config.state⟩ := by
      by_cases same : hash = linearized.hash
      · subst same
        rw [Function.update_self] at member
        rcases List.mem_append.mp member with old | new
        · exact .inl old
        · exact .inr ⟨rfl, List.mem_singleton.mp new⟩
      · rw [Function.update_of_ne same] at member
        exact .inl member
    rcases known with old | ⟨rfl, rfl⟩
    · obtain ⟨hashed, known, inMemo, rest⟩ := cached.sound hash entry old
      exact ⟨hashed, known, List.mem_cons_of_mem _ inMemo, rest⟩
    · exact ⟨rfl, config, List.mem_cons_self, holds, rfl⟩
  · intro known member
    rcases List.mem_cons.mp member with rfl | old
    · refine ⟨⟨linearized, known.state⟩, ?_, holds, rfl⟩
      rw [Function.update_self]
      exact List.mem_append_right _ (List.mem_singleton_self _)
    · obtain ⟨entry, place, rest⟩ := cached.complete known old
      refine ⟨entry, ?_, rest⟩
      by_cases same : entry.linearized.hash = linearized.hash
      · rw [same, Function.update_self]
        exact List.mem_append_left _ (same ▸ place)
      · rwa [Function.update_of_ne same]

end Cache

/-- What the finished nodes leave in `longest`, the last one first. -/
def noted (computePartial : Bool) (n : Nat) : List (Config State) → Option Longest
  | [] => some (List.replicate n none)
  | config :: finished =>
      (noted computePartial n finished).bind (noteSeq computePartial config.path)

variable {longest : Longest}

theorem noteLongest_spec (seq : List Nat) {id : Nat} (inside : id < longest.length) :
    ∃ next, noteLongest seq longest id = some next ∧ next.length = longest.length := by
  simp only [noteLongest, List.getElem?_eq_getElem inside, Option.bind_eq_bind, Option.bind_some]
  split
  · exact ⟨_, rfl, List.length_set⟩
  · exact ⟨_, rfl, rfl⟩

theorem foldlM_noteLongest (seq : List Nat) {ids : List Nat}
    (inside : ∀ id ∈ ids, id < longest.length) :
    ∃ next, ids.foldlM (noteLongest seq) longest = some next ∧ next.length = longest.length := by
  induction ids generalizing longest with
  | nil => exact ⟨longest, rfl, rfl⟩
  | cons id rest inductionHypothesis =>
      obtain ⟨middle, stepped, size⟩ := noteLongest_spec seq (inside id List.mem_cons_self)
      rw [← size] at inside
      obtain ⟨next, folded, size'⟩ := inductionHypothesis
        fun other member => inside other (List.mem_cons_of_mem _ member)
      refine ⟨next, ?_, size'.trans size⟩
      rw [List.foldlM_cons, stepped]
      exact folded

theorem noteSeq_spec (computePartial : Bool) {seq : List Nat}
    (inside : ∀ id ∈ seq, id < longest.length) :
    ∃ next, noteSeq computePartial seq longest = some next ∧ next.length = longest.length := by
  rw [noteSeq]
  split
  · exact foldlM_noteLongest seq inside
  · exact ⟨longest, rfl, rfl⟩

theorem noteSeq_nil (computePartial : Bool) (longest : Longest) :
    noteSeq computePartial [] longest = some longest := by
  cases computePartial <;> rfl

theorem length_noted {computePartial : Bool} {finished : List (Config State)}
    (isNoted : noted computePartial n finished = some longest)
    (inside : ∀ config ∈ finished, ∀ id ∈ config.path, id < n) : longest.length = n := by
  induction finished generalizing longest with
  | nil =>
      cases isNoted
      exact List.length_replicate
  | cons config rest inductionHypothesis =>
      rw [noted] at isNoted
      obtain ⟨before, isBefore, after⟩ := Option.bind_eq_some_iff.mp isNoted
      have size := inductionHypothesis isBefore
        fun other member => inside other (List.mem_cons_of_mem _ member)
      have bounded := inside config List.mem_cons_self
      rw [← size] at bounded
      obtain ⟨next, isNext, size'⟩ := noteSeq_spec computePartial bounded
      cases after.symm.trans isNext
      exact size'.trans size

section Loop

variable [DecidableEq State] {model : Model State Input Output} {links : Links Nat}
  {calls : List (CallsEntry State)} {below : List (Config State × List Nat)}
  {config : Config State} {computePartial : Bool}

/-- The calls below a node of the search, with the links that each of them restores when
it is put back. -/
inductive Stacked (model : Model State Input Output) (heap : Heap Input Output) (count : Nat) :
    Links Nat → List (CallsEntry State) → List (Config State × List Nat) → Config State → Prop
  | root {links : Links Nat} (linked : links.Linked (count :: heap.rest count [])) :
      Stacked model heap count links [] [] ⟨[], model.init⟩
  | call {links less : Links Nat} {calls : List (CallsEntry State)}
      {below : List (Config State × List Nat)} {config next : Config State} {cell : Nat}
      {front untried : List Nat} (under : Stacked model heap count links calls below config)
      (candidates : (problem model heap count).candidates config = front ++ cell :: untried)
      (child : (problem model heap count).child config cell = some next)
      (linked : less.Linked (count :: heap.rest count next.path))
      (unlift : (heap.withLinks less).unlift cell = some (heap.withLinks links)) :
      Stacked model heap count less (⟨cell, config.state⟩ :: calls) ((config, untried) :: below) next

theorem Stacked.linked (stacked : Stacked model heap count links calls below config) :
    links.Linked (count :: heap.rest count config.path) := by
  cases stacked with
  | root linked => exact linked
  | call _ _ _ linked _ => exact linked

theorem Stacked.path (stacked : Stacked model heap count links calls below config) :
    config.path = (calls.map fun call => heap.id call.entry).reverse := by
  induction stacked with
  | root => rfl
  | call _ _ child _ _ inductionHypothesis =>
      obtain ⟨_, _, _, rfl⟩ := child_eq_some.mp child
      rw [List.map_cons, List.reverse_cons, ← inductionHypothesis]

theorem Stacked.path_lt (sheet : heap.Sheet n count)
    (stacked : Stacked model heap count links calls below config) : ∀ id ∈ config.path, id < n := by
  induction stacked with
  | root => exact List.forall_mem_nil _
  | call _ _ child _ _ inductionHypothesis =>
      obtain ⟨member, _, _, rfl⟩ := child_eq_some.mp child
      intro id place
      rcases List.mem_append.mp place with earlier | last
      · exact inductionHypothesis id earlier
      · rw [List.mem_singleton.mp last]
        exact sheet.id_lt (Heap.mem_rest.mp member).1

/-- The variables of the loop are those of the search. -/
structure Follows (model : Model State Input Output) (heap : Heap Input Output) (n count : Nat)
    (computePartial : Bool) (search : Search State Input Output)
    (dfs : DepthFirst (Config State) Nat) : Prop where
  head : search.headEntry = count
  frames : ∃ links config untried below front, search.heap = heap.withLinks links ∧
    dfs.stack = (config, untried) :: below ∧
    Stacked model heap count links search.calls below config ∧
    (problem model heap count).candidates config = front ++ untried ∧
    search.state = config.state ∧ search.linearized.Holds n config.path ∧
    search.entry = (ahead heap count config untried).head?
  cached : Cached n search.cache dfs.memo
  longest : noted computePartial n dfs.finished = some search.longest
  bounded : ∀ config ∈ dfs.finished, ∀ id ∈ config.path, id < n

section Steps

variable {search : Search State Input Output} {dfs next : DepthFirst (Config State) Nat}
  {untried front : List Nat} {cell : Nat}

/-- The loop has an entry behind its head as long as an operation is left. -/
theorem Stacked.next_head (stacked : Stacked model heap count links calls below config) :
    links.next count = (heap.rest count config.path).head? := by
  have linked := stacked.linked
  rw [← List.nil_append (count :: _)] at linked
  exact linked.next

theorem next_head_of_unfit (stacked : Stacked model heap count links calls below config)
    (unfit : (problem model heap count).goal config = false) :
    ∃ first, links.next count = some first := by
  rw [stacked.next_head]
  cases rest : heap.rest count config.path with
  | nil => simp [problem, rest] at unfit
  | cons first others => exact ⟨first, rfl⟩

/-- A call entry is tried with the value of its match. -/
theorem step_call (computePartial : Bool) (sheet : heap.Sheet n count)
    (stacked : Stacked model heap count links calls below config)
    (unfit : (problem model heap count).goal config = false)
    (candidates : (problem model heap count).candidates config = front ++ cell :: untried)
    (head : search.headEntry = count) (isHeap : search.heap = heap.withLinks links)
    (entry : search.entry = some cell) :
    ∃ input output, search.step model computePartial false =
        (search.tryCall model cell input output).map .inl ∧
      (∀ state, heap.operate model state cell =
        if (model.step state input output).1 then some (model.step state input output).2
        else none) := by
  obtain ⟨member, isCall⟩ := isCall_of_candidate candidates
  obtain ⟨first, behind⟩ := next_head_of_unfit stacked unfit
  obtain ⟨other, _, input, output, matched, _, _, called, returned⟩ :=
    sheet.call cell (Heap.mem_rest.mp member).1 isCall
  refine ⟨input, output, ?_, ?_⟩
  · simp [Search.step, head, isHeap, behind, entry, matched, called, returned]
  · intro state
    simp [Heap.operate, matched, called, returned]

/-- The bitset with the operation of the cell added. -/
theorem set_candidate (sheet : heap.Sheet n count) {linearized : Bitset}
    (holds : linearized.Holds n config.path)
    (candidates : (problem model heap count).candidates config = front ++ cell :: untried) :
    ∃ next, linearized.set (heap.id cell) = some next ∧
      next.Holds n (config.path ++ [heap.id cell]) := by
  have inside := (Heap.mem_rest.mp (isCall_of_candidate candidates).1).1
  obtain ⟨next, set, holds'⟩ := holds.set (sheet.id_lt inside)
  refine ⟨next, set, holds'.congr fun pos => ?_⟩
  rw [List.mem_cons, List.mem_append, List.mem_singleton]
  exact or_comm

/-- The bitset with the operation of the cell taken out again. -/
theorem clear_last (sheet : heap.Sheet n count) {linearized : Bitset} {path : List Nat}
    (holds : linearized.Holds n (path ++ [heap.id cell])) (member : cell ∈ heap.rest count path) :
    ∃ next, linearized.clear (heap.id cell) = some next ∧ next.Holds n path := by
  obtain ⟨inside, fresh⟩ := Heap.mem_rest.mp member
  refine (holds.congr fun pos => ?_).clear (sheet.id_lt inside) fresh
  rw [List.mem_cons, List.mem_append, List.mem_singleton]
  exact or_comm

variable {memo finished : List (Config State)}

/-- A candidate that leads to nothing new is passed over. -/
theorem Follows.drop (follows : Follows model heap n count computePartial search
      ⟨(config, cell :: untried) :: below, memo, finished⟩)
    (sheet : heap.Sheet n count) (unfit : (problem model heap count).goal config = false)
    (settled : ∀ child, (problem model heap count).child config cell = some child →
      memo.any ((problem model heap count).same child) = true) :
    ∃ search', search.step model computePartial false = some (.inl search') ∧
      Follows model heap n count computePartial search'
        ⟨(config, untried) :: below, memo, finished⟩ := by
  obtain ⟨head, ⟨links, _, _, _, front, isHeap, top, stacked, candidates, state, linearized, entry⟩,
    cached, longest, bounded⟩ := follows
  cases top
  rw [ahead, List.cons_append, List.head?_cons] at entry
  obtain ⟨input, output, stepped, operated⟩ := step_call computePartial sheet stacked unfit
    candidates head isHeap entry
  have behind := next_of_candidate stacked.linked candidates
  have member := (isCall_of_candidate candidates).1
  have passes : search.tryCall model cell input output =
      some { search with entry := search.heap.next cell } := by
    obtain ⟨more, set, holds⟩ := set_candidate sheet linearized candidates
    cases ok : (model.step config.state input output).1 with
    | false => simp [Search.tryCall, state, ok]
    | true =>
        have child := child_eq_some.mpr ⟨member, _, (operated config.state).trans (if_pos ok), rfl⟩
        have contains := (cached.contains model heap count _ holds).trans (settled _ child)
        simp [Search.tryCall, state, ok, isHeap, set, contains]
  refine ⟨{ search with entry := search.heap.next cell }, stepped.trans (by rw [passes]; rfl),
    ⟨head, ⟨links, config, untried, below, front ++ [cell], isHeap, rfl, stacked,
      by simpa using candidates, state, linearized, ?_⟩, cached, longest, bounded⟩⟩
  rw [isHeap]
  exact behind

/-- A candidate that leads to a new node is linearized. -/
theorem Follows.enter (follows : Follows model heap n count computePartial search
      ⟨(config, cell :: untried) :: below, memo, finished⟩)
    (sheet : heap.Sheet n count) (unfit : (problem model heap count).goal config = false)
    {child : Config State} (leads : (problem model heap count).child config cell = some child)
    (fresh : memo.any ((problem model heap count).same child) = false) :
    ∃ search', search.step model computePartial false = some (.inl search') ∧
      Follows model heap n count computePartial search'
        ⟨(child, (problem model heap count).candidates child) :: (config, untried) :: below,
          child :: memo, finished⟩ := by
  obtain ⟨head, ⟨links, _, _, _, front, isHeap, top, stacked, candidates, state, linearized, entry⟩,
    cached, longest, bounded⟩ := follows
  cases top
  rw [ahead, List.cons_append, List.head?_cons] at entry
  obtain ⟨input, output, stepped, operated⟩ := step_call computePartial sheet stacked unfit
    candidates head isHeap entry
  obtain ⟨more, set, holds⟩ := set_candidate sheet linearized candidates
  obtain ⟨member, isCall⟩ := isCall_of_candidate candidates
  obtain ⟨_, after, reached, rfl⟩ := child_eq_some.mp leads
  have ok : (model.step config.state input output).1 = true ∧
      (model.step config.state input output).2 = after := by
    rw [operated] at reached
    split at reached
    · rename_i ok
      exact ⟨ok, Option.some.inj reached⟩
    · cases reached
  obtain ⟨other, ahead_, middle, back, matched, whole, less⟩ := sheet.rest_split member isCall
  have linked := stacked.linked
  rw [whole, ← List.cons_append] at linked
  obtain ⟨ahead', before, ends⟩ : ∃ ahead' before, count :: ahead_ = ahead' ++ [before] :=
    ⟨_, _, (List.dropLast_append_getLast (List.cons_ne_nil _ _)).symm⟩
  rw [ends, List.append_assoc, List.singleton_append] at linked
  obtain ⟨links', lifted, linked', unlifted⟩ := Heap.lift_linked linked matched
  have linkedLess : links'.Linked (count :: heap.rest count (config.path ++ [heap.id cell])) := by
    have joined : ahead' ++ before :: (middle ++ back) = count :: (ahead_ ++ (middle ++ back)) := by
      rw [← List.singleton_append, ← List.append_assoc, ← ends, List.cons_append]
    rw [less, ← joined]
    exact linked'
  have stacked' := Stacked.call stacked candidates leads linkedLess unlifted
  have contains : cacheContains model search.cache ⟨more, after⟩ = false :=
    (cached.contains model heap count ⟨config.path ++ [heap.id cell], after⟩ holds).trans fresh
  have tried : search.tryCall model cell input output = some { search with
      cache := Function.update search.cache more.hash (search.cache more.hash ++ [⟨more, after⟩])
      calls := ⟨cell, config.state⟩ :: search.calls
      state := after
      linearized := more
      heap := heap.withLinks links'
      entry := links'.next search.headEntry } := by
    simp [Search.tryCall, state, ok, isHeap, set, contains, lifted]
  rw [tried, Option.map_some] at stepped
  refine ⟨_, stepped, head, ⟨links', _, _, _, [], rfl, rfl, stacked', rfl, rfl, holds, ?_⟩,
    cached.insert ⟨_, after⟩ holds, longest, bounded⟩
  rw [head, stacked'.next_head, ahead]
  exact congrArg List.head? (List.takeWhile_append_dropWhile).symm

/-- At a return the last operation is given up. -/
theorem Follows.finish {config' : Config State} {untried' : List Nat}
    (follows : Follows model heap n count computePartial search
      ⟨(config, []) :: (config', untried') :: below, memo, finished⟩)
    (sheet : heap.Sheet n count) (unfit : (problem model heap count).goal config = false) :
    ∃ search', search.step model computePartial false = some (.inl search') ∧
      Follows model heap n count computePartial search'
        ⟨(config', untried') :: below, memo, config :: finished⟩ := by
  obtain ⟨head, ⟨links, _, _, _, front, isHeap, top, stacked, candidates, state, linearized, entry⟩,
    cached, longest, bounded⟩ := follows
  cases top
  obtain ⟨first, behind⟩ := next_head_of_unfit stacked unfit
  obtain ⟨cell, isFirst, matched⟩ := sheet.ahead_nil config unfit
  rw [isFirst] at entry
  have size := length_noted longest bounded
  have inside := stacked.path_lt sheet
  obtain ⟨next, isNext, -⟩ := noteSeq_spec computePartial (size.symm ▸ inside)
  have seq : search.seq = config.path := by
    rw [stacked.path, Search.seq, isHeap]
    rfl
  generalize isCalls : search.calls = calls at stacked
  cases stacked with
  | @call restored _ calls _ _ _ last front' _ under candidates' child linked unlift =>
      obtain ⟨member, after, reached, rfl⟩ := child_eq_some.mp child
      obtain ⟨fewer, clear, holds⟩ := clear_last sheet linearized member
      have backtracked : search.backtrack computePartial ⟨last, config'.state⟩ calls =
          some { search with
            longest := next
            state := config'.state
            linearized := fewer
            calls
            heap := heap.withLinks restored
            entry := restored.next last } := by
        simp only [Search.backtrack, seq, isNext, isHeap, Heap.withLinks_id, clear, unlift]
        rfl
      have stepped : search.step model computePartial false =
          (search.backtrack computePartial ⟨last, config'.state⟩ calls).map .inl := by
        simp [Search.step, head, isHeap, behind, entry, matched, isCalls]
      rw [backtracked, Option.map_some] at stepped
      refine ⟨_, stepped, head, ⟨restored, _, _, _, front' ++ [last], rfl, rfl, under, ?_, rfl,
        holds, ?_⟩, cached, ?_, ?_⟩
      · exact candidates'.trans (by rw [List.append_cons])
      · exact next_of_candidate under.linked candidates'
      · rw [noted, longest]
        exact isNext
      · exact List.forall_mem_cons.mpr ⟨inside, bounded⟩

/-- At a return with no operation left to give up the search fails. -/
theorem Follows.fail (follows : Follows model heap n count computePartial search
      ⟨[(config, [])], memo, finished⟩)
    (sheet : heap.Sheet n count) (unfit : (problem model heap count).goal config = false) :
    search.step model computePartial false = some (.inr (false, search.longest)) ∧
      config.path = [] := by
  obtain ⟨head, ⟨links, _, _, _, front, isHeap, top, stacked, candidates, state, linearized, entry⟩,
    cached, longest, bounded⟩ := follows
  cases top
  obtain ⟨first, behind⟩ := next_head_of_unfit stacked unfit
  obtain ⟨cell, isFirst, matched⟩ := sheet.ahead_nil config unfit
  rw [isFirst] at entry
  generalize isCalls : search.calls = calls at stacked
  cases stacked with
  | root => exact ⟨by simp [Search.step, head, isHeap, behind, entry, matched, isCalls], rfl⟩

/-- With every operation linearized the search succeeds. -/
theorem Follows.succeed (follows : Follows model heap n count computePartial search
      ⟨(config, untried) :: below, memo, finished⟩)
    (goal : (problem model heap count).goal config = true) :
    search.step model computePartial false =
      some (.inr (true, List.replicate n (some config.path))) := by
  obtain ⟨head, ⟨links, _, _, _, front, isHeap, top, stacked, candidates, state, linearized, entry⟩,
    cached, longest, bounded⟩ := follows
  cases top
  have empty : heap.rest count config.path = [] := List.isEmpty_iff.mp goal
  have behind : links.next count = none := by
    rw [stacked.next_head, empty]
    rfl
  have size := length_noted longest bounded
  have seq : search.seq = config.path := by
    rw [stacked.path, Search.seq, isHeap]
    rfl
  simp only [Search.step, head, isHeap, Heap.withLinks_next, behind, seq]
  rw [List.map_const', size]

end Steps

section Run

variable {search : Search State Input Output} {dfs last : DepthFirst (Config State) Nat}
  {verdict : Bool}

theorem checkLoop_more {fuel : Nat} {result : Bool × Longest}
    (ended : checkLoop model computePartial fuel search = some result) :
    checkLoop model computePartial (fuel + 1) search = some result := by
  induction fuel generalizing search with
  | zero => cases ended
  | succ fuel inductionHypothesis =>
      rw [checkLoop] at ended ⊢
      cases stepped : search.step model computePartial false with
      | none => simp only [stepped, reduceCtorEq] at ended
      | some outcome =>
          rw [stepped] at ended
          cases outcome with
          | inl next => exact inductionHypothesis ended
          | inr result' => exact ended

/-- What the loop returns when the search ends in `last`. -/
def Returns (computePartial : Bool) (n : Nat) (last : DepthFirst (Config State) Nat) :
    Bool × Longest → Prop
  | (true, longest) => ∃ config untried below, last.stack = (config, untried) :: below ∧
      longest = List.replicate n (some config.path)
  | (false, longest) => noted computePartial n last.finished = some longest

/-- The loop returns what the search comes to.  The induction is on the steps of the search,
and the last one of a search that fails has no counterpart in the loop. -/
theorem Follows.run (follows : Follows model heap n count computePartial search dfs)
    (sheet : heap.Sheet n count) (steps : (problem model heap count).Steps dfs last)
    (ends : (problem model heap count).step last = .inr verdict) :
    ∃ fuel longest, checkLoop model computePartial fuel search = some (verdict, longest) ∧
      Returns computePartial n last (verdict, longest) := by
  induction steps using Relation.ReflTransGen.head_induction_on generalizing search with
  | refl =>
      obtain ⟨stack, memo, finished⟩ := last
      rcases SearchProblem.verdict_cases ends with ⟨rfl, config, untried, below, rfl, goal⟩ |
        ⟨_, rfl⟩
      · refine ⟨1, _, ?_, config, untried, below, rfl, rfl⟩
        rw [checkLoop, follows.succeed goal]
      · obtain ⟨_, _, _, _, _, _, top, _⟩ := follows.frames
        cases top
  | @head dfs next stepped steps inductionHypothesis =>
      -- a step of the loop comes before the rest of its run
      have goOn : ∀ {search' : Search State Input Output},
          search.step model computePartial false = some (.inl search') →
          Follows model heap n count computePartial search' next →
          ∃ fuel longest, checkLoop model computePartial fuel search = some (verdict, longest) ∧
            Returns computePartial n last (verdict, longest) := by
        intro search' taken further
        obtain ⟨fuel, longest, ended, returns⟩ := inductionHypothesis further
        refine ⟨fuel + 1, longest, ?_, returns⟩
        rw [checkLoop, taken]
        exact ended
      obtain ⟨stack, memo, finished⟩ := dfs
      obtain ⟨config, untried, below, rfl, unfit, ⟨rfl, rfl⟩ |
        ⟨cell, rest, rfl, ⟨rfl, settled⟩ | ⟨child, leads, fresh, rfl⟩⟩⟩ :=
          SearchProblem.step_cases stepped
      · cases below with
        | nil =>
            obtain ⟨failed, nothing⟩ := follows.fail sheet unfit
            rcases Relation.ReflTransGen.cases_head steps with rfl | ⟨_, impossible, _⟩
            · cases ends
              refine ⟨1, search.longest, by rw [checkLoop, failed], ?_⟩
              have known := follows.longest
              rw [Returns, noted, nothing, known, Option.bind_some, noteSeq_nil]
            · cases impossible
        | cons frame below =>
            obtain ⟨search', taken, further⟩ := follows.finish sheet unfit
            exact goOn taken further
      · obtain ⟨search', taken, further⟩ := follows.drop sheet unfit
          fun child leads => List.any_eq_true.mpr (settled child leads)
        exact goOn taken further
      · obtain ⟨search', taken, further⟩ := follows.enter sheet unfit leads fresh
        exact goOn taken further

/-- The loop starts where the search starts. -/
theorem follows_start {linearized : Bitset} (linked : links.Linked (cellsOf (count + 1)))
    (holds : linearized.Holds n []) :
    Follows model heap n count computePartial
      { heap := heap.withLinks links
        headEntry := count
        entry := (cellsOf count).head?
        calls := []
        linearized
        cache := fun _ => []
        state := model.init
        longest := List.replicate n none }
      ((problem model heap count).start ⟨[], model.init⟩) := by
  have all : heap.rest count [] = cellsOf count := by
    simp [Heap.rest]
  have root : Stacked model heap count links [] [] ⟨[], model.init⟩ :=
    .root (by rw [all, ← cellsOf_succ]; exact linked)
  refine ⟨rfl, ⟨links, _, _, _, [], rfl, rfl, root, rfl, rfl, holds, ?_⟩, cached_empty, rfl,
    List.forall_mem_nil _⟩
  rw [ahead, ← all]
  exact congrArg List.head? (List.takeWhile_append_dropWhile).symm

end Run

end Loop

end MultiRaft.Porcupine
