import Mathlib.Data.List.Dedup
import Mathlib.Data.List.Perm.Basic
import Mathlib.Data.List.Sort
import Mathlib.Logic.Function.Basic
import Mathlib.Order.WithBot

/-!
# Linearizability

A sequential object says of each operation, its answer included, whether it is
possible in a state and what the state is afterwards.  A history is linearizable
if its operations can be put in one order that the object allows and that keeps
every operation which returned before another one was called in front of it.

Linearizability is local: for an object that consists of independent parts it is
enough that the operations on each part are linearizable.  Each order of a part
gives its operations points in time that increase along the order and lie between
call and return; sorting all operations by their points merges the orders.
-/

namespace MultiRaft

universe u v w

variable {State : Type u} {Op : Type v}

/-- The state after the operations, if all of them are possible. -/
def afterAll (step : State → Op → Option State) : State → List Op → Option State
  | state, [] => some state
  | state, op :: rest => (step state op).bind fun next => afterAll step next rest

theorem afterAll_append (step : State → Op → Option State) (state : State) (front back : List Op) :
    afterAll step state (front ++ back) =
      (afterAll step state front).bind fun next => afterAll step next back := by
  induction front generalizing state with
  | nil => rfl
  | cons op rest inductionHypothesis =>
      simp only [List.cons_append, afterAll]
      cases step state op with
      | none => rfl
      | some next => exact inductionHypothesis next

/-- One order of all operations that the object allows and that respects `precedes`. -/
structure Linearizes (step : State → Op → Option State) (start : State)
    (precedes : Op → Op → Prop) (ops order : List Op) : Prop where
  perm : order.Perm ops
  ordered : order.Pairwise fun one two => ¬ precedes two one
  legal : (afterAll step start order).isSome

def Linearizable (step : State → Op → Option State) (start : State) (precedes : Op → Op → Prop)
    (ops : List Op) : Prop :=
  ∃ order, Linearizes step start precedes ops order

/-- An order of some operations that is allowed so far: with an operation it has all that
precede it. -/
structure LinearizesPart (step : State → Op → Option State) (start : State)
    (precedes : Op → Op → Prop) (ops order : List Op) : Prop where
  nodup : order.Nodup
  subset : order ⊆ ops
  ordered : order.Pairwise fun one two => ¬ precedes two one
  closed : ∀ op ∈ order, ∀ other ∈ ops, precedes other op → other ∈ order
  legal : (afterAll step start order).isSome

section Parts

variable {step : State → Op → Option State} {start : State} {precedes : Op → Op → Prop}
  {ops order : List Op} {op : Op}

theorem linearizesPart_nil (step : State → Op → Option State) (start : State)
    (precedes : Op → Op → Prop) (ops : List Op) : LinearizesPart step start precedes ops [] where
  nodup := List.nodup_nil
  subset := List.nil_subset _
  ordered := .nil
  closed := List.forall_mem_nil _
  legal := rfl

/-- An operation may come next if all that precede it are there and the object allows it. -/
theorem LinearizesPart.concat (part : LinearizesPart step start precedes ops order)
    (fresh : op ∉ order) (member : op ∈ ops)
    (least : ∀ other ∈ ops, precedes other op → other ∈ order)
    {state next : State} (reached : afterAll step start order = some state)
    (allowed : step state op = some next) :
    LinearizesPart step start precedes ops (order ++ [op]) := by
  refine ⟨?_, ?_, ?_, ?_, ?_⟩
  · rw [List.nodup_append]
    refine ⟨part.nodup, List.nodup_singleton op, ?_⟩
    rintro other earlier _ last rfl
    exact fresh (List.mem_singleton.mp last ▸ earlier)
  · exact List.append_subset.mpr ⟨part.subset, List.cons_subset.mpr ⟨member, List.nil_subset _⟩⟩
  · refine List.pairwise_append.mpr ⟨part.ordered, List.pairwise_singleton _ _, ?_⟩
    intro other earlier last isLast before
    cases List.mem_singleton.mp isLast
    exact fresh (part.closed other earlier op member before)
  · intro later place other known before
    rcases List.mem_append.mp place with earlier | last
    · exact List.mem_append_left _ (part.closed later earlier other known before)
    · cases List.mem_singleton.mp last
      exact List.mem_append_left _ (least other known before)
  · rw [afterAll_append, reached]
    simp [afterAll, allowed]

/-- The operations in front of a place are a part too. -/
theorem LinearizesPart.initial {front back : List Op}
    (part : LinearizesPart step start precedes ops (front ++ back)) :
    LinearizesPart step start precedes ops front := by
  have ordered := List.pairwise_append.mp part.ordered
  refine ⟨part.nodup.of_append_left, ?_, ordered.1, ?_, ?_⟩
  · exact fun op member => part.subset (List.mem_append_left _ member)
  · intro op member other known before
    rcases List.mem_append.mp (part.closed op (List.mem_append_left _ member) other known before)
      with earlier | later
    · exact earlier
    · exact absurd before (ordered.2.2 op member other later)
  · have legal := part.legal
    rw [afterAll_append] at legal
    cases reached : afterAll step start front with
    | none =>
        rw [reached] at legal
        cases legal
    | some state => rfl

/-- What comes next in a part could come next. -/
theorem LinearizesPart.least {front back : List Op}
    (part : LinearizesPart step start precedes ops (front ++ op :: back)) {other : Op}
    (known : other ∈ ops) (irreflexive : ¬ precedes op op) (before : precedes other op) :
    other ∈ front := by
  have place := part.closed op (by simp) other known before
  rcases List.mem_append.mp place with earlier | later
  · exact earlier
  · rcases List.mem_cons.mp later with rfl | behind
    · exact absurd before irreflexive
    · have ordered := (List.pairwise_append.mp part.ordered).2.1
      exact absurd before ((List.pairwise_cons.mp ordered).1 other behind)

theorem Linearizes.part (linearizes : Linearizes step start precedes ops order)
    (nodup : ops.Nodup) : LinearizesPart step start precedes ops order where
  nodup := linearizes.perm.nodup_iff.mpr nodup
  subset := linearizes.perm.subset
  ordered := linearizes.ordered
  closed _ _ _ known _ := linearizes.perm.symm.subset known
  legal := linearizes.legal

/-- A part with all operations is a linearization. -/
theorem LinearizesPart.whole (part : LinearizesPart step start precedes ops order)
    (nodup : ops.Nodup) (all : ops ⊆ order) : Linearizes step start precedes ops order where
  perm := (List.perm_ext_iff_of_nodup part.nodup nodup).mpr
    fun _ => ⟨fun member => part.subset member, fun member => all member⟩
  ordered := part.ordered
  legal := part.legal

end Parts

section Names

variable {Id : Type*} {name : Id → Op} {step : State → Op → Option State}
  {stepName : State → Id → Option State} {ids : List Id}

theorem afterAll_map (steps : ∀ state, ∀ id ∈ ids, stepName state id = step state (name id))
    (state : State) : afterAll step state (ids.map name) = afterAll stepName state ids := by
  induction ids generalizing state with
  | nil => rfl
  | cons id rest inductionHypothesis =>
      rw [List.map_cons, afterAll, afterAll, steps state id List.mem_cons_self]
      exact congrArg _ (funext (inductionHypothesis
        fun state other member => steps state other (List.mem_cons_of_mem _ member)))

/-- Operations may be given by names. -/
theorem linearizable_map {start : State} {precedes : Op → Op → Prop} {precedesName : Id → Id → Prop}
    (steps : ∀ state, ∀ id ∈ ids, stepName state id = step state (name id))
    (orders : ∀ one ∈ ids, ∀ two ∈ ids,
      precedesName one two ↔ precedes (name one) (name two)) :
    Linearizable stepName start precedesName ids ↔
      Linearizable step start precedes (ids.map name) := by
  have transfer : ∀ order : List Id, order.Perm ids →
      (Linearizes stepName start precedesName ids order ↔
        Linearizes step start precedes (ids.map name) (order.map name)) := by
    intro order perm
    have known : ∀ id ∈ order, id ∈ ids := fun id member => perm.subset member
    have legal := afterAll_map (fun state id member => steps state id (known id member)) start
    have ordered : (order.map name).Pairwise (fun one two => ¬ precedes two one) ↔
        order.Pairwise fun one two => ¬ precedesName two one := by
      rw [List.pairwise_map]
      refine ⟨fun pairs => pairs.imp_of_mem ?_, fun pairs => pairs.imp_of_mem ?_⟩
      · exact fun {one two} first second not before =>
          not ((orders two (known two second) one (known one first)).mp before)
      · exact fun {one two} first second not before =>
          not ((orders two (known two second) one (known one first)).mpr before)
    constructor
    · exact fun linearizes =>
        ⟨perm.map name, ordered.mpr linearizes.ordered, legal ▸ linearizes.legal⟩
    · exact fun linearizes =>
        ⟨perm, ordered.mp linearizes.ordered, legal ▸ linearizes.legal⟩
  constructor
  · rintro ⟨order, linearizes⟩
    exact ⟨order.map name, (transfer order linearizes.perm).mp linearizes⟩
  · rintro ⟨order, linearizes⟩
    have related : List.Forall₂ (fun op id => op = name id) (ids.map name) ids :=
      List.forall₂_map_left_iff.mpr (List.forall₂_same.mpr fun _ _ => rfl)
    obtain ⟨order', alike, perm⟩ := List.perm_comp_forall₂ linearizes.perm related
    have named : order = order'.map name :=
      List.forall₂_eq_eq_eq ▸ List.forall₂_map_right_iff.mpr alike
    subst named
    exact ⟨order', (transfer order' perm).mpr linearizes⟩

end Names

section Local

variable {Key : Type w} [DecidableEq Key]

/-- An object made of one part for each key. -/
def stepAt (key : Op → Key) (step : State → Op → Option State) (states : Key → State) (op : Op) :
    Option (Key → State) :=
  (step (states (key op)) op).map (Function.update states (key op))

/-- The operations on one part. -/
def opsAt (key : Op → Key) (ops : List Op) (at_ : Key) : List Op :=
  ops.filter fun op => key op = at_

variable {key : Op → Key} {step : State → Op → Option State} {ops order : List Op}

theorem mem_opsAt {at_ : Key} {op : Op} : op ∈ opsAt key ops at_ ↔ op ∈ ops ∧ key op = at_ := by
  simp [opsAt]

/-- The whole object allows an order if every part allows what is in it for the part. -/
theorem isSome_afterAll_stepAt (states : Key → State) :
    (afterAll (stepAt key step) states order).isSome ↔
      ∀ at_, (afterAll step (states at_) (opsAt key order at_)).isSome := by
  induction order generalizing states with
  | nil => exact ⟨fun _ _ => rfl, fun _ => rfl⟩
  | cons op rest inductionHypothesis =>
      simp only [afterAll, stepAt]
      cases stepped : step (states (key op)) op with
      | none =>
          have refused : (afterAll step (states (key op)) (opsAt key (op :: rest) (key op))) =
              none := by
            simp [opsAt, afterAll, stepped]
          constructor
          · intro impossible
            cases impossible
          · intro parts
            have part := parts (key op)
            rw [refused] at part
            cases part
      | some next =>
          rw [Option.map_some, Option.bind_some, inductionHypothesis]
          refine forall_congr' fun at_ => ?_
          by_cases same : key op = at_
          · subst same
            simp [opsAt, afterAll, stepped]
          · rw [Function.update_of_ne (Ne.symm same)]
            simp [opsAt, same]

variable {Time : Type*} [LinearOrder Time] (call ret : Op → Time)

/-- Each operation with the latest call up to it. -/
def points : WithBot Time → List Op → List (WithBot Time × Op)
  | _, [] => []
  | bound, op :: rest =>
      (max bound (call op), op) :: points (max bound (call op)) rest

theorem points_ops (bound : WithBot Time) : (points call bound order).map Prod.snd = order := by
  induction order generalizing bound with
  | nil => rfl
  | cons op rest inductionHypothesis =>
      rw [points, List.map_cons, inductionHypothesis]

theorem le_of_mem_points {bound : WithBot Time} {point : WithBot Time × Op}
    (member : point ∈ points call bound order) : bound ≤ point.1 := by
  induction order generalizing bound with
  | nil => cases member
  | cons op rest inductionHypothesis =>
      rcases List.mem_cons.mp member with rfl | later
      · exact le_max_left _ _
      · exact (le_max_left _ _).trans (inductionHypothesis later)

theorem pairwise_points (bound : WithBot Time) :
    (points call bound order).Pairwise fun one two => one.1 ≤ two.1 := by
  induction order generalizing bound with
  | nil => exact .nil
  | cons op rest inductionHypothesis =>
      exact .cons (fun _ later => le_of_mem_points call later) (inductionHypothesis _)

/-- The points lie between call and return. -/
theorem between_of_mem_points {bound : WithBot Time}
    (ordered : order.Pairwise fun one two => ¬ ret two < call one)
    (calls : ∀ op ∈ order, call op ≤ ret op) (low : ∀ op ∈ order, bound ≤ ret op)
    {point : WithBot Time × Op} (member : point ∈ points call bound order) :
    (call point.2 : WithBot Time) ≤ point.1 ∧ point.1 ≤ ret point.2 := by
  induction order generalizing bound with
  | nil => cases member
  | cons op rest inductionHypothesis =>
      obtain ⟨first, others⟩ := List.pairwise_cons.mp ordered
      rcases List.mem_cons.mp member with rfl | later
      · exact ⟨le_max_right _ _, max_le (low op List.mem_cons_self)
          (WithBot.coe_le_coe.mpr (calls op List.mem_cons_self))⟩
      · refine inductionHypothesis others
          (fun other known => calls other (List.mem_cons_of_mem _ known)) ?_ later
        intro other known
        refine max_le (low other (List.mem_cons_of_mem _ known)) ?_
        exact WithBot.coe_le_coe.mpr (not_lt.mp (first other known))

/-- The operations, part by part. -/
theorem flatMap_opsAt_perm {keys : List Key} (nodup : keys.Nodup) :
    (keys.flatMap (opsAt key ops)).Perm (ops.filter fun op => key op ∈ keys) := by
  induction keys with
  | nil => simp
  | cons at_ rest inductionHypothesis =>
      obtain ⟨fresh, nodupRest⟩ := List.nodup_cons.mp nodup
      have parted := List.filter_append_perm (fun op => decide (key op = at_))
        (ops.filter fun op => key op ∈ at_ :: rest)
      rw [List.filter_filter, List.filter_filter] at parted
      have here : (ops.filter fun op => decide (key op = at_) && decide (key op ∈ at_ :: rest)) =
          opsAt key ops at_ := by
        refine List.filter_congr fun op _ => ?_
        by_cases same : key op = at_ <;> simp [same]
      have there : (ops.filter fun op =>
          (!decide (key op = at_)) && decide (key op ∈ at_ :: rest)) =
          ops.filter fun op => key op ∈ rest := by
        refine List.filter_congr fun op _ => ?_
        by_cases same : key op = at_
        · simp [same, fresh]
        · simp [same]
      rw [here, there] at parted
      exact ((inductionHypothesis nodupRest).append_left _).trans parted

/-- The orders of the parts, one after the other. -/
theorem opsAt_flatMap {orders : Key → List Op} {keys : List Key} (nodup : keys.Nodup)
    {at_ : Key} (listed : at_ ∈ keys) (home : ∀ other, ∀ op ∈ orders other, key op = other) :
    opsAt key (keys.flatMap orders) at_ = orders at_ := by
  have here : opsAt key (orders at_) at_ = orders at_ :=
    List.filter_eq_self.mpr fun op member => decide_eq_true (home at_ op member)
  have elsewhere : ∀ other, other ≠ at_ → opsAt key (orders other) at_ = [] := by
    intro other unlike
    refine List.filter_eq_nil_iff.mpr fun op member => ?_
    rw [home other op member, decide_eq_true_eq]
    exact unlike
  induction keys with
  | nil => cases listed
  | cons first rest inductionHypothesis =>
      obtain ⟨fresh, nodupRest⟩ := List.nodup_cons.mp nodup
      have cons : opsAt key ((first :: rest).flatMap orders) at_ =
          opsAt key (orders first) at_ ++ opsAt key (rest.flatMap orders) at_ := by
        rw [List.flatMap_cons, opsAt, List.filter_append]
        rfl
      rw [cons]
      rcases List.mem_cons.mp listed with rfl | later
      · have others : opsAt key (rest.flatMap orders) at_ = [] := by
          rw [opsAt, List.filter_flatMap]
          refine List.flatMap_eq_nil_iff.mpr fun other member => elsewhere other ?_
          rintro rfl
          exact fresh member
        rw [here, others, List.append_nil]
      · rw [elsewhere first fun same => fresh (same ▸ later), List.nil_append]
        exact inductionHypothesis nodupRest later

section Merge

def byPoint (one two : WithBot Time × Op) : Bool := one.1 ≤ two.1

theorem byPoint_trans (one two three : WithBot Time × Op) (first : byPoint one two = true)
    (second : byPoint two three = true) : byPoint one three = true :=
  decide_eq_true ((of_decide_eq_true first).trans (of_decide_eq_true second))

theorem byPoint_total (one two : WithBot Time × Op) :
    (byPoint one two || byPoint two one) = true := by
  rw [byPoint, byPoint, Bool.or_eq_true, decide_eq_true_eq, decide_eq_true_eq]
  exact le_total _ _

/-- All operations of the orders by their points. -/
def merged (orders : Key → List Op) (keys : List Key) : List (WithBot Time × Op) :=
  (keys.flatMap fun at_ => points call ⊥ (orders at_)).mergeSort byPoint

variable (orders : Key → List Op) (keys : List Key)

omit [DecidableEq Key] in
theorem mem_merged {point : WithBot Time × Op} (member : point ∈ merged call orders keys) :
    ∃ at_ ∈ keys, point ∈ points call ⊥ (orders at_) :=
  List.mem_flatMap.mp ((List.mergeSort_perm _ _).subset member)

omit [DecidableEq Key] in
theorem pairwise_merged : (merged call orders keys).Pairwise fun one two => one.1 ≤ two.1 :=
  (List.pairwise_mergeSort byPoint_trans byPoint_total _).imp fun le => of_decide_eq_true le

omit [DecidableEq Key] in
theorem merged_perm : ((merged call orders keys).map Prod.snd).Perm (keys.flatMap orders) := by
  have mapped := (List.mergeSort_perm
    (keys.flatMap fun at_ => points call ⊥ (orders at_)) byPoint).map Prod.snd
  rw [List.map_flatMap] at mapped
  simp only [points_ops] at mapped
  exact mapped

variable {orders keys}

/-- The order of each part is kept, since sorting is stable. -/
theorem opsAt_merged (nodup : keys.Nodup) {at_ : Key} (listed : at_ ∈ keys)
    (home : ∀ other, ∀ op ∈ orders other, key op = other) :
    opsAt key ((merged call orders keys).map Prod.snd) at_ = orders at_ := by
  have kept : (points call ⊥ (orders at_)).Sublist (merged call orders keys) := by
    refine List.sublist_mergeSort byPoint_trans byPoint_total ?_ ?_
    · exact (pairwise_points call ⊥).imp fun le => decide_eq_true le
    · exact List.sublist_flatten_of_mem (List.mem_map_of_mem listed)
  have below : (orders at_).Sublist (opsAt key ((merged call orders keys).map Prod.snd) at_) := by
    have mapped := (kept.map Prod.snd).filter fun op => decide (key op = at_)
    rw [points_ops] at mapped
    rwa [List.filter_eq_self.mpr fun op member => decide_eq_true (home at_ op member)] at mapped
  have size := ((merged_perm call orders keys).filter fun op => decide (key op = at_)).length_eq
  refine (below.eq_of_length_le ?_).symm
  rw [opsAt, size]
  exact (congrArg List.length (opsAt_flatMap nodup listed home)).le

end Merge

/-- **Locality**: a history of an object made of parts is linearizable iff what it has for
each part is. -/
theorem linearizable_iff_parts (states : Key → State) (calls : ∀ op ∈ ops, call op ≤ ret op) :
    Linearizable (stepAt key step) states (fun one two => ret one < call two) ops ↔
      ∀ at_, Linearizable step (states at_) (fun one two => ret one < call two)
        (opsAt key ops at_) := by
  constructor
  · rintro ⟨order, perm, ordered, legal⟩ at_
    exact ⟨opsAt key order at_, perm.filter _, ordered.filter _,
      (isSome_afterAll_stepAt states).mp legal at_⟩
  · intro parts
    choose orders linearizes using parts
    have home : ∀ at_, ∀ op ∈ orders at_, key op = at_ := fun at_ op member =>
      (mem_opsAt.mp ((linearizes at_).perm.subset member)).2
    have known : ∀ at_, ∀ op ∈ orders at_, op ∈ ops := fun at_ op member =>
      (mem_opsAt.mp ((linearizes at_).perm.subset member)).1
    have nodup : ((ops.map key).dedup).Nodup := List.nodup_dedup _
    refine ⟨(merged call orders (ops.map key).dedup).map Prod.snd, ?_, ?_, ?_⟩
    · refine (merged_perm call _ _).trans ?_
      refine (List.Perm.flatMap (.refl _) fun at_ _ => (linearizes at_).perm).trans ?_
      refine (flatMap_opsAt_perm nodup).trans ?_
      rw [List.filter_eq_self.mpr]
      intro op member
      simpa using ⟨op, member, rfl⟩
    · refine List.pairwise_map.mpr ((pairwise_merged call _ _).imp_of_mem ?_)
      intro one two first second le before
      have between : ∀ point ∈ merged call orders (ops.map key).dedup,
          (call point.2 : WithBot Time) ≤ point.1 ∧ point.1 ≤ ret point.2 := by
        intro point member
        obtain ⟨at_, -, inPart⟩ := mem_merged call _ _ member
        exact between_of_mem_points call ret (linearizes at_).ordered
          (fun op inOrder => calls op (known at_ op inOrder)) (fun _ _ => bot_le) inPart
      -- the later point would lie before its own operation's return and so before the earlier call
      have late := (between one first).1
      have early := (between two second).2
      exact absurd (WithBot.coe_le_coe.mp (late.trans (le.trans early))) (not_le.mpr before)
    · refine (isSome_afterAll_stepAt states).mpr fun at_ => ?_
      by_cases listed : at_ ∈ (ops.map key).dedup
      · rw [opsAt_merged call nodup listed home]
        exact (linearizes at_).legal
      · have none : opsAt key ((merged call orders (ops.map key).dedup).map Prod.snd) at_ = [] := by
          refine List.filter_eq_nil_iff.mpr fun op member => ?_
          obtain ⟨point, inMerged, rfl⟩ := List.mem_map.mp member
          obtain ⟨other, inKeys, inPart⟩ := mem_merged call _ _ inMerged
          have inOrder : point.2 ∈ orders other := by
            have mapped := List.mem_map_of_mem (f := Prod.snd) inPart
            rwa [points_ops] at mapped
          rw [home other _ inOrder, decide_eq_true_eq]
          rintro rfl
          exact listed inKeys
        rw [none]
        rfl

end Local

section Log

variable {step : State → Op → Option State} {precedes : Op → Op → Prop} {ops : List Op}

/-- At most one operation has a place. -/
theorem opsAt_place {place : Op → Nat} (apart : (ops.map place).Nodup) (at_ : Nat) :
    opsAt place ops at_ = [] ∨ ∃ op ∈ ops, place op = at_ ∧ opsAt place ops at_ = [op] := by
  cases found : opsAt place ops at_ with
  | nil => exact .inl rfl
  | cons op rest =>
      have member : ∀ other ∈ op :: rest, other ∈ ops ∧ place other = at_ :=
        fun other inside => mem_opsAt.mp (found ▸ inside)
      refine .inr ⟨op, (member op List.mem_cons_self).1, (member op List.mem_cons_self).2, ?_⟩
      cases rest with
      | nil => rfl
      | cons other others =>
          have nodup : ((op :: other :: others).map place).Nodup := by
            rw [← found]
            exact apart.sublist (List.filter_sublist.map place)
          have same : place op = place other := by
            rw [(member op List.mem_cons_self).2,
              (member other (List.mem_cons_of_mem _ List.mem_cons_self)).2]
          exact absurd (List.mem_map.mpr ⟨other, List.mem_cons_self, same.symm⟩)
            (List.nodup_cons.mp nodup).1

/-- If the operations have places in a log whose states change only where an operation
stands, in the way the operation asks, and a preceding operation has the smaller place, then
the log shows a linearization. -/
theorem linearizable_of_log (place : Op → Nat) (states : Nat → State) (total : Nat)
    (apart : (ops.map place).Nodup) (bound : ∀ op ∈ ops, place op < total)
    (steps : ∀ op ∈ ops, step (states (place op)) op = some (states (place op + 1)))
    (skips : ∀ at_ < total, (∀ op ∈ ops, place op ≠ at_) → states (at_ + 1) = states at_)
    (real : ∀ one ∈ ops, ∀ two ∈ ops, precedes one two → place one < place two) :
    Linearizable step (states 0) precedes ops := by
  refine ⟨(List.range total).flatMap (opsAt place ops), ?_, ?_, ?_⟩
  · refine (flatMap_opsAt_perm List.nodup_range).trans (.of_eq (List.filter_eq_self.mpr ?_))
    exact fun op member => decide_eq_true (List.mem_range.mpr (bound op member))
  · rw [List.pairwise_flatMap]
    refine ⟨?_, List.pairwise_lt_range.imp ?_⟩
    · intro at_ _
      rcases opsAt_place apart at_ with none | ⟨op, _, _, single⟩
      · rw [none]
        exact .nil
      · rw [single]
        exact List.pairwise_singleton _ _
    · intro early late less one first two second before
      obtain ⟨inOps, isEarly⟩ := mem_opsAt.mp first
      obtain ⟨inOps', isLate⟩ := mem_opsAt.mp second
      have order := real two inOps' one inOps before
      omega
  · have reached : ∀ upTo ≤ total,
        afterAll step (states 0) ((List.range upTo).flatMap (opsAt place ops)) =
          some (states upTo) := by
      intro upTo
      induction upTo with
      | zero => exact fun _ => rfl
      | succ upTo inductionHypothesis =>
          intro inside
          rw [List.range_succ, List.flatMap_append, afterAll_append,
            inductionHypothesis (Nat.le_of_succ_le inside), Option.bind_some, List.flatMap_singleton]
          rcases opsAt_place apart upTo with none | ⟨op, member, isPlace, single⟩
          · rw [none, skips upTo inside]
            · rfl
            · intro op member isPlace
              have absent : op ∉ opsAt place ops upTo := none ▸ List.not_mem_nil
              exact absent (mem_opsAt.mpr ⟨member, isPlace⟩)
          · have stepped := steps op member
            rw [isPlace] at stepped
            rw [single]
            simp [afterAll, stepped]
    rw [reached total (Nat.le_refl _)]
    rfl

end Log

end MultiRaft
