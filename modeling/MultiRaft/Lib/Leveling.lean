import Mathlib.Logic.Relation
import MultiRaft.Lib.Balance

/-!
# Leveling loads

Items move one at a time, from an owner with the most items to one with the fewest, as
long as these differ by two or more.  However ties are broken, no owner both gives and
receives.  Once the loads are level, no level assignment is nearer to the one that the
items came from.
-/

namespace MultiRaft.Balance

universe u v

variable {Item : Type u} {Owner : Type v} {owners : Finset Owner}

/-- The sizes of any two owners differ by at most one. -/
def Level (owners : Finset Owner) (sizes : Owner → Nat) : Prop :=
  ∀ owner ∈ owners, ∀ other ∈ owners, sizes owner ≤ sizes other + 1

namespace Level

variable {sizes : Owner → Nat} {owner : Owner}

/-- An owner with the fewest items takes one more. -/
theorem raise [DecidableEq Owner] (level : Level owners sizes)
    (least : ∀ other ∈ owners, sizes owner ≤ sizes other) :
    Level owners (Function.update sizes owner (sizes owner + 1)) := by
  intro one member two among
  have gap := level one member two among
  have below := least two among
  by_cases first : one = owner <;> by_cases second : two = owner
  · subst first second
    exact Nat.le_succ _
  · subst first
    rw [Function.update_self, Function.update_of_ne second]
    omega
  · subst second
    rw [Function.update_self, Function.update_of_ne first]
    omega
  · rw [Function.update_of_ne first, Function.update_of_ne second]
    exact gap

/-- Level sizes are the average, rounded down or one more. -/
theorem bounds (level : Level owners sizes) (member : owner ∈ owners) :
    (∑ other ∈ owners, sizes other) / owners.card ≤ sizes owner ∧
      sizes owner ≤ (∑ other ∈ owners, sizes other) / owners.card + 1 := by
  have positive : 0 < owners.card := Finset.card_pos.mpr ⟨owner, member⟩
  constructor
  · by_contra small
    have below : ∀ other ∈ owners,
        sizes other ≤ (∑ other ∈ owners, sizes other) / owners.card := by
      intro other among
      have gap := level other among owner member
      omega
    have total := Finset.sum_lt_sum below ⟨owner, member, not_le.mp small⟩
    rw [Finset.sum_const_nat fun _ _ => rfl] at total
    exact absurd (Nat.mul_div_le _ owners.card) (not_le.mpr total)
  · by_contra large
    have above : ∀ other ∈ owners,
        (∑ other ∈ owners, sizes other) / owners.card + 1 ≤ sizes other := by
      intro other among
      have gap := level owner member other among
      omega
    have total := Finset.sum_le_sum above
    rw [Finset.sum_const_nat fun _ _ => rfl] at total
    exact absurd (Nat.lt_mul_div_succ _ positive) (not_lt.mpr total)

end Level

theorem sum_sub_comm {first second : Owner → Nat}
    (total : ∑ owner ∈ owners, first owner = ∑ owner ∈ owners, second owner) :
    ∑ owner ∈ owners, (first owner - second owner) =
      ∑ owner ∈ owners, (second owner - first owner) := by
  have larger : ∑ owner ∈ owners, (first owner - second owner + second owner) =
      ∑ owner ∈ owners, (second owner - first owner + first owner) :=
    Finset.sum_congr rfl fun owner _ => by omega
  rw [Finset.sum_add_distrib, Finset.sum_add_distrib, total] at larger
  exact Nat.add_right_cancel larger

/-- One of the largest owners gives to one of the smallest. -/
structure Exchange (owners : Finset Owner) (sizes next : Owner → Nat) (giver receiver : Owner) :
    Prop where
  giver_mem : giver ∈ owners
  receiver_mem : receiver ∈ owners
  most : ∀ owner ∈ owners, sizes owner ≤ sizes giver
  least : ∀ owner ∈ owners, sizes receiver ≤ sizes owner
  gap : sizes receiver + 2 ≤ sizes giver
  gives : next giver + 1 = sizes giver
  receives : next receiver = sizes receiver + 1
  others : ∀ owner, owner ≠ giver → owner ≠ receiver → next owner = sizes owner

/-- What exchanges preserve.  An owner below its first size gave, and stays among the
largest; one above it received, and stays among the smallest. -/
structure Directed (owners : Finset Owner) (start sizes : Owner → Nat) : Prop where
  gave : ∀ giver ∈ owners, sizes giver < start giver →
    ∀ owner ∈ owners, sizes owner ≤ sizes giver + 1
  received : ∀ receiver ∈ owners, start receiver < sizes receiver →
    ∀ owner ∈ owners, sizes receiver ≤ sizes owner + 1
  ordered : ∀ giver ∈ owners, ∀ receiver ∈ owners, sizes giver < start giver →
    start receiver < sizes receiver → sizes receiver ≤ sizes giver

section Exchange

variable {start sizes next : Owner → Nat} {giver receiver : Owner}

/-- No size leaves the range of the sizes before. -/
theorem Exchange.bounds (exchange : Exchange owners sizes next giver receiver) {owner : Owner}
    (member : owner ∈ owners) : sizes receiver ≤ next owner ∧ next owner ≤ sizes giver := by
  obtain ⟨_, _, most, least, gap, gives, receives, others⟩ := exchange
  have above := least owner member
  have below := most owner member
  by_cases isGiver : owner = giver
  · subst isGiver
    omega
  · by_cases isReceiver : owner = receiver
    · subst isReceiver
      omega
    · rw [others owner isGiver isReceiver]
      exact ⟨above, below⟩

namespace Directed

/-- The owner that gives never received. -/
theorem giver_le (directed : Directed owners start sizes)
    (exchange : Exchange owners sizes next giver receiver) : sizes giver ≤ start giver := by
  by_contra grown
  have level := directed.received _ exchange.giver_mem (not_le.mp grown) _ exchange.receiver_mem
  have gap := exchange.gap
  omega

/-- The owner that receives never gave. -/
theorem le_receiver (directed : Directed owners start sizes)
    (exchange : Exchange owners sizes next giver receiver) : start receiver ≤ sizes receiver := by
  by_contra shrunk
  have level := directed.gave _ exchange.receiver_mem (not_le.mp shrunk) _ exchange.giver_mem
  have gap := exchange.gap
  omega

/-- An owner below its first size is the giver, or was below it before. -/
theorem gave_cases (directed : Directed owners start sizes)
    (exchange : Exchange owners sizes next giver receiver) {owner : Owner}
    (below : next owner < start owner) :
    owner = giver ∨ (next owner = sizes owner ∧ sizes owner < start owner) := by
  by_cases isGiver : owner = giver
  · exact .inl isGiver
  · have notReceiver : owner ≠ receiver := by
      rintro rfl
      have full := directed.le_receiver exchange
      have receives := exchange.receives
      omega
    have same := exchange.others owner isGiver notReceiver
    exact .inr ⟨same, same ▸ below⟩

/-- An owner above its first size is the receiver, or was above it before. -/
theorem received_cases (directed : Directed owners start sizes)
    (exchange : Exchange owners sizes next giver receiver) {owner : Owner}
    (above : start owner < next owner) :
    owner = receiver ∨ (next owner = sizes owner ∧ start owner < sizes owner) := by
  by_cases isReceiver : owner = receiver
  · exact .inl isReceiver
  · have notGiver : owner ≠ giver := by
      rintro rfl
      have short := directed.giver_le exchange
      have gives := exchange.gives
      omega
    have same := exchange.others owner notGiver isReceiver
    exact .inr ⟨same, same ▸ above⟩

theorem exchange (directed : Directed owners start sizes)
    (exchange : Exchange owners sizes next giver receiver) : Directed owners start next := by
  have gap := exchange.gap
  have gives := exchange.gives
  have receives := exchange.receives
  refine ⟨?_, ?_, ?_⟩
  · intro one member below owner among
    have range := exchange.bounds among
    rcases directed.gave_cases exchange below with rfl | ⟨same, before⟩
    · omega
    · have level := directed.gave one member before _ exchange.giver_mem
      omega
  · intro one member above owner among
    have range := exchange.bounds among
    rcases directed.received_cases exchange above with rfl | ⟨same, before⟩
    · omega
    · have level := directed.received one member before _ exchange.receiver_mem
      omega
  · intro one member two among below above
    rcases directed.gave_cases exchange below with rfl | ⟨sameOne, gave⟩ <;>
      rcases directed.received_cases exchange above with rfl | ⟨sameTwo, received⟩
    · omega
    · have level := directed.received two among received _ exchange.receiver_mem
      omega
    · have level := directed.gave one member gave _ exchange.giver_mem
      omega
    · have ordered := directed.ordered one member two among gave received
      omega

end Directed

end Exchange

variable [Fintype Item] [DecidableEq Owner]

def held (assignment : Item → Owner) (owner : Owner) : Finset Item :=
  Finset.univ.filter fun item => assignment item = owner

theorem card_held (assignment : Item → Owner) (owner : Owner) :
    (held assignment owner).card = load assignment owner := rfl

@[simp] theorem mem_held {assignment : Item → Owner} {owner : Owner} {item : Item} :
    item ∈ held assignment owner ↔ assignment item = owner := by
  simp [held]

theorem sum_load {assignment : Item → Owner} (within : ∀ item, assignment item ∈ owners) :
    ∑ owner ∈ owners, load assignment owner = Fintype.card Item :=
  (Finset.card_eq_sum_card_fiberwise fun item _ => within item).symm

/-- The number of items whose owner differs. -/
def moved (start last : Item → Owner) : Nat :=
  (Finset.univ.filter fun item => start item ≠ last item).card

variable [DecidableEq Item]

/-- Every item that moves is missing at its old owner. -/
theorem moved_eq_sum {start : Item → Owner} (within : ∀ item, start item ∈ owners)
    (last : Item → Owner) :
    moved start last = ∑ owner ∈ owners, (held start owner \ held last owner).card := by
  rw [moved, Finset.card_eq_sum_card_fiberwise fun item _ => within item]
  refine Finset.sum_congr rfl fun owner _ => congrArg Finset.card ?_
  ext item
  simp only [Finset.mem_filter, Finset.mem_univ, true_and, Finset.mem_sdiff, mem_held]
  constructor
  · rintro ⟨differs, rfl⟩
    exact ⟨rfl, Ne.symm differs⟩
  · rintro ⟨rfl, differs⟩
    exact ⟨Ne.symm differs, rfl⟩

/-- An owner that has lost items has lost at least the difference. -/
theorem sum_sub_le_moved {start : Item → Owner} (within : ∀ item, start item ∈ owners)
    (last : Item → Owner) :
    ∑ owner ∈ owners, (load start owner - load last owner) ≤ moved start last := by
  rw [moved_eq_sum within]
  refine Finset.sum_le_sum fun owner _ => ?_
  rw [← card_held, ← card_held]
  exact Finset.le_card_sdiff _ _

/-- An item goes from an owner with the most items to one with the fewest. -/
inductive Shift (owners : Finset Owner) (assignment : Item → Owner) : (Item → Owner) → Prop
  | move {item : Item} {receiver : Owner} (giver : assignment item ∈ owners)
      (member : receiver ∈ owners)
      (most : ∀ owner ∈ owners, load assignment owner ≤ load assignment (assignment item))
      (least : ∀ owner ∈ owners, load assignment receiver ≤ load assignment owner)
      (gap : load assignment receiver + 2 ≤ load assignment (assignment item)) :
      Shift owners assignment (Function.update assignment item receiver)

theorem load_update (assignment : Item → Owner) {item : Item} {receiver : Owner}
    (away : assignment item ≠ receiver) (owner : Owner) :
    load (Function.update assignment item receiver) owner +
        (if owner = assignment item then 1 else 0) =
      load assignment owner + if owner = receiver then 1 else 0 := by
  have after : Function.update assignment item receiver item = receiver :=
    Function.update_self ..
  by_cases gives : owner = assignment item
  · subst gives
    rw [if_pos rfl, if_neg away, load_of_ne _ item (after.trans_ne away.symm), loadWithout_update,
      load_of_owner]
  · rw [if_neg gives]
    by_cases receives : owner = receiver
    · subst receives
      have grown := load_of_owner (Function.update assignment item owner) item
      rw [after, loadWithout_update] at grown
      rw [if_pos rfl, load_of_ne assignment item away, grown]
    · rw [if_neg receives, load_of_ne _ item (after.trans_ne (Ne.symm receives)),
        loadWithout_update, load_of_ne assignment item (Ne.symm gives)]

variable {start assignment next : Item → Owner}

theorem Shift.imbalance_le (shift : Shift owners assignment next) :
    imbalance next + 2 ≤ imbalance assignment := by
  cases shift with
  | @move item receiver giver member most least gap =>
      have away : assignment item ≠ receiver := by
        rintro rfl
        omega
      have closer := imbalance_update assignment item away
      omega

theorem Shift.exchange {item : Item} {receiver : Owner} (giver : assignment item ∈ owners)
    (member : receiver ∈ owners)
    (most : ∀ owner ∈ owners, load assignment owner ≤ load assignment (assignment item))
    (least : ∀ owner ∈ owners, load assignment receiver ≤ load assignment owner)
    (gap : load assignment receiver + 2 ≤ load assignment (assignment item)) :
    Exchange owners (load assignment) (load (Function.update assignment item receiver))
      (assignment item) receiver := by
  have away : assignment item ≠ receiver := by
    rintro rfl
    omega
  have loads := load_update assignment away
  refine ⟨giver, member, most, least, gap, ?_, ?_, ?_⟩
  · simpa [away] using loads (assignment item)
  · simpa [away.symm] using loads receiver
  · intro owner notGiver notReceiver
    simpa [notGiver, notReceiver] using loads owner

/-- What shifts preserve: in addition, an owner that has not grown holds nothing new, and
one that has not shrunk holds all it had. -/
structure Leveling (owners : Finset Owner) (start assignment : Item → Owner) : Prop where
  within : ∀ item, assignment item ∈ owners
  directed : Directed owners (load start) (load assignment)
  shrinks : ∀ item, load assignment (assignment item) ≤ load start (assignment item) →
    start item = assignment item
  grows : ∀ item, load start (start item) ≤ load assignment (start item) →
    assignment item = start item

namespace Leveling

omit [DecidableEq Item] in
theorem refl (within : ∀ item, start item ∈ owners) : Leveling owners start start where
  within := within
  directed :=
    { gave := fun _ _ gives => absurd gives (Nat.lt_irrefl _)
      received := fun _ _ receives => absurd receives (Nat.lt_irrefl _)
      ordered := fun _ _ _ _ gives => absurd gives (Nat.lt_irrefl _) }
  shrinks := fun _ _ => rfl
  grows := fun _ _ => rfl

theorem shift (leveling : Leveling owners start assignment)
    (shift : Shift owners assignment next) : Leveling owners start next := by
  cases shift with
  | @move item receiver giver member most least gap =>
      have exchange := Shift.exchange giver member most least gap
      have onlyGives := leveling.directed.giver_le exchange
      have onlyReceives := leveling.directed.le_receiver exchange
      refine ⟨?_, leveling.directed.exchange exchange, ?_, ?_⟩
      · intro other
        by_cases same : other = item
        · subst same
          rw [Function.update_self]
          exact member
        · rw [Function.update_of_ne same]
          exact leveling.within other
      · intro other few
        by_cases same : other = item
        · -- the receiver has grown
          subst same
          rw [Function.update_self, exchange.receives] at few
          omega
        · rw [Function.update_of_ne same] at few ⊢
          by_cases gives : assignment other = assignment item
          · exact leveling.shrinks other (gives ▸ onlyGives)
          · by_cases receives : assignment other = receiver
            · rw [receives, exchange.receives] at few
              omega
            · rw [exchange.others _ gives receives] at few
              exact leveling.shrinks other few
      · intro other many
        have notGiver : start other ≠ assignment item := by
          intro gives
          have fewer := exchange.gives
          rw [gives] at many
          omega
        have before : assignment other = start other := by
          by_cases receives : start other = receiver
          · exact leveling.grows other (receives ▸ onlyReceives)
          · rw [exchange.others _ notGiver receives] at many
            exact leveling.grows other many
        have apart : other ≠ item := by
          rintro rfl
          exact notGiver before.symm
        rw [Function.update_of_ne apart]
        exact before

theorem run (leveling : Leveling owners start assignment)
    (shifts : Relation.ReflTransGen (Shift owners) assignment next) :
    Leveling owners start next := by
  induction shifts with
  | refl => exact leveling
  | tail _ shift inductionHypothesis => exact inductionHypothesis.shift shift

/-- What an owner holds only shrinks or only grows, so the differences are all that moved. -/
theorem moved_eq (leveling : Leveling owners start assignment)
    (within : ∀ item, start item ∈ owners) :
    moved start assignment = ∑ owner ∈ owners, (load start owner - load assignment owner) := by
  rw [moved_eq_sum within]
  refine Finset.sum_congr rfl fun owner _ => ?_
  rw [← card_held, ← card_held]
  rcases Nat.le_total (load assignment owner) (load start owner) with few | many
  · refine Finset.card_sdiff_of_subset fun item keeps => ?_
    have here := mem_held.mp keeps
    rw [mem_held, ← here]
    exact leveling.shrinks item (here ▸ few)
  · have kept : held start owner ⊆ held assignment owner := by
      intro item had
      have there := mem_held.mp had
      rw [mem_held, ← there]
      exact leveling.grows item (there ▸ many)
    rw [Finset.sdiff_eq_empty_iff_subset.mpr kept, Finset.card_empty,
      Nat.sub_eq_zero_of_le (Finset.card_le_card kept)]

theorem moved_le (leveling : Leveling owners start assignment)
    (level : Level owners (load assignment)) (within : ∀ item, start item ∈ owners)
    {other : Item → Owner} (otherWithin : ∀ item, other item ∈ owners)
    (otherLevel : Level owners (load other)) : moved start assignment ≤ moved start other := by
  have total : ∑ owner ∈ owners, load start owner = ∑ owner ∈ owners, load assignment owner := by
    rw [sum_load within, sum_load leveling.within]
  have otherTotal : ∑ owner ∈ owners, load start owner = ∑ owner ∈ owners, load other owner := by
    rw [sum_load within, sum_load otherWithin]
  -- both have the same two sizes
  have sizes : ∀ owner ∈ owners, Fintype.card Item / owners.card ≤ load assignment owner ∧
      load assignment owner ≤ Fintype.card Item / owners.card + 1 := by
    rw [← sum_load leveling.within]
    exact fun owner => level.bounds
  have otherSizes : ∀ owner ∈ owners, Fintype.card Item / owners.card ≤ load other owner ∧
      load other owner ≤ Fintype.card Item / owners.card + 1 := by
    rw [← sum_load otherWithin]
    exact fun owner => otherLevel.bounds
  rw [leveling.moved_eq within]
  refine le_trans ?_ (sum_sub_le_moved within other)
  by_cases large : ∀ giver ∈ owners, load assignment giver < load start giver →
      Fintype.card Item / owners.card + 1 ≤ load assignment giver
  · -- no owner gave more than it has to give anywhere
    refine Finset.sum_le_sum fun owner member => ?_
    have mine := large owner member
    have its := (otherSizes owner member).2
    omega
  · -- a giver is small, so no receiver took more than it has to take anywhere
    simp only [not_forall] at large
    obtain ⟨giver, member, gave, small⟩ := large
    rw [sum_sub_comm total, sum_sub_comm otherTotal]
    refine Finset.sum_le_sum fun owner among => ?_
    have ordered := leveling.directed.ordered giver member owner among gave
    have its := (otherSizes owner among).1
    omega

omit [DecidableEq Item] in
/-- If some of the owners held everything, and held it level, the others receive all
that moves. -/
theorem notMem_of_moved (leveling : Leveling owners start assignment) {old : Finset Owner}
    (subset : old ⊆ owners) (startWithin : ∀ item, start item ∈ old)
    (startLevel : Level old (load start)) {item : Item}
    (differs : start item ≠ assignment item) : assignment item ∉ old := by
  intro member
  have gave : load assignment (start item) < load start (start item) := by
    by_contra many
    exact differs (leveling.grows item (not_lt.mp many)).symm
  have received : load start (assignment item) < load assignment (assignment item) := by
    by_contra few
    exact differs (leveling.shrinks item (not_lt.mp few))
  have ordered := leveling.directed.ordered _ (subset (startWithin item)) _
    (leveling.within item) gave received
  have level := startLevel _ (startWithin item) _ member
  omega

end Leveling

end MultiRaft.Balance
