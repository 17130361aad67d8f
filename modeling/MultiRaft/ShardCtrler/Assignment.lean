import MultiRaft.ShardCtrler.StateMachine
import MultiRaft.Lib.Balance
import MultiRaft.Lib.Lists

/-!
# Who gets the shards

The tables that `Join` and `Leave` work on, by what they say about single shards,
and from that which gids a new configuration can name.
-/

namespace MultiRaft.ShardCtrler

variable {table : GidToShards} {gid other : Int} {shard moved : Shard} {shards : List Shard}

@[simp] theorem shardsOf_insert_self : shardsOf (table.insert gid shards) gid = shards := by
  simp [shardsOf]

@[simp] theorem shardsOf_insert_of_ne (away : other ≠ gid) :
    shardsOf (table.insert gid shards) other = shardsOf table other := by
  simp [shardsOf, AList.lookup_insert_ne away]

@[simp] theorem shardsOf_erase_self : shardsOf (table.erase gid) gid = [] := by
  simp [shardsOf]

@[simp] theorem shardsOf_erase_of_ne (away : other ≠ gid) :
    shardsOf (table.erase gid) other = shardsOf table other := by
  simp [shardsOf, AList.lookup_erase_ne away]

/-- A gid with shards is a key. -/
theorem mem_of_mem_shardsOf (held : shard ∈ shardsOf table gid) : gid ∈ table := by
  by_contra missing
  simp [shardsOf, AList.lookup_eq_none.mpr missing] at held

@[simp] theorem shardsOf_pushShard_self :
    shardsOf (pushShard table gid moved) gid = shardsOf table gid ++ [moved] :=
  shardsOf_insert_self

@[simp] theorem shardsOf_pushShard_of_ne (away : other ≠ gid) :
    shardsOf (pushShard table gid moved) other = shardsOf table other :=
  shardsOf_insert_of_ne away

theorem mem_shardsOf_pushShard : shard ∈ shardsOf (pushShard table gid moved) other ↔
    shard ∈ shardsOf table other ∨ (other = gid ∧ shard = moved) := by
  by_cases same : other = gid
  · subst same
    simp
  · simp [same]

theorem mem_pushShard : other ∈ pushShard table gid moved ↔ other = gid ∨ other ∈ table := by
  simp [pushShard]

section Gather

variable {groups : Groups} {array : Shard → Int}

/-- The loop that makes room for the groups adds their gids, without shards. -/
theorem foldl_insert_nil (keys : List Int) (start : GidToShards)
    (empty : ∀ key, shardsOf start key = []) :
    shardsOf (keys.foldl (fun table gid => table.insert gid []) start) gid = [] ∧
    (gid ∈ keys.foldl (fun table gid => table.insert gid []) start ↔
      gid ∈ keys ∨ gid ∈ start) := by
  induction keys generalizing start with
  | nil => exact ⟨empty gid, by simp⟩
  | cons key keys inductionHypothesis =>
      have still : ∀ other, shardsOf (start.insert key []) other = [] := by
        intro other
        by_cases same : other = key
        · subst same
          exact shardsOf_insert_self
        · rw [shardsOf_insert_of_ne same]
          exact empty other
      obtain ⟨none, member⟩ := inductionHypothesis (start.insert key []) still
      refine ⟨none, ?_⟩
      rw [List.foldl_cons, member, AList.mem_insert, List.mem_cons]
      tauto

/-- The loop over the shards appends to each gid its own, in order. -/
theorem foldl_pushShard (list : List Shard) (start : GidToShards) :
    shardsOf (list.foldl (fun table shard => pushShard table (array shard) shard) start) gid =
      shardsOf start gid ++ list.filter (fun shard => array shard = gid) ∧
    (gid ∈ list.foldl (fun table shard => pushShard table (array shard) shard) start ↔
      gid ∈ start ∨ ∃ shard ∈ list, array shard = gid) := by
  induction list generalizing start with
  | nil => simp
  | cons next list inductionHypothesis =>
      obtain ⟨appended, member⟩ := inductionHypothesis (pushShard start (array next) next)
      rw [List.foldl_cons, appended, member, mem_pushShard]
      by_cases same : gid = array next
      · subst same
        simp
      · simp [same, Ne.symm same]

theorem shardsOf_gatherShards : shardsOf (gatherShards groups array) gid =
    (List.finRange nShards).filter (fun shard => array shard = gid) := by
  rw [gatherShards, (foldl_pushShard _ _).1, (foldl_insert_nil _ _ fun _ => rfl).1]
  rfl

/-- The table that is gathered from an array lists every shard with its gid. -/
theorem mem_shardsOf_gatherShards :
    shard ∈ shardsOf (gatherShards groups array) gid ↔ array shard = gid := by
  simp [shardsOf_gatherShards]

theorem mem_gatherShards :
    gid ∈ gatherShards groups array ↔ gid ∈ groups ∨ ∃ shard, array shard = gid := by
  rw [gatherShards, (foldl_pushShard _ _).2, (foldl_insert_nil _ _ fun _ => rfl).2]
  simp [AList.mem_keys]

end Gather

/-- Every shard is listed under some gid. -/
def Covers (table : GidToShards) : Prop := ∀ shard, ∃ gid, shard ∈ shardsOf table gid

theorem covers_gatherShards (groups : Groups) (array : Shard → Int) :
    Covers (gatherShards groups array) :=
  fun shard => ⟨array shard, mem_shardsOf_gatherShards.mpr rfl⟩

/-- The stored gid of a shard is one that lists it. -/
theorem mem_shardsOf_storeShards (covers : Covers table) (shard : Shard) :
    shard ∈ shardsOf table (storeShards table shard) := by
  -- the writes of one gid
  have written : ∀ (gid : Int) (list : List Shard) (array : Shard → Int),
      (list.foldl (fun array shard => Function.update array shard gid) array) shard =
        if shard ∈ list then gid else array shard := by
    intro gid list
    induction list with
    | nil => simp
    | cons next list inductionHypothesis =>
        intro array
        rw [List.foldl_cons, inductionHypothesis]
        by_cases same : shard = next
        · subst same
          simp
        · simp [same]
  -- the writes of all gids: the array keeps its value, or names an entry with the shard
  have stored : ∀ (entries : List (Sigma fun _ : Int => List Shard)) (array : Shard → Int),
      (∃ entry ∈ entries, shard ∈ entry.2 ∧ entries.foldl (fun array entry =>
        entry.2.foldl (fun array shard => Function.update array shard entry.1) array) array shard =
          entry.1) ∨
      ((∀ entry ∈ entries, shard ∉ entry.2) ∧ entries.foldl (fun array entry =>
        entry.2.foldl (fun array shard => Function.update array shard entry.1) array) array shard =
          array shard) := by
    intro entries
    induction entries with
    | nil => simp
    | cons entry entries inductionHypothesis =>
        intro array
        rw [List.foldl_cons]
        rcases inductionHypothesis (entry.2.foldl
          (fun array shard => Function.update array shard entry.1) array) with
          ⟨later, held, named, result⟩ | ⟨none, result⟩
        · exact .inl ⟨later, List.mem_cons_of_mem _ held, named, result⟩
        · rw [result, written]
          by_cases named : shard ∈ entry.2
          · exact .inl ⟨entry, List.mem_cons_self, named, by simp [named]⟩
          · refine .inr ⟨?_, by simp [named]⟩
            intro other held
            rcases List.mem_cons.mp held with rfl | held
            · exact named
            · exact none other held
  rcases stored table.entries (fun _ => 0) with ⟨entry, held, named, result⟩ | ⟨none, -⟩
  · have found : table.lookup entry.1 = some entry.2 := AList.mem_lookup_iff.mpr held
    rw [storeShards, result, shardsOf, found]
    exact named
  · obtain ⟨gid, listed⟩ := covers shard
    obtain ⟨list, found⟩ := Option.isSome_iff_exists.mp
      (AList.lookup_isSome.mpr (mem_of_mem_shardsOf listed))
    rw [shardsOf, found] at listed
    exact absurd listed (none ⟨gid, list⟩ (AList.mem_lookup_iff.mp found))

theorem shardsOf_zero_of_max (nonzero : gidWithMaxShards table ≠ 0) : shardsOf table 0 = [] := by
  unfold gidWithMaxShards at nonzero
  split at nonzero
  · exact absurd rfl nonzero
  · rename_i empty
    exact List.eq_nil_of_length_eq_zero (by omega)

theorem mem_sortedGids : gid ∈ sortedGids table ↔ gid ∈ table := by
  rw [sortedGids, List.mem_insertionSort, AList.mem_keys]

/-- The test of the loop in `gidWithMaxShards`. -/
abbrev ExceedsBest (table : GidToShards) (gid best : Int) : Prop :=
  ((shardsOf table gid).length : Int) > best

/-- The test of the loop in `gidWithMinShards`. -/
abbrev BelowBest (table : GidToShards) (gid : Int) (best : Nat) : Prop :=
  gid ≠ 0 ∧ (shardsOf table gid).length < best

/-- With nothing in group 0, no group has more shards than the largest. -/
theorem length_le_max (none : shardsOf table 0 = []) (key : gid ∈ table) :
    (shardsOf table gid).length ≤ (shardsOf table (gidWithMaxShards table)).length := by
  have loop : gidWithMaxShards table = ((sortedGids table).foldl
      (keepBest (ExceedsBest table) fun gid => ((shardsOf table gid).length : Int)) (-1, -1)).1 := by
    simp only [gidWithMaxShards, none, List.length_nil, gt_iff_lt, Nat.lt_irrefl, if_false]
    rfl
  have refused := (not_takes_foldl_keepBest (ExceedsBest table)
    (fun gid => ((shardsOf table gid).length : Int)) (by intros; omega) (by intros; omega)
    (sortedGids table) (-1, -1)).2 gid (mem_sortedGids.mpr key)
  rw [loop]
  rcases foldl_keepBest_cases (ExceedsBest table) (fun gid => ((shardsOf table gid).length : Int))
    (sortedGids table) (-1, -1) with start | ⟨best, -, -, last⟩
  · rw [start] at refused
    omega
  · rw [last] at refused ⊢
    dsimp only at refused ⊢
    omega

/-- Group 0 is never the smallest, and no other key has fewer shards; the answer is -1
if every other key has more than `nShards`. -/
theorem gidWithMinShards_cases (table : GidToShards) :
    (gidWithMinShards table = -1 ∧
      ∀ gid ∈ table, gid ≠ 0 → nShards < (shardsOf table gid).length) ∨
    (gidWithMinShards table ≠ 0 ∧ gidWithMinShards table ∈ table ∧ ∀ gid ∈ table, gid ≠ 0 →
      (shardsOf table (gidWithMinShards table)).length ≤ (shardsOf table gid).length) := by
  have loop : gidWithMinShards table = ((sortedGids table).foldl
      (keepBest (BelowBest table) fun gid => (shardsOf table gid).length) (-1, nShards + 1)).1 := rfl
  have refused := (not_takes_foldl_keepBest (BelowBest table)
    (fun gid => (shardsOf table gid).length) (by intros; omega) (by intros; omega)
    (sortedGids table) (-1, nShards + 1)).2
  rw [loop]
  rcases foldl_keepBest_cases (BelowBest table) (fun gid => (shardsOf table gid).length)
    (sortedGids table) (-1, nShards + 1) with start | ⟨best, among, ⟨_, nonzero, -⟩, last⟩
  · rw [start] at refused ⊢
    refine .inl ⟨rfl, ?_⟩
    intro gid key nonzero
    have long := refused gid (mem_sortedGids.mpr key)
    omega
  · rw [last] at refused ⊢
    refine .inr ⟨nonzero, mem_sortedGids.mp among, ?_⟩
    intro gid key other
    exact not_lt.mp fun fewer => refused gid (mem_sortedGids.mpr key) ⟨other, fewer⟩

theorem min_length_le (key : gid ∈ table) (nonzero : gid ≠ 0)
    (small : (shardsOf table gid).length ≤ nShards) :
    (shardsOf table (gidWithMinShards table)).length ≤ (shardsOf table gid).length := by
  rcases gidWithMinShards_cases table with ⟨-, long⟩ | ⟨-, -, least⟩
  · exact absurd small (not_le.mpr (long gid key nonzero))
  · exact least gid key nonzero

theorem gidWithMinShards_ne_zero (table : GidToShards) : gidWithMinShards table ≠ 0 := by
  rcases gidWithMinShards_cases table with ⟨none, -⟩ | ⟨nonzero, -⟩
  · rw [none]
    decide
  · exact nonzero

/-- One round of the loop: a shard goes from the largest to the smallest group. -/
def moveFirst (gidToShards : GidToShards) (maxGid minGid : Int) (shard : Shard) : GidToShards :=
  let grown := pushShard gidToShards minGid shard
  grown.insert maxGid (shardsOf grown maxGid).tail

theorem shardsOf_moveFirst_giver {first : Shard} {rest : List Shard} (apart : gid ≠ other)
    (largest : shardsOf table gid = first :: rest) :
    shardsOf (moveFirst table gid other first) gid = rest := by
  simp [moveFirst, apart, largest]

theorem shardsOf_moveFirst_of_ne {holder : Int} (away : holder ≠ gid) (first : Shard) :
    shardsOf (moveFirst table gid other first) holder =
      shardsOf (pushShard table other first) holder :=
  shardsOf_insert_of_ne away

theorem covers_moveFirst (covers : Covers table) {first : Shard} {rest : List Shard}
    (largest : shardsOf table gid = first :: rest) :
    Covers (moveFirst table gid other first) := by
  intro shard
  obtain ⟨holder, held⟩ := covers shard
  by_cases same : other = gid
  · subst same
    refine ⟨if holder = other then other else holder, ?_⟩
    by_cases here : holder = other
    · subst here
      rw [largest] at held
      simp only [if_true, moveFirst, shardsOf_insert_self]
      simp only [shardsOf_pushShard_self, largest, List.cons_append, List.tail_cons,
        List.mem_append, List.mem_singleton]
      exact (List.mem_cons.mp held).symm
    · rw [if_neg here, shardsOf_moveFirst_of_ne here]
      exact mem_shardsOf_pushShard.mpr (.inl held)
  · by_cases here : holder = gid
    · subst here
      rw [largest] at held
      rcases List.mem_cons.mp held with rfl | later
      · refine ⟨other, ?_⟩
        rw [shardsOf_moveFirst_of_ne same]
        exact mem_shardsOf_pushShard.mpr (.inr ⟨rfl, rfl⟩)
      · refine ⟨holder, ?_⟩
        rw [shardsOf_moveFirst_giver (Ne.symm same) largest]
        exact later
    · refine ⟨holder, ?_⟩
      rw [shardsOf_moveFirst_of_ne here]
      exact mem_shardsOf_pushShard.mpr (.inl held)

theorem mem_moveFirst {holder : Int} {first : Shard} :
    holder ∈ moveFirst table gid other first ↔ holder = gid ∨ holder = other ∨ holder ∈ table := by
  rw [moveFirst, AList.mem_insert, mem_pushShard]

/-- What the loop ends with: no shard is lost, group 0 has none, and no gid but -1 is new. -/
theorem rebalance_spec {fuel : Nat} {balanced : GidToShards} (covers : Covers table)
    (done : rebalance fuel table = some balanced) :
    Covers balanced ∧ shardsOf balanced 0 = [] ∧
      ∀ gid ∈ balanced, gid ∈ table ∨ gid = -1 := by
  induction fuel generalizing table with
  | zero => cases done
  | succ fuel inductionHypothesis =>
      unfold rebalance at done
      dsimp only at done
      split at done
      · rename_i stops
        cases done
        exact ⟨covers, shardsOf_zero_of_max stops.1, fun gid held => .inl held⟩
      · split at done
        · cases done
        · rename_i first rest largest
          obtain ⟨covered, none, known⟩ := inductionHypothesis (covers_moveFirst covers largest) done
          refine ⟨covered, none, ?_⟩
          intro gid held
          rcases known gid held with round | new
          · rcases mem_moveFirst.mp round with rfl | rfl | old
            · exact .inl (mem_of_mem_shardsOf (largest ▸ List.mem_cons_self))
            · rcases gidWithMinShards_cases table with ⟨none, -⟩ | ⟨-, key, -⟩
              · exact .inr none
              · exact .inl key
            · exact .inl old
          · exact .inr new

theorem removeGids_concat (groups : Groups) (table : GidToShards) (gids : List Int) (gid : Int) :
    CtrlerStateMachine.removeGids groups table (gids ++ [gid]) =
      let before := CtrlerStateMachine.removeGids groups table gids
      (before.1.erase gid, before.2.1.erase gid, before.2.2 ++ shardsOf before.2.1 gid) := by
  rw [CtrlerStateMachine.removeGids, List.foldl_concat]
  rfl

/-- What one more round of the loop over the gids preserves holds after the loop. -/
theorem removeGids_induction {groups : Groups} {table : GidToShards}
    (holds : List Int → Groups → GidToShards → List Shard → Prop) (start : holds [] groups table [])
    (step : ∀ done groups table unassigned gid, holds done groups table unassigned →
      holds (done ++ [gid]) (groups.erase gid) (table.erase gid) (unassigned ++ shardsOf table gid))
    (gids : List Int) :
    holds gids (CtrlerStateMachine.removeGids groups table gids).1
      (CtrlerStateMachine.removeGids groups table gids).2.1
      (CtrlerStateMachine.removeGids groups table gids).2.2 := by
  induction gids using List.reverseRecOn with
  | nil => exact start
  | append_singleton done gid inductionHypothesis =>
      rw [removeGids_concat]
      exact step _ _ _ _ gid inductionHypothesis

/-- What the loop over the gids leaves and what it takes out. -/
theorem removeGids_spec (groups : Groups) (table : GidToShards) (gids : List Int) :
    (∀ gid, gid ∈ (CtrlerStateMachine.removeGids groups table gids).1 ↔
      gid ∈ groups ∧ gid ∉ gids) ∧
    (∀ gid, shardsOf (CtrlerStateMachine.removeGids groups table gids).2.1 gid =
      if gid ∈ gids then [] else shardsOf table gid) ∧
    (∀ shard, shard ∈ (CtrlerStateMachine.removeGids groups table gids).2.2 ↔
      ∃ gid ∈ gids, shard ∈ shardsOf table gid) := by
  refine removeGids_induction (fun done left remaining taken =>
    (∀ gid, gid ∈ left ↔ gid ∈ groups ∧ gid ∉ done) ∧
    (∀ gid, shardsOf remaining gid = if gid ∈ done then [] else shardsOf table gid) ∧
    (∀ shard, shard ∈ taken ↔ ∃ gid ∈ done, shard ∈ shardsOf table gid)) (by simp) ?_ gids
  rintro done left remaining taken removed ⟨known, kept, out⟩
  refine ⟨?_, ?_, ?_⟩
  · intro gid
    rw [AList.mem_erase, known, List.mem_append, List.mem_singleton]
    tauto
  · intro gid
    by_cases same : gid = removed
    · subst same
      simp
    · rw [shardsOf_erase_of_ne same, kept]
      simp [same]
  · -- a gid that is named again has nothing left to take out
    intro shard
    have named : (∃ gid ∈ done ++ [removed], shard ∈ shardsOf table gid) ↔
        (∃ gid ∈ done, shard ∈ shardsOf table gid) ∨ shard ∈ shardsOf table removed := by
      simp [or_and_right, exists_or]
    rw [List.mem_append, out, kept, named]
    by_cases again : removed ∈ done
    · rw [if_pos again]
      constructor
      · rintro (before | none)
        · exact .inl before
        · cases none
      · rintro (before | held)
        · exact .inl before
        · exact .inl ⟨removed, again, held⟩
    · rw [if_neg again]

/-- The loop of `Leave` over the shards it took out. -/
def reassign (unassigned : List Shard) (gidToShards : GidToShards) : GidToShards :=
  unassigned.foldl (fun table shard => pushShard table (gidWithMinShards table) shard) gidToShards

/-- The shards of groups that left go to other groups, never to group 0. -/
theorem reassign_spec (unassigned : List Shard) (table : GidToShards) :
    (∀ gid, ∀ shard ∈ shardsOf table gid, shard ∈ shardsOf (reassign unassigned table) gid) ∧
    (∀ shard ∈ unassigned, ∃ gid, shard ∈ shardsOf (reassign unassigned table) gid) ∧
    (shardsOf table 0 = [] → shardsOf (reassign unassigned table) 0 = []) := by
  induction unassigned generalizing table with
  | nil => simp [reassign]
  | cons first unassigned inductionHypothesis =>
      obtain ⟨kept, placed, none⟩ :=
        inductionHypothesis (pushShard table (gidWithMinShards table) first)
      refine ⟨?_, ?_, ?_⟩
      · intro gid shard held
        exact kept gid shard (mem_shardsOf_pushShard.mpr (.inl held))
      · intro shard held
        rcases List.mem_cons.mp held with rfl | later
        · exact ⟨_, kept _ _ (mem_shardsOf_pushShard.mpr (.inr ⟨rfl, rfl⟩))⟩
        · exact placed shard later
      · intro empty
        apply none
        rw [shardsOf_pushShard_of_ne (gidWithMinShards_ne_zero table).symm]
        exact empty

/-- The table that `Leave` stores if a group is left. -/
def leaveShards (groups : Groups) (shards : Shard → Int) (gids : List Int) : GidToShards :=
  let removed := CtrlerStateMachine.removeGids groups (gatherShards groups shards) gids
  reassign removed.2.2 removed.2.1

theorem covers_leaveShards (groups : Groups) (array : Shard → Int) (gids : List Int) :
    Covers (leaveShards groups array gids) := by
  obtain ⟨-, kept, taken⟩ := removeGids_spec groups (gatherShards groups array) gids
  intro shard
  have before : shard ∈ shardsOf (gatherShards groups array) (array shard) :=
    mem_shardsOf_gatherShards.mpr rfl
  by_cases leaves : array shard ∈ gids
  · exact (reassign_spec _ _).2.1 shard ((taken shard).mpr ⟨_, leaves, before⟩)
  · refine ⟨_, (reassign_spec _ _).1 (array shard) shard ?_⟩
    rw [kept, if_neg leaves]
    exact before

theorem shardsOf_leaveShards_zero {groups : Groups} {array : Shard → Int}
    (served : ∀ shard, array shard ≠ 0) (gids : List Int) :
    shardsOf (leaveShards groups array gids) 0 = [] := by
  obtain ⟨-, kept, -⟩ := removeGids_spec groups (gatherShards groups array) gids
  apply (reassign_spec _ _).2.2
  apply List.eq_nil_iff_forall_not_mem.mpr
  intro shard zero
  rw [kept] at zero
  split at zero
  · exact List.not_mem_nil zero
  · exact served shard (mem_shardsOf_gatherShards.mp zero)

/-- What holds of every configuration: gids of groups are positive; with a group there,
no shard is left to group 0; without one, no shard has a group. -/
structure Config.Assigned (config : Config) : Prop where
  positive : ∀ gid ∈ config.groups, 0 < gid
  served : ∀ gid ∈ config.groups, ∀ shard, config.shards shard ≠ 0
  unserved : (∀ gid, gid ∉ config.groups) → ∀ shard, config.shards shard ≤ 0

theorem assigned_default : defaultConfig.Assigned :=
  ⟨fun gid held => absurd held (AList.notMem_empty gid),
    fun gid held => absurd held (AList.notMem_empty gid), fun _ _ => Int.le_refl 0⟩

theorem keys_eq_nil {groups : Groups} : groups.keys = [] ↔ ∀ gid, gid ∉ groups := by
  rw [List.eq_nil_iff_forall_not_mem]
  rfl

/-- A stored shard is not group 0's when the table gives that group nothing. -/
theorem storeShards_ne_zero (covers : Covers table) (none : shardsOf table 0 = [])
    (shard : Shard) : storeShards table shard ≠ 0 := by
  intro zero
  have stored := mem_shardsOf_storeShards covers shard
  rw [zero, none] at stored
  exact List.not_mem_nil stored

namespace CtrlerStateMachine

variable {csm next : CtrlerStateMachine}

@[simp] theorem lastConfig_add (csm : CtrlerStateMachine) (shards : Shard → Int)
    (groups : Groups) : (csm.add shards groups).lastConfig =
      { num := csm.configs.length, shards, groups } := by
  simp [lastConfig, add]

theorem num_of_new (number : Nat) (config : Config) (found : new.configs[number]? = some config) :
    config.num = number := by
  cases number with
  | zero =>
      cases found
      rfl
  | succ number => cases found

/-- A new configuration is numbered by its place. -/
theorem num_of_add {shards : Shard → Int} {groups : Groups}
    (numbered : ∀ (number : Nat) (config : Config), csm.configs[number]? = some config →
      config.num = number) (number : Nat) (config : Config)
    (found : (csm.add shards groups).configs[number]? = some config) : config.num = number := by
  rcases getElem?_concat found with old | ⟨rfl, rfl⟩
  · exact numbered number config old
  · rfl

/-- A group that is there keeps its servers, and one that joins brings its own. -/
theorem lookup_joinGroups (old joining : Groups) (gid : Int) :
    (joinGroups old joining).lookup gid = (old.lookup gid).or (joining.lookup gid) := by
  have loop : ∀ (entries : List (Sigma fun _ : Int => List String)) (groups : Groups),
      entries.NodupKeys →
      (entries.foldl (fun groups entry =>
        if (groups.lookup entry.1).isSome then groups else groups.insert entry.1 entry.2)
        groups).lookup gid = (groups.lookup gid).or (entries.dlookup gid) := by
    intro entries
    induction entries with
    | nil => intro groups _; simp
    | cons entry entries inductionHypothesis =>
        intro groups nodup
        obtain ⟨fresh, rest⟩ := List.nodupKeys_cons.mp nodup
        rw [List.foldl_cons, inductionHypothesis _ rest]
        obtain ⟨key, servers⟩ := entry
        by_cases same : gid = key
        · subst same
          have absent : entries.dlookup gid = none := List.dlookup_eq_none.mpr fresh
          cases found : groups.lookup gid with
          | none => simp [absent]
          | some present => simp [found]
        · rw [List.dlookup_cons_ne _ _ same]
          split
          · rfl
          · rw [AList.lookup_insert_ne same]
  exact loop joining.entries old joining.nodupKeys

theorem mem_joinGroups {old joining : Groups} :
    gid ∈ joinGroups old joining ↔ gid ∈ old ∨ gid ∈ joining := by
  rw [← AList.lookup_isSome, lookup_joinGroups, Option.isSome_or, Bool.or_eq_true,
    AList.lookup_isSome, AList.lookup_isSome]

theorem join_assigned {groups : Groups} (assigned : csm.lastConfig.Assigned)
    (positive : ∀ gid ∈ groups.keys, 0 < gid) (joined : csm.join groups = some next) :
    next.lastConfig.Assigned := by
  obtain ⟨balanced, done, added⟩ := Option.bind_eq_some_iff.mp joined
  cases added
  obtain ⟨covers, none, known⟩ := rebalance_spec (covers_gatherShards _ _) done
  rw [lastConfig_add]
  refine ⟨?_, fun _ _ => storeShards_ne_zero covers none, ?_⟩
  · intro gid held
    rcases mem_joinGroups.mp held with old | new
    · exact assigned.positive gid old
    · exact positive gid (AList.mem_keys.mp new)
  · intro empty shard
    have gone : ∀ gid, gid ∉ csm.lastConfig.groups :=
      fun gid held => empty gid (mem_joinGroups.mpr (.inl held))
    rcases known _ (mem_of_mem_shardsOf (mem_shardsOf_storeShards covers shard)) with old | new
    · rcases mem_gatherShards.mp old with group | ⟨holder, owned⟩
      · exact absurd group (empty _)
      · have nobody := assigned.unserved gone holder
        dsimp only at owned ⊢
        omega
    · dsimp only
      omega

/-- `Leave` stores the table, or gives every shard to group 0 if no group is left. -/
theorem leave_cases (csm : CtrlerStateMachine) (gids : List Int) :
    let removed := removeGids csm.lastConfig.groups
      (gatherShards csm.lastConfig.groups csm.lastConfig.shards) gids
    (removed.1.keys ≠ [] ∧ csm.leave gids = csm.add
      (storeShards (leaveShards csm.lastConfig.groups csm.lastConfig.shards gids)) removed.1) ∨
    (removed.1.keys = [] ∧ csm.leave gids = csm.add (fun _ => 0) removed.1) := by
  unfold leave
  dsimp only
  split
  · rename_i some_left
    exact .inl ⟨fun none => some_left (List.length_eq_zero_iff.mpr none), rfl⟩
  · rename_i none_left
    exact .inr ⟨List.length_eq_zero_iff.mp (not_not.mp none_left), rfl⟩

theorem leave_assigned {gids : List Int} (assigned : csm.lastConfig.Assigned) :
    (csm.leave gids).lastConfig.Assigned := by
  have known : ∀ gid, gid ∈ (removeGids csm.lastConfig.groups
      (gatherShards csm.lastConfig.groups csm.lastConfig.shards) gids).1 →
      gid ∈ csm.lastConfig.groups :=
    fun gid held => (((removeGids_spec _ _ gids).1 gid).mp held).1
  rcases csm.leave_cases gids with ⟨some_left, left⟩ | ⟨none_left, left⟩
  · rw [left, lastConfig_add]
    refine ⟨fun gid held => assigned.positive gid (known gid held), ?_, ?_⟩
    · -- with a group left, the old configuration gave group 0 nothing
      intro gid held
      exact storeShards_ne_zero (covers_leaveShards _ _ _)
        (shardsOf_leaveShards_zero (assigned.served gid (known gid held)) gids)
    · exact fun empty => absurd (keys_eq_nil.mpr empty) some_left
  · rw [left, lastConfig_add]
    have empty := keys_eq_nil.mp none_left
    exact ⟨fun gid held => absurd held (empty gid), fun gid held => absurd held (empty gid),
      fun _ _ => Int.le_refl 0⟩

theorem move_assigned {shard : Shard} (assigned : csm.lastConfig.Assigned)
    (group : gid ∈ csm.lastConfig.groups.keys) : (csm.move shard gid).lastConfig.Assigned := by
  have held : gid ∈ csm.lastConfig.groups := AList.mem_keys.mpr group
  rw [move, lastConfig_add]
  refine ⟨assigned.positive, ?_, fun empty => absurd held (empty gid)⟩
  intro other _ moved
  by_cases here : moved = shard
  · subst here
    have positive := assigned.positive gid held
    dsimp only
    rw [Function.update_self]
    omega
  · dsimp only
    rw [Function.update_of_ne here]
    exact assigned.served gid held moved

end CtrlerStateMachine

end MultiRaft.ShardCtrler
