import MultiRaft.ShardCtrler.Assignment
import MultiRaft.Lib.Leveling
import MultiRaft.Lib.System

/-!
# Valid configurations

A configuration is valid if every shard is with a group that is there, or if no group
is there and every shard is with group 0.  The tables that `Join` and `Leave` work on
list every shard at most once, so they stand for arrays.  Once group 0 is empty, the
rounds of `Join` shift shards from a largest to a smallest group, and so they end.
-/

namespace MultiRaft.ShardCtrler

open Balance (load imbalance Level Shift)

variable {table : GidToShards} {gid other : Int} {shard first : Shard} {rest : List Shard}
  {groups : Groups}

structure Orderly (table : GidToShards) : Prop where
  nodup : ∀ gid, (shardsOf table gid).Nodup
  single : ∀ {gid other shard}, shard ∈ shardsOf table gid → shard ∈ shardsOf table other →
    gid = other

theorem orderly_gatherShards (groups : Groups) (array : Shard → Int) :
    Orderly (gatherShards groups array) := by
  refine ⟨fun gid => ?_, fun here there => ?_⟩
  · rw [shardsOf_gatherShards]
    exact (List.nodup_finRange _).filter _
  · exact (mem_shardsOf_gatherShards.mp here).symm.trans (mem_shardsOf_gatherShards.mp there)

namespace Orderly

theorem length_le (orderly : Orderly table) (gid : Int) :
    (shardsOf table gid).length ≤ nShards :=
  (orderly.nodup gid).length_le_card.trans_eq (Fintype.card_fin _)

/-- A table that lists every shard once stands for one array. -/
theorem mem_iff (orderly : Orderly table) (covers : Covers table) :
    shard ∈ shardsOf table gid ↔ storeShards table shard = gid := by
  constructor
  · exact fun listed => orderly.single (mem_shardsOf_storeShards covers shard) listed
  · rintro rfl
    exact mem_shardsOf_storeShards covers shard

theorem length_eq (orderly : Orderly table) (covers : Covers table) (gid : Int) :
    (shardsOf table gid).length = load (storeShards table) gid := by
  rw [load, ← List.toFinset_card_of_nodup (orderly.nodup gid)]
  congr 1
  ext shard
  simp [orderly.mem_iff covers]

theorem pushShard (orderly : Orderly table) (absent : ∀ gid, shard ∉ shardsOf table gid)
    (gid : Int) : Orderly (pushShard table gid shard) := by
  refine ⟨fun other => ?_, fun {one two} moved here there => ?_⟩
  · by_cases same : other = gid
    · subst same
      rw [shardsOf_pushShard_self]
      exact (orderly.nodup other).append (List.nodup_singleton shard)
        (List.disjoint_singleton.mpr (absent other))
    · rw [shardsOf_pushShard_of_ne same]
      exact orderly.nodup other
  · rcases mem_shardsOf_pushShard.mp here with old | ⟨rfl, rfl⟩ <;>
      rcases mem_shardsOf_pushShard.mp there with also | ⟨rfl, same⟩
    · exact orderly.single old also
    · exact absurd (same ▸ old) (absent _)
    · exact absurd also (absent _)
    · rfl

theorem erase (orderly : Orderly table) (gid : Int) : Orderly (table.erase gid) := by
  have sub : ∀ other shard, shard ∈ shardsOf (table.erase gid) other →
      shard ∈ shardsOf table other := by
    intro other shard held
    by_cases same : other = gid
    · subst same
      simp at held
    · rwa [shardsOf_erase_of_ne same] at held
  refine ⟨fun other => ?_, fun here there => orderly.single (sub _ _ here) (sub _ _ there)⟩
  by_cases same : other = gid
  · subst same
    rw [shardsOf_erase_self]
    exact List.nodup_nil
  · rw [shardsOf_erase_of_ne same]
    exact orderly.nodup other

/-- After a round the shard is with the smallest group, and the rest is as before. -/
theorem mem_shardsOf_moveFirst (orderly : Orderly table) (apart : gid ≠ other)
    (largest : shardsOf table gid = first :: rest) {holder : Int} :
    shard ∈ shardsOf (moveFirst table gid other first) holder ↔
      if shard = first then holder = other else shard ∈ shardsOf table holder := by
  have held : first ∈ shardsOf table gid := largest ▸ List.mem_cons_self
  by_cases giver : holder = gid
  · subst giver
    have fresh : first ∉ rest := (List.nodup_cons.mp (largest ▸ orderly.nodup holder)).1
    rw [shardsOf_moveFirst_giver apart largest, largest]
    split
    · rename_i same
      subst same
      exact iff_of_false fresh apart
    · rename_i differs
      simp [differs]
  · rw [shardsOf_moveFirst_of_ne giver, mem_shardsOf_pushShard]
    split
    · rename_i same
      subst same
      have gone : shard ∉ shardsOf table holder := fun also => giver (orderly.single also held)
      simp [gone]
    · rename_i differs
      simp [differs]

theorem moveFirst (orderly : Orderly table) (apart : gid ≠ other)
    (largest : shardsOf table gid = first :: rest) :
    Orderly (moveFirst table gid other first) := by
  have held : first ∈ shardsOf table gid := largest ▸ List.mem_cons_self
  refine ⟨fun holder => ?_, fun {one two shard} here there => ?_⟩
  · by_cases giver : holder = gid
    · subst giver
      rw [shardsOf_moveFirst_giver apart largest]
      exact (List.nodup_cons.mp (largest ▸ orderly.nodup holder)).2
    · rw [shardsOf_moveFirst_of_ne giver]
      by_cases receiver : holder = other
      · subst receiver
        have gone : first ∉ shardsOf table holder := fun also => giver (orderly.single also held)
        rw [shardsOf_pushShard_self]
        exact (orderly.nodup holder).append (List.nodup_singleton first)
          (List.disjoint_singleton.mpr gone)
      · rw [shardsOf_pushShard_of_ne receiver]
        exact orderly.nodup holder
  · rw [orderly.mem_shardsOf_moveFirst apart largest] at here there
    by_cases same : shard = first
    · rw [if_pos same] at here there
      rw [here, there]
    · rw [if_neg same] at here there
      exact orderly.single here there

theorem storeShards_moveFirst (orderly : Orderly table) (covers : Covers table)
    (apart : gid ≠ other) (largest : shardsOf table gid = first :: rest) :
    storeShards (ShardCtrler.moveFirst table gid other first) =
      Function.update (storeShards table) first other := by
  funext shard
  rw [← (orderly.moveFirst apart largest).mem_iff (covers_moveFirst covers largest),
    orderly.mem_shardsOf_moveFirst apart largest]
  by_cases same : shard = first
  · subst same
    rw [if_pos rfl, Function.update_self]
  · rw [if_neg same, Function.update_of_ne same]
    exact (orderly.mem_iff covers).mpr rfl

end Orderly

/-- Group 0 aside, the keys of the table are the groups. -/
def Keyed (table : GidToShards) (groups : Groups) : Prop :=
  ∀ gid, gid ≠ 0 → (gid ∈ table ↔ gid ∈ groups)

theorem keyed_gatherShards {array : Shard → Int}
    (served : ∀ shard, array shard = 0 ∨ array shard ∈ groups) :
    Keyed (gatherShards groups array) groups := by
  intro gid nonzero
  rw [mem_gatherShards]
  constructor
  · rintro (group | ⟨shard, rfl⟩)
    · exact group
    · exact (served shard).resolve_left nonzero
  · exact .inl

namespace Keyed

theorem pushShard (keyed : Keyed table groups) (key : gid ∈ table) (shard : Shard) :
    Keyed (pushShard table gid shard) groups := by
  intro holder nonzero
  rw [mem_pushShard, ← keyed holder nonzero]
  constructor
  · rintro (rfl | known)
    · exact key
    · exact known
  · exact .inr

theorem moveFirst (keyed : Keyed table groups) (giver : gid ∈ table) (receiver : other ∈ table)
    (first : Shard) : Keyed (moveFirst table gid other first) groups := by
  intro holder nonzero
  rw [mem_moveFirst, ← keyed holder nonzero]
  constructor
  · rintro (rfl | rfl | known)
    · exact giver
    · exact receiver
    · exact known
  · exact fun known => .inr (.inr known)

theorem erase (keyed : Keyed table groups) (gid : Int) :
    Keyed (table.erase gid) (groups.erase gid) := by
  intro holder nonzero
  rw [AList.mem_erase, AList.mem_erase, keyed holder nonzero]

/-- With a group there, the smallest group is one of them and not the marker -1. -/
theorem min_mem (keyed : Keyed table groups) (orderly : Orderly table) (group : gid ∈ groups)
    (nonzero : gid ≠ 0) : gidWithMinShards table ∈ table := by
  rcases gidWithMinShards_cases table with ⟨-, long⟩ | ⟨-, key, -⟩
  · have small := orderly.length_le gid
    have large := long gid ((keyed gid nonzero).mpr group) nonzero
    omega
  · exact key

theorem storeShards_mem (keyed : Keyed table groups) (covers : Covers table)
    (none : shardsOf table 0 = []) (shard : Shard) : storeShards table shard ∈ groups := by
  have key := mem_of_mem_shardsOf (mem_shardsOf_storeShards covers shard)
  exact (keyed _ (storeShards_ne_zero covers none shard)).mp key

end Keyed

/-- The groups that shards can go to. -/
def takers (groups : Groups) : Finset Int := groups.keys.toFinset.erase 0

theorem mem_takers : gid ∈ takers groups ↔ gid ≠ 0 ∧ gid ∈ groups := by
  rw [takers, Finset.mem_erase, List.mem_toFinset, AList.mem_keys]

theorem rebalance_round (fuel : Nat)
    (goesOn : ¬(gidWithMaxShards table ≠ 0 ∧
      ((shardsOf table (gidWithMaxShards table)).length : Int) -
        (shardsOf table (gidWithMinShards table)).length ≤ 1))
    (largest : shardsOf table (gidWithMaxShards table) = first :: rest) :
    rebalance (fuel + 1) table =
      rebalance fuel (moveFirst table (gidWithMaxShards table) (gidWithMinShards table) first) := by
  rw [rebalance]
  dsimp only
  rw [if_neg goesOn]
  simp only [largest]
  rfl

/-- The tables of the loop. -/
structure Balancing (table : GidToShards) (groups : Groups) : Prop where
  covers : Covers table
  orderly : Orderly table
  keyed : Keyed table groups
  served : ∃ gid ∈ groups, gid ≠ 0

/-- A table that the loop of `Join` can end with. -/
structure Balanced (table : GidToShards) (groups : Groups) : Prop extends
    Balancing table groups where
  none : shardsOf table 0 = []

namespace Balancing

theorem min_mem (balancing : Balancing table groups) : gidWithMinShards table ∈ table := by
  obtain ⟨gid, group, nonzero⟩ := balancing.served
  exact balancing.keyed.min_mem balancing.orderly group nonzero

theorem moveFirst (balancing : Balancing table groups) (apart : gid ≠ gidWithMinShards table)
    (largest : shardsOf table gid = first :: rest) :
    Balancing (moveFirst table gid (gidWithMinShards table) first) groups where
  covers := covers_moveFirst balancing.covers largest
  orderly := balancing.orderly.moveFirst apart largest
  keyed := balancing.keyed.moveFirst (mem_of_mem_shardsOf (largest ▸ List.mem_cons_self))
    balancing.min_mem first
  served := balancing.served

/-- Some group has a shard, so the largest one has. -/
theorem max_length (balancing : Balancing table groups) (none : shardsOf table 0 = []) :
    0 < (shardsOf table (gidWithMaxShards table)).length := by
  obtain ⟨gid, held⟩ := balancing.covers ⟨0, by decide⟩
  exact (List.length_pos_of_mem held).trans_le (length_le_max none (mem_of_mem_shardsOf held))

/-- With nothing in group 0, a key is a group that has or takes shards. -/
theorem mem_takers (balancing : Balancing table groups) (key : gid ∈ table) (nonzero : gid ≠ 0) :
    gid ∈ takers groups :=
  ShardCtrler.mem_takers.mpr ⟨nonzero, (balancing.keyed gid nonzero).mp key⟩

theorem mem_of_taker (balancing : Balancing table groups) (taker : gid ∈ takers groups) :
    gid ∈ table ∧ gid ≠ 0 := by
  obtain ⟨nonzero, group⟩ := ShardCtrler.mem_takers.mp taker
  exact ⟨(balancing.keyed gid nonzero).mpr group, nonzero⟩

theorem le_max (balancing : Balancing table groups) (none : shardsOf table 0 = [])
    (taker : gid ∈ takers groups) :
    load (storeShards table) gid ≤ load (storeShards table) (gidWithMaxShards table) := by
  rw [← balancing.orderly.length_eq balancing.covers, ← balancing.orderly.length_eq balancing.covers]
  exact length_le_max none (balancing.mem_of_taker taker).1

theorem min_le (balancing : Balancing table groups) (taker : gid ∈ takers groups) :
    load (storeShards table) (gidWithMinShards table) ≤ load (storeShards table) gid := by
  rw [← balancing.orderly.length_eq balancing.covers, ← balancing.orderly.length_eq balancing.covers]
  obtain ⟨key, nonzero⟩ := balancing.mem_of_taker taker
  exact min_length_le key nonzero (balancing.orderly.length_le gid)

/-- With nothing in group 0, the loop stops at loads that are level, and shifts a shard
at others. -/
theorem round (balancing : Balancing table groups) (none : shardsOf table 0 = []) :
    (Level (takers groups) (load (storeShards table)) ∧
      ∀ fuel, rebalance (fuel + 1) table = some table) ∨
    ∃ next, Balancing next groups ∧ shardsOf next 0 = [] ∧
      Shift (takers groups) (storeShards table) (storeShards next) ∧
      ∀ fuel, rebalance (fuel + 1) table = rebalance fuel next := by
  have some_left := balancing.max_length none
  have nonzero : gidWithMaxShards table ≠ 0 := by
    intro zero
    rw [zero, none] at some_left
    exact Nat.lt_irrefl 0 some_left
  obtain ⟨first, rest, largest⟩ := List.exists_cons_of_length_pos some_left
  have lengths := balancing.orderly.length_eq balancing.covers
  by_cases stops : ((shardsOf table (gidWithMaxShards table)).length : Int) -
      (shardsOf table (gidWithMinShards table)).length ≤ 1
  · refine .inl ⟨?_, fun fuel => ?_⟩
    · intro gid taker other among
      have above := balancing.le_max none taker
      have below := balancing.min_le among
      rw [lengths, lengths] at stops
      omega
    · rw [ShardCtrler.rebalance]
      exact if_pos ⟨nonzero, stops⟩
  · have apart : gidWithMaxShards table ≠ gidWithMinShards table := by
      intro same
      rw [same] at stops
      omega
    have owner : storeShards table first = gidWithMaxShards table :=
      (balancing.orderly.mem_iff balancing.covers).mp (largest ▸ List.mem_cons_self)
    refine .inr ⟨_, balancing.moveFirst apart largest, ?_, ?_, ?_⟩
    · rw [shardsOf_moveFirst_of_ne nonzero.symm,
        shardsOf_pushShard_of_ne (gidWithMinShards_ne_zero table).symm]
      exact none
    · rw [balancing.orderly.storeShards_moveFirst balancing.covers apart largest]
      refine .move ?_ (balancing.mem_takers balancing.min_mem (gidWithMinShards_ne_zero table))
        ?_ (fun gid => balancing.min_le) ?_
      · rw [owner]
        exact balancing.mem_takers (mem_of_mem_shardsOf (largest ▸ List.mem_cons_self)) nonzero
      · rw [owner]
        exact fun gid => balancing.le_max none
      · rw [owner, ← lengths, ← lengths]
        omega
    · exact fun fuel => rebalance_round fuel (fun levels => stops levels.2) largest

/-- With nothing in group 0, the loop shifts shards until the loads are level. -/
theorem rebalance_of_none {fuel : Nat} (balancing : Balancing table groups)
    (none : shardsOf table 0 = []) (enough : imbalance (storeShards table) < 2 * fuel) :
    ∃ balanced, rebalance fuel table = some balanced ∧ Balanced balanced groups ∧
      Relation.ReflTransGen (Shift (takers groups)) (storeShards table) (storeShards balanced) ∧
      Level (takers groups) (load (storeShards balanced)) := by
  induction fuel generalizing table with
  | zero => exact absurd enough (Nat.not_lt_zero _)
  | succ fuel inductionHypothesis =>
      rcases balancing.round none with ⟨level, stops⟩ | ⟨next, still, empty, shift, goesOn⟩
      · exact ⟨table, stops fuel, { balancing with none }, .refl, level⟩
      · have closer := shift.imbalance_le
        obtain ⟨balanced, done, result, shifts, level⟩ :=
          inductionHypothesis still empty (by omega)
        exact ⟨balanced, (goesOn fuel).trans done, result, .head shift shifts, level⟩

/-- Group 0 gives its shards away first. -/
theorem rebalance {fuel : Nat} (balancing : Balancing table groups)
    (enough : (shardsOf table 0).length + nShards * nShards ≤ fuel) :
    ∃ balanced, rebalance fuel table = some balanced ∧ Balanced balanced groups ∧
      Level (takers groups) (load (storeShards balanced)) := by
  have positive : 0 < nShards * nShards := by decide
  induction fuel generalizing table with
  | zero => omega
  | succ fuel inductionHypothesis =>
      cases zero : shardsOf table 0 with
      | nil =>
          have bound : imbalance (storeShards table) ≤ nShards * nShards := by
            simpa using Balance.imbalance_le (storeShards table)
          obtain ⟨balanced, done, result, -, level⟩ :=
            balancing.rebalance_of_none zero (show _ < 2 * (fuel + 1) by omega)
          exact ⟨balanced, done, result, level⟩
      | cons first rest =>
          have max : gidWithMaxShards table = 0 := by
            rw [gidWithMaxShards, zero]
            exact if_pos (Nat.succ_pos _)
          have apart : 0 ≠ gidWithMinShards table := (gidWithMinShards_ne_zero table).symm
          have fewer := shardsOf_moveFirst_giver apart zero
          rw [zero, List.length_cons] at enough
          obtain ⟨balanced, done, result, level⟩ :=
            inductionHypothesis (balancing.moveFirst apart zero) (by rw [fewer]; omega)
          refine ⟨balanced, ?_, result, level⟩
          rw [rebalance_round fuel (fun stops => stops.1 max) (max ▸ zero), max]
          exact done

end Balancing

/-- The keys of a table as groups. -/
def tableGroups (table : GidToShards) : Groups where
  entries := table.keys.map fun gid => ⟨gid, []⟩
  nodupKeys := by
    rw [List.NodupKeys, List.keys, List.map_map]
    simpa [Function.comp_def] using table.keys_nodup

theorem keyed_tableGroups (table : GidToShards) : Keyed table (tableGroups table) := by
  intro gid _
  rw [AList.mem_keys, AList.mem_keys]
  simp [tableGroups, AList.keys, List.keys]

/-- Whatever the groups are, the loop of `Join` comes to an end.  If group 0 is all there
is, it gives a shard to the marker -1, which is a group from then on. -/
theorem exists_rebalance (covers : Covers table) (orderly : Orderly table) :
    ∃ balanced, rebalance (nShards + nShards * nShards) table = some balanced ∧
      Covers balanced ∧ Orderly balanced := by
  have room := orderly.length_le 0
  by_cases served : ∃ gid ∈ table, gid ≠ 0
  · obtain ⟨gid, key, nonzero⟩ := served
    have start : Balancing table (tableGroups table) :=
      ⟨covers, orderly, keyed_tableGroups table, gid, (keyed_tableGroups table gid nonzero).mp key,
        nonzero⟩
    obtain ⟨balanced, done, result, -⟩ := start.rebalance (Nat.add_le_add_right room _)
    exact ⟨balanced, done, result.covers, result.orderly⟩
  · have only : ∀ gid ∈ table, gid = 0 := fun gid key => by
      by_contra nonzero
      exact served ⟨gid, key, nonzero⟩
    obtain ⟨holder, held⟩ := covers ⟨0, by decide⟩
    rw [only holder (mem_of_mem_shardsOf held)] at held
    obtain ⟨first, rest, zero⟩ := List.exists_cons_of_length_pos (List.length_pos_of_mem held)
    have max : gidWithMaxShards table = 0 := by
      rw [gidWithMaxShards, zero]
      exact if_pos (Nat.succ_pos _)
    have apart : 0 ≠ gidWithMinShards table := (gidWithMinShards_ne_zero table).symm
    have marked : gidWithMinShards table ∈
        moveFirst table 0 (gidWithMinShards table) first := mem_moveFirst.mpr (.inr (.inl rfl))
    have start : Balancing (moveFirst table 0 (gidWithMinShards table) first)
        (tableGroups (moveFirst table 0 (gidWithMinShards table) first)) :=
      ⟨covers_moveFirst covers zero, orderly.moveFirst apart zero, keyed_tableGroups _,
        _, (keyed_tableGroups _ _ apart.symm).mp marked, apart.symm⟩
    have fewer := shardsOf_moveFirst_giver apart zero
    rw [zero, List.length_cons] at room
    obtain ⟨balanced, done, result, -⟩ := start.rebalance
      (show _ ≤ nShards - 1 + nShards * nShards by rw [fewer]; omega)
    refine ⟨balanced, ?_, result.covers, result.orderly⟩
    rw [show nShards + nShards * nShards = nShards - 1 + nShards * nShards + 1 from rfl,
      rebalance_round _ (fun stops => stops.1 max) (max ▸ zero), max]
    exact done

/-- Shards that were taken out of a table: each once, and in no list any more. -/
structure Detached (table : GidToShards) (unassigned : List Shard) : Prop where
  orderly : Orderly table
  nodup : unassigned.Nodup
  absent : ∀ shard ∈ unassigned, ∀ gid, shard ∉ shardsOf table gid

variable {unassigned : List Shard}

theorem Detached.erase (detached : Detached table unassigned) (gid : Int) :
    Detached (table.erase gid) (unassigned ++ shardsOf table gid) where
  orderly := detached.orderly.erase gid
  nodup := detached.nodup.append (detached.orderly.nodup gid)
    fun shard taken => detached.absent shard taken gid
  absent := by
    intro shard taken other
    by_cases same : other = gid
    · subst same
      rw [shardsOf_erase_self]
      exact List.not_mem_nil
    · rw [shardsOf_erase_of_ne same]
      intro held
      rcases List.mem_append.mp taken with early | now
      · exact detached.absent shard early other held
      · exact same (detached.orderly.single held now)

theorem Detached.push (detached : Detached table (first :: unassigned)) (gid : Int) :
    Detached (pushShard table gid first) unassigned := by
  obtain ⟨orderly, nodup, absent⟩ := detached
  refine ⟨orderly.pushShard (absent first List.mem_cons_self) _, (List.nodup_cons.mp nodup).2, ?_⟩
  intro shard waiting holder held
  rcases mem_shardsOf_pushShard.mp held with old | ⟨-, rfl⟩
  · exact absent shard (List.mem_cons_of_mem _ waiting) holder old
  · exact (List.nodup_cons.mp nodup).1 waiting

theorem Detached.reassign (detached : Detached table unassigned) :
    Detached (reassign unassigned table) [] := by
  induction unassigned generalizing table with
  | nil => exact detached
  | cons first unassigned inductionHypothesis => exact inductionHypothesis (detached.push _)

/-- Whatever the groups are, `Leave` lists every shard at most once. -/
theorem orderly_leaveShards (groups : Groups) (array : Shard → Int) (gids : List Int) :
    Orderly (leaveShards groups array gids) := by
  have start : Detached (gatherShards groups array) [] :=
    ⟨orderly_gatherShards groups array, List.nodup_nil,
      fun _ taken => absurd taken List.not_mem_nil⟩
  have removed : Detached (CtrlerStateMachine.removeGids groups (gatherShards groups array) gids).2.1
      (CtrlerStateMachine.removeGids groups (gatherShards groups array) gids).2.2 :=
    removeGids_induction (fun _ _ table unassigned => Detached table unassigned) start
      (fun _ _ _ _ gid detached => detached.erase gid) gids
  exact removed.reassign.orderly

/-- The state of the loop over the gids: a shard taken out is in no list. -/
structure Leaving (table : GidToShards) (groups : Groups) (unassigned : List Shard) : Prop where
  orderly : Orderly table
  keyed : Keyed table groups
  nodup : unassigned.Nodup
  absent : ∀ shard ∈ unassigned, ∀ gid, shard ∉ shardsOf table gid

theorem Leaving.detached (leaving : Leaving table groups unassigned) :
    Detached table unassigned :=
  ⟨leaving.orderly, leaving.nodup, leaving.absent⟩

theorem Detached.leaving (detached : Detached table unassigned) (keyed : Keyed table groups) :
    Leaving table groups unassigned :=
  ⟨detached.orderly, keyed, detached.nodup, detached.absent⟩

theorem Leaving.erase (leaving : Leaving table groups unassigned) (gid : Int) :
    Leaving (table.erase gid) (groups.erase gid) (unassigned ++ shardsOf table gid) :=
  (leaving.detached.erase gid).leaving (leaving.keyed.erase gid)

theorem Leaving.removeGids (leaving : Leaving table groups []) (gids : List Int) :
    Leaving (CtrlerStateMachine.removeGids groups table gids).2.1
      (CtrlerStateMachine.removeGids groups table gids).1
      (CtrlerStateMachine.removeGids groups table gids).2.2 :=
  removeGids_induction (fun _ groups table unassigned => Leaving table groups unassigned) leaving
    (fun _ _ _ _ gid leaving => leaving.erase gid) gids

/-- With a group left, a shard that was taken out goes to the smallest one. -/
theorem Leaving.push (leaving : Leaving table groups (first :: unassigned)) (group : gid ∈ groups)
    (nonzero : gid ≠ 0) :
    Leaving (pushShard table (gidWithMinShards table) first) groups unassigned :=
  (leaving.detached.push _).leaving
    (leaving.keyed.pushShard (leaving.keyed.min_mem leaving.orderly group nonzero) first)

theorem Leaving.reassign (leaving : Leaving table groups unassigned) (group : gid ∈ groups)
    (nonzero : gid ≠ 0) :
    Leaving (reassign unassigned table) groups [] := by
  induction unassigned generalizing table with
  | nil => exact leaving
  | cons first unassigned inductionHypothesis =>
      exact inductionHypothesis (leaving.push group nonzero)

theorem leaving_gatherShards {array : Shard → Int}
    (served : ∀ shard, array shard = 0 ∨ array shard ∈ groups) :
    Leaving (gatherShards groups array) groups [] :=
  ⟨orderly_gatherShards _ _, keyed_gatherShards served, List.nodup_nil,
    fun _ taken => absurd taken List.not_mem_nil⟩

/-- Every shard is with a group, or there is no group and every shard is with group 0. -/
def Config.Valid (config : Config) : Prop :=
  (config.groups.keys = [] ∧ ∀ shard, config.shards shard = 0) ∨
    ∀ shard, config.shards shard ∈ config.groups

theorem Config.Valid.served {config : Config} (valid : config.Valid) (shard : Shard) :
    config.shards shard = 0 ∨ config.shards shard ∈ config.groups := by
  rcases valid with ⟨-, zero⟩ | groups
  · exact .inl (zero shard)
  · exact .inr (groups shard)

namespace CtrlerStateMachine

variable {csm next : CtrlerStateMachine}

theorem mem_joinGroups_ne_zero (assigned : csm.lastConfig.Assigned)
    (joining : ∀ gid ∈ groups.keys, 0 < gid)
    (group : gid ∈ joinGroups csm.lastConfig.groups groups) : gid ≠ 0 := by
  rcases mem_joinGroups.mp group with old | new
  · exact (assigned.positive gid old).ne'
  · exact (joining gid (AList.mem_keys.mp new)).ne'

/-- The table that `Join` begins with, if there is a group that takes shards. -/
theorem balancing_gatherShards (valid : csm.lastConfig.Valid)
    (group : gid ∈ joinGroups csm.lastConfig.groups groups) (nonzero : gid ≠ 0) :
    Balancing (gatherShards (joinGroups csm.lastConfig.groups groups) csm.lastConfig.shards)
      (joinGroups csm.lastConfig.groups groups) := by
  refine ⟨covers_gatherShards _ _, orderly_gatherShards _ _, keyed_gatherShards ?_,
    gid, group, nonzero⟩
  intro shard
  exact (valid.served shard).imp_right fun served => mem_joinGroups.mpr (.inl served)

theorem join_eq {table : GidToShards} (done : rebalance (nShards + nShards * nShards)
      (gatherShards (joinGroups csm.lastConfig.groups groups) csm.lastConfig.shards) =
        some table) :
    csm.join groups =
      some (csm.add (storeShards table) (joinGroups csm.lastConfig.groups groups)) := by
  rw [join, done]
  rfl

/-- `Join` comes to an end, with every shard at a group, if there is a group. -/
theorem join_valid (valid : csm.lastConfig.Valid) (assigned : csm.lastConfig.Assigned)
    (joining : ∀ gid ∈ groups.keys, 0 < gid)
    (some_group : (joinGroups csm.lastConfig.groups groups).keys ≠ []) :
    ∃ shards, csm.join groups =
        some (csm.add shards (joinGroups csm.lastConfig.groups groups)) ∧
      ∀ shard, shards shard ∈ joinGroups csm.lastConfig.groups groups := by
  obtain ⟨gid, group⟩ := List.exists_mem_of_ne_nil _ some_group
  have start := balancing_gatherShards valid group (mem_joinGroups_ne_zero assigned joining group)
  obtain ⟨balanced, done, result, -⟩ :=
    start.rebalance (Nat.add_le_add_right (start.orderly.length_le 0) _)
  exact ⟨_, join_eq done, result.keyed.storeShards_mem result.covers result.none⟩

theorem leave_valid (valid : csm.lastConfig.Valid) (assigned : csm.lastConfig.Assigned)
    (gids : List Int) : (csm.leave gids).lastConfig.Valid := by
  obtain ⟨known, -, -⟩ := removeGids_spec csm.lastConfig.groups
    (gatherShards csm.lastConfig.groups csm.lastConfig.shards) gids
  rcases csm.leave_cases gids with ⟨some_left, left⟩ | ⟨none_left, left⟩
  · rw [left, lastConfig_add]
    obtain ⟨gid, group⟩ := List.exists_mem_of_ne_nil _ some_left
    have old : gid ∈ csm.lastConfig.groups := ((known gid).mp group).1
    have leaving : Leaving (leaveShards csm.lastConfig.groups csm.lastConfig.shards gids) _ [] :=
      ((leaving_gatherShards valid.served).removeGids gids).reassign group
        (assigned.positive gid old).ne'
    exact .inr (leaving.keyed.storeShards_mem (covers_leaveShards _ _ _)
      (shardsOf_leaveShards_zero (assigned.served gid old) gids))
  · rw [left, lastConfig_add]
    exact .inl ⟨none_left, fun _ => rfl⟩

theorem move_valid (valid : csm.lastConfig.Valid) (group : gid ∈ csm.lastConfig.groups)
    (shard : Shard) : (csm.move shard gid).lastConfig.Valid := by
  rw [move, lastConfig_add]
  refine .inr fun other => ?_
  dsimp only
  by_cases here : other = shard
  · subst here
    rw [Function.update_self]
    exact group
  · rw [Function.update_of_ne here]
    rcases valid with ⟨empty, -⟩ | served
    · exact absurd group (keys_eq_nil.mp empty gid)
    · exact served other

/-- What holds of the configurations after every operation. -/
structure Sound (csm : CtrlerStateMachine) : Prop where
  numbered : ∀ (number : Nat) (config : Config), csm.configs[number]? = some config →
    config.num = number
  valid : ∀ config ∈ csm.configs, config.Valid
  last : csm.lastConfig.Valid
  assigned : csm.lastConfig.Assigned

theorem sound_new : new.Sound := by
  have valid : defaultConfig.Valid := .inl ⟨rfl, fun _ => rfl⟩
  refine ⟨num_of_new, ?_, valid, assigned_default⟩
  intro config stored
  cases List.mem_singleton.mp stored
  exact valid

theorem Sound.add (sound : csm.Sound) {shards : Shard → Int}
    (valid : (csm.add shards groups).lastConfig.Valid)
    (assigned : (csm.add shards groups).lastConfig.Assigned) : (csm.add shards groups).Sound := by
  refine ⟨num_of_add sound.numbered, ?_, valid, assigned⟩
  intro config stored
  rcases List.mem_append.mp stored with old | new
  · exact sound.valid config old
  · rw [List.mem_singleton.mp new, ← lastConfig_add]
    exact valid

/-- The arguments that a client may give: positive gids for new groups, and a shard moves
to a group that is there. -/
def Permits (csm : CtrlerStateMachine) : CtrlerOp → Prop
  | .join servers => ∀ gid ∈ servers.keys, 0 < gid
  | .move _ gid => gid ∈ csm.lastConfig.groups.keys
  | .query _ | .leave _ => True

/-- While there is no group, a join brings one. -/
def BringsGroup (csm : CtrlerStateMachine) : CtrlerOp → Prop
  | .join servers => csm.lastConfig.groups.keys = [] → servers.keys ≠ []
  | .query _ | .leave _ | .move _ _ => True

instance (csm : CtrlerStateMachine) : (op : CtrlerOp) → Decidable (csm.Permits op)
  | .join servers => inferInstanceAs (Decidable (∀ gid ∈ servers.keys, 0 < gid))
  | .move _ gid => inferInstanceAs (Decidable (gid ∈ csm.lastConfig.groups.keys))
  | .query _ | .leave _ => .isTrue trivial

instance (csm : CtrlerStateMachine) : (op : CtrlerOp) → Decidable (csm.BringsGroup op)
  | .join servers =>
      inferInstanceAs (Decidable (csm.lastConfig.groups.keys = [] → servers.keys ≠ []))
  | .query _ | .leave _ | .move _ _ => .isTrue trivial

/-- What an operation can do: nothing, or add a configuration. -/
theorem Sound.apply (sound : csm.Sound) {op : CtrlerOp} (permits : csm.Permits op)
    (brings : csm.BringsGroup op) : ∃ next reply,
      csm.applyToStateMachine op = some (next, reply) ∧ next.Sound ∧
        csm.configs <+: next.configs := by
  cases op with
  | query num => exact ⟨csm, _, rfl, sound, List.prefix_rfl⟩
  | join servers =>
      have some_group : (joinGroups csm.lastConfig.groups servers).keys ≠ [] := by
        intro none
        have empty := keys_eq_nil.mp none
        apply brings
        · exact keys_eq_nil.mpr fun gid held => empty gid (mem_joinGroups.mpr (.inl held))
        · exact keys_eq_nil.mpr fun gid held => empty gid (mem_joinGroups.mpr (.inr held))
      obtain ⟨shards, joined, served⟩ := join_valid sound.last sound.assigned permits some_group
      have assigned := join_assigned sound.assigned permits joined
      refine ⟨_, defaultConfig, congrArg (Option.map _) joined, ?_, List.prefix_append _ _⟩
      refine sound.add ?_ assigned
      rw [lastConfig_add]
      exact .inr served
  | leave gids =>
      have valid := leave_valid sound.last sound.assigned gids
      have assigned : (csm.leave gids).lastConfig.Assigned := leave_assigned sound.assigned
      refine ⟨csm.leave gids, defaultConfig, rfl, ?_⟩
      rcases csm.leave_cases gids with ⟨-, left⟩ | ⟨-, left⟩
      · rw [left] at valid assigned ⊢
        exact ⟨sound.add valid assigned, List.prefix_append _ _⟩
      · rw [left] at valid assigned ⊢
        exact ⟨sound.add valid assigned, List.prefix_append _ _⟩
  | move shard gid =>
      have group : gid ∈ csm.lastConfig.groups := AList.mem_keys.mpr permits
      exact ⟨csm.move shard gid, defaultConfig, rfl,
        sound.add (move_valid sound.last group shard) (move_assigned sound.assigned permits),
        List.prefix_append _ _⟩

end CtrlerStateMachine

/-- The controller under the operations that its servers agree on. -/
def ctrlerSystem : System CtrlerStateMachine CtrlerOp where
  init csm := csm = .new
  step csm op := (csm.applyToStateMachine op).map Prod.fst

/-- The steps that keep configurations valid. -/
abbrev bringsGroups (csm : CtrlerStateMachine) (op : CtrlerOp) : Prop :=
  csm.Permits op ∧ csm.BringsGroup op

theorem CtrlerStateMachine.Sound.step {csm next : CtrlerStateMachine} {op : CtrlerOp}
    (sound : csm.Sound) (permitted : bringsGroups csm op)
    (stepped : ctrlerSystem.step csm op = some next) :
    next.Sound ∧ csm.configs <+: next.configs := by
  obtain ⟨result, reply, applied, kept, grown⟩ := sound.apply permitted.1 permitted.2
  have moved : ctrlerSystem.step csm op = some result := congrArg (Option.map Prod.fst) applied
  cases stepped.symm.trans moved
  exact ⟨kept, grown⟩

theorem sound_of_reachable {csm : CtrlerStateMachine}
    (reached : ctrlerSystem.Reachable bringsGroups csm) : csm.Sound := by
  have start : ∀ csm, ctrlerSystem.init csm → csm.Sound := by
    rintro _ rfl
    exact CtrlerStateMachine.sound_new
  apply reached.preserves start
  intro csm op next sound permitted stepped
  exact (sound.step permitted stepped).1

/-- No configuration changes later. -/
theorem configs_grow {csm later : CtrlerStateMachine} (sound : csm.Sound)
    (run : ctrlerSystem.Run bringsGroups csm later) : csm.configs <+: later.configs := by
  let Grown := fun state : CtrlerStateMachine => state.Sound ∧ csm.configs <+: state.configs
  have grown : Grown later := by
    refine run.preserves ?_ ⟨sound, List.prefix_rfl⟩
    rintro state op next ⟨held, grown⟩ permitted stepped
    obtain ⟨kept, further⟩ := held.step permitted stepped
    exact ⟨kept, grown.trans further⟩
  exact grown.2

/-- In a history where no empty join meets an empty controller, every configuration is
valid and has its place as number, every operation comes to an end, and no configuration
changes later. -/
theorem configs_valid {csm : CtrlerStateMachine}
    (reached : ctrlerSystem.Reachable bringsGroups csm) :
    (∀ (number : Nat) (config : Config), csm.configs[number]? = some config →
      config.num = number ∧ config.Valid) ∧
    (∀ op, bringsGroups csm op → (csm.applyToStateMachine op).isSome) ∧
    (∀ later, ctrlerSystem.Run bringsGroups csm later → csm.configs <+: later.configs) := by
  have sound := sound_of_reachable reached
  refine ⟨?_, ?_, fun later => configs_grow sound⟩
  · intro number config stored
    exact ⟨sound.numbered number config stored, sound.valid config (List.mem_of_getElem? stored)⟩
  · rintro op ⟨permits, brings⟩
    obtain ⟨next, reply, applied, -⟩ := sound.apply permits brings
    rw [applied]
    rfl

/-- Two groups come, a shard moves, an empty join changes nothing, and groups leave until
none is left. -/
def emptiedCtrler : CtrlerStateMachine :=
  ctrlerSystem.after (fun csm op => decide (bringsGroups csm op)) .new
    [.join (AList.singleton 1 ["a"]), .join (AList.singleton 2 ["b"]), .move ⟨3, by decide⟩ 2,
      .join ∅, .leave [1, 1, 0], .leave [7], .leave [2]]

theorem configs_valid_emptied : emptiedCtrler.configs.length = 8 ∧
    ∀ (number : Nat) (config : Config), emptiedCtrler.configs[number]? = some config →
      config.num = number ∧ config.Valid := by
  have run : ctrlerSystem.Run bringsGroups .new emptiedCtrler :=
    (System.run_after _ _ _).mono fun _ _ => of_decide_eq_true
  exact ⟨by decide +kernel, (configs_valid ⟨_, rfl, run⟩).1⟩

/-- An empty join before the first group gives every shard to the marker -1. -/
theorem empty_join_invalid : CtrlerStateMachine.new.Permits (.join ∅) ∧
    ∃ csm, CtrlerStateMachine.new.applyToStateMachine (.join ∅) = some (csm, defaultConfig) ∧
      csm.lastConfig.groups.keys = [] ∧ (∀ shard, csm.lastConfig.shards shard = -1) ∧
      ¬ csm.lastConfig.Valid := by
  obtain ⟨csm, joined, empty, marked⟩ : ∃ csm,
      CtrlerStateMachine.new.applyToStateMachine (.join ∅) = some (csm, defaultConfig) ∧
      csm.lastConfig.groups.keys = [] ∧ ∀ shard, csm.lastConfig.shards shard = -1 :=
    ⟨_, rfl, rfl, by decide +kernel⟩
  refine ⟨by decide, csm, joined, empty, marked, ?_⟩
  rintro (⟨-, zero⟩ | served)
  · cases (marked ⟨0, by decide⟩).symm.trans (zero _)
  · exact keys_eq_nil.mp empty _ (served ⟨0, by decide⟩)

end MultiRaft.ShardCtrler
