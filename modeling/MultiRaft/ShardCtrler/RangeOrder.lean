import MultiRaft.Lib.Enumeration
import MultiRaft.ShardCtrler.Validity

/-!
# Replicas that range over maps in different orders

Every `range` over a map takes an order of its own, on every server and in every
round of a loop.  Here each of them is an argument.  The scans for the largest and the
smallest group sort the gids first, a table lists no shard twice when it is stored,
and the other loops treat every gid by itself: so two servers that apply the same
operations have the same configurations.
-/

namespace MultiRaft.ShardCtrler

/-- The orders that the loops of one operation take.  The two scans run once in every
round; they are numbered by the rounds that are left. -/
structure Orders where
  copyGroups : RangeOrder Int (List String)
  joining : RangeOrder Int (List String)
  groups : RangeOrder Int (List String)
  maxScan : Nat → RangeOrder Int (List Shard)
  minScan : Nat → RangeOrder Int (List Shard)
  gidToShards : RangeOrder Int (List Shard)

def rebalanceWith (orders : Orders) : Nat → GidToShards → Option GidToShards
  | 0, _ => none
  | fuel + 1, gidToShards =>
      let maxGid := gidWithMaxShards ((orders.maxScan fuel).visit gidToShards)
      let minGid := gidWithMinShards ((orders.minScan fuel).visit gidToShards)
      if maxGid ≠ 0 ∧
          ((shardsOf gidToShards maxGid).length : Int) - (shardsOf gidToShards minGid).length ≤ 1 then
        some gidToShards
      else
        match shardsOf gidToShards maxGid with
        | [] => none
        | shard :: _ =>
            let grown := pushShard gidToShards minGid shard
            rebalanceWith orders fuel (grown.insert maxGid (shardsOf grown maxGid).tail)

def reassignWith (orders : Orders) : List Shard → GidToShards → GidToShards
  | [], gidToShards => gidToShards
  | shard :: unassigned, gidToShards =>
      let minGid := gidWithMinShards ((orders.minScan unassigned.length).visit gidToShards)
      reassignWith orders unassigned (pushShard gidToShards minGid shard)

namespace CtrlerStateMachine

def joinWith (csm : CtrlerStateMachine) (orders : Orders) (groups : Groups) :
    Option CtrlerStateMachine := do
  let newGroups := joinGroups (orders.copyGroups.visit csm.lastConfig.groups)
    (orders.joining.visit groups)
  let gidToShards ← rebalanceWith orders (nShards + nShards * nShards)
    (gatherShards (orders.groups.visit newGroups) csm.lastConfig.shards)
  return csm.add (storeShards (orders.gidToShards.visit gidToShards)) newGroups

def leaveWith (csm : CtrlerStateMachine) (orders : Orders) (gids : List Int) :
    CtrlerStateMachine :=
  let copied := orders.copyGroups.visit csm.lastConfig.groups
  let (newGroups, remaining, unassigned) :=
    removeGids copied (gatherShards (orders.groups.visit copied) csm.lastConfig.shards) gids
  if newGroups.keys.length ≠ 0 then
    let gidToShards := reassignWith orders unassigned remaining
    csm.add (storeShards (orders.gidToShards.visit gidToShards)) newGroups
  else csm.add (fun _ => 0) newGroups

def moveWith (csm : CtrlerStateMachine) (orders : Orders) (shard : Shard) (gid : Int) :
    CtrlerStateMachine :=
  csm.add (Function.update csm.lastConfig.shards shard gid)
    (orders.copyGroups.visit csm.lastConfig.groups)

def applyWith (csm : CtrlerStateMachine) (orders : Orders) :
    CtrlerOp → Option CtrlerStateMachine
  | .query _ => some csm
  | .join servers => csm.joinWith orders servers
  | .leave gids => some (csm.leaveWith orders gids)
  | .move shard gid => some (csm.moveWith orders shard gid)

/-- A server applies the operations of the log; `orders` are numbered by the operations
that are left. -/
def replayWith (orders : Nat → Orders) : CtrlerStateMachine → List CtrlerOp →
    Option CtrlerStateMachine
  | csm, [] => some csm
  | csm, op :: rest => do
      let next ← csm.applyWith (orders rest.length) op
      replayWith orders next rest

end CtrlerStateMachine

variable {table other : GidToShards} {groups second joining : Groups} {gid : Int}

theorem shardsOf_congr (same : SameMap table other) (gid : Int) :
    shardsOf table gid = shardsOf other gid := by
  rw [shardsOf, shardsOf, same.lookup]

theorem sortedGids_congr (same : SameMap table other) : sortedGids table = sortedGids other :=
  List.Perm.eq_of_pairwise' (List.pairwise_insertionSort (· ≤ ·) _)
    (List.pairwise_insertionSort (· ≤ ·) _)
    ((List.perm_insertionSort (· ≤ ·) _).trans
      (same.keys.trans (List.perm_insertionSort (· ≤ ·) _).symm))

theorem gidWithMaxShards_congr (same : SameMap table other) :
    gidWithMaxShards table = gidWithMaxShards other := by
  simp only [gidWithMaxShards, shardsOf_congr same, sortedGids_congr same]

theorem gidWithMinShards_congr (same : SameMap table other) :
    gidWithMinShards table = gidWithMinShards other := by
  simp only [gidWithMinShards, shardsOf_congr same, sortedGids_congr same]

theorem sameMap_pushShard (same : SameMap table other) (gid : Int) (shard : Shard) :
    SameMap (pushShard table gid shard) (pushShard other gid shard) := by
  rw [pushShard, pushShard, shardsOf_congr same]
  exact same.insert gid _

/-- A table is known by its keys and their shards. -/
theorem sameMap_of_shardsOf (keys : ∀ gid, gid ∈ table ↔ gid ∈ other)
    (shards : ∀ gid, shardsOf table gid = shardsOf other gid) : SameMap table other := by
  refine sameMap_of_lookup fun gid => ?_
  by_cases key : gid ∈ table
  · obtain ⟨list, found⟩ := Option.isSome_iff_exists.mp (AList.lookup_isSome.mpr key)
    obtain ⟨list', found'⟩ := Option.isSome_iff_exists.mp
      (AList.lookup_isSome.mpr ((keys gid).mp key))
    have equal := shards gid
    rw [shardsOf, shardsOf, found, found'] at equal
    rw [found, found']
    exact congrArg some equal
  · rw [AList.lookup_eq_none.mpr key, AList.lookup_eq_none.mpr fun also => key ((keys gid).mpr also)]

theorem sameMap_gatherShards (same : SameMap groups second) (shards : Shard → Int) :
    SameMap (gatherShards groups shards) (gatherShards second shards) := by
  refine sameMap_of_shardsOf (fun gid => ?_) (fun gid => ?_)
  · rw [mem_gatherShards, mem_gatherShards, same.mem_iff]
  · rw [shardsOf_gatherShards, shardsOf_gatherShards]

theorem covers_congr (same : SameMap table other) (covers : Covers table) : Covers other := by
  intro shard
  obtain ⟨gid, listed⟩ := covers shard
  exact ⟨gid, shardsOf_congr same gid ▸ listed⟩

/-- A table that lists every shard once is stored in the same way in every order. -/
theorem storeShards_congr (same : SameMap table other) (covers : Covers table)
    (orderly : Orderly table) : storeShards table = storeShards other := by
  funext shard
  refine (orderly.mem_iff covers).mp ?_
  rw [shardsOf_congr same]
  exact mem_shardsOf_storeShards (covers_congr same covers) shard

theorem rebalanceWith_eq (orders : Orders) (fuel : Nat) (table : GidToShards) :
    rebalanceWith orders fuel table = rebalance fuel table := by
  induction fuel generalizing table with
  | zero => rfl
  | succ fuel inductionHypothesis =>
      rw [rebalanceWith, rebalance]
      simp only [gidWithMaxShards_congr ((orders.maxScan fuel).same table),
        gidWithMinShards_congr ((orders.minScan fuel).same table)]
      split
      · rfl
      · cases shardsOf table (gidWithMaxShards table) with
        | nil => rfl
        | cons shard rest => exact inductionHypothesis _

theorem reassignWith_eq (orders : Orders) (unassigned : List Shard) (table : GidToShards) :
    reassignWith orders unassigned table = reassign unassigned table := by
  induction unassigned generalizing table with
  | nil => rfl
  | cons shard unassigned inductionHypothesis =>
      rw [reassignWith, gidWithMinShards_congr ((orders.minScan unassigned.length).same table),
        inductionHypothesis]
      rfl

theorem sameMap_rebalance {balanced : GidToShards} {fuel : Nat} (same : SameMap table other)
    (done : rebalance fuel other = some balanced) :
    ∃ result, rebalance fuel table = some result ∧ SameMap result balanced := by
  induction fuel generalizing table other with
  | zero => cases done
  | succ fuel inductionHypothesis =>
      rw [rebalance] at done ⊢
      simp only [gidWithMaxShards_congr same, gidWithMinShards_congr same,
        shardsOf_congr same] at done ⊢
      split at done
      · rename_i stops
        cases done
        exact ⟨table, if_pos stops, same⟩
      · rename_i goesOn
        rw [if_neg goesOn]
        split at done
        · cases done
        · rename_i shard rest largest
          have grown := sameMap_pushShard same (gidWithMinShards other) shard
          simp only [shardsOf_congr grown]
          exact inductionHypothesis (grown.insert _ _) done

theorem sameMap_reassign (same : SameMap table other) (unassigned : List Shard) :
    SameMap (reassign unassigned table) (reassign unassigned other) := by
  induction unassigned generalizing table other with
  | nil => exact same
  | cons shard unassigned inductionHypothesis =>
      have pushed := sameMap_pushShard same (gidWithMinShards other) shard
      rw [← gidWithMinShards_congr same] at pushed
      nth_rewrite 2 [gidWithMinShards_congr same] at pushed
      exact inductionHypothesis pushed

theorem sameMap_removeGids (sameGroups : SameMap groups second) (same : SameMap table other)
    (gids : List Int) :
    SameMap (CtrlerStateMachine.removeGids groups table gids).1
      (CtrlerStateMachine.removeGids second other gids).1 ∧
    SameMap (CtrlerStateMachine.removeGids groups table gids).2.1
      (CtrlerStateMachine.removeGids second other gids).2.1 ∧
    (CtrlerStateMachine.removeGids groups table gids).2.2 =
      (CtrlerStateMachine.removeGids second other gids).2.2 := by
  induction gids using List.reverseRecOn with
  | nil => exact ⟨sameGroups, same, rfl⟩
  | append_singleton gids gid inductionHypothesis =>
      obtain ⟨left, remaining, taken⟩ := inductionHypothesis
      rw [removeGids_concat, removeGids_concat]
      refine ⟨left.erase gid, remaining.erase gid, ?_⟩
      dsimp only
      rw [taken, shardsOf_congr remaining]

theorem sameMap_joinGroups {joining' : Groups} (same : SameMap groups second)
    (sameJoining : SameMap joining joining') :
    SameMap (CtrlerStateMachine.joinGroups groups joining)
      (CtrlerStateMachine.joinGroups second joining') := by
  refine sameMap_of_lookup fun gid => ?_
  rw [CtrlerStateMachine.lookup_joinGroups, CtrlerStateMachine.lookup_joinGroups, same.lookup,
    sameJoining.lookup]

/-- The same configuration; its groups are a map. -/
structure Config.Same (config other : Config) : Prop where
  num : config.num = other.num
  shards : config.shards = other.shards
  groups : SameMap config.groups other.groups

theorem Config.Same.refl (config : Config) : config.Same config := ⟨rfl, rfl, .refl _⟩

theorem Config.Same.symm {config other : Config} (same : config.Same other) : other.Same config :=
  ⟨same.num.symm, same.shards.symm, same.groups.symm⟩

theorem Config.Same.trans {config other third : Config} (same : config.Same other)
    (further : other.Same third) : config.Same third :=
  ⟨same.num.trans further.num, same.shards.trans further.shards,
    same.groups.trans further.groups⟩

namespace CtrlerStateMachine

/-- Two servers with the same configurations. -/
def Same (csm other : CtrlerStateMachine) : Prop :=
  List.Forall₂ Config.Same csm.configs other.configs

variable {csm other : CtrlerStateMachine}

theorem Same.refl (csm : CtrlerStateMachine) : csm.Same csm :=
  List.forall₂_same.mpr fun config _ => .refl config

theorem Same.symm (same : csm.Same other) : other.Same csm :=
  List.Forall₂.flip (List.Forall₂.imp (fun _ _ => Config.Same.symm) same)

theorem Same.trans {third : CtrlerStateMachine} (same : csm.Same other)
    (further : other.Same third) : csm.Same third := by
  obtain ⟨length, configs⟩ := List.forall₂_iff_get.mp same
  obtain ⟨length', configs'⟩ := List.forall₂_iff_get.mp further
  refine List.forall₂_iff_get.mpr ⟨length.trans length', fun number inside inThird => ?_⟩
  exact (configs number inside (length ▸ inside)).trans (configs' number (length ▸ inside) inThird)

theorem Same.getD (same : csm.Same other) (number : Nat) :
    (csm.configs[number]?.getD defaultConfig).Same (other.configs[number]?.getD defaultConfig) := by
  rcases Nat.lt_or_ge number csm.configs.length with inside | outside
  · have insideOther : number < other.configs.length := same.length_eq ▸ inside
    rw [List.getElem?_eq_getElem inside, List.getElem?_eq_getElem insideOther]
    exact (List.forall₂_iff_get.mp same).2 number inside insideOther
  · rw [List.getElem?_eq_none outside, List.getElem?_eq_none (same.length_eq ▸ outside)]
    exact .refl _

theorem Same.lastConfig (same : csm.Same other) : csm.lastConfig.Same other.lastConfig := by
  rw [CtrlerStateMachine.lastConfig, CtrlerStateMachine.lastConfig, List.getLast?_eq_getElem?,
    List.getLast?_eq_getElem?, same.length_eq]
  exact same.getD _

theorem Same.query (same : csm.Same other) (num : Int) : (csm.query num).Same (other.query num) := by
  rw [CtrlerStateMachine.query, CtrlerStateMachine.query, same.length_eq]
  split
  · exact same.lastConfig
  · exact same.getD _

theorem Same.add (same : csm.Same other) {shards shards' : Shard → Int} {groups groups' : Groups}
    (sameShards : shards = shards') (sameGroups : SameMap groups groups') :
    (csm.add shards groups).Same (other.add shards' groups') := by
  refine List.rel_append same (.cons ⟨?_, sameShards, sameGroups⟩ .nil)
  exact same.length_eq

/-- `Join` in any order does what it does in the order that the maps are stored in. -/
theorem Same.joinWith (same : csm.Same other) (orders : Orders) (joining : Groups) :
    ∃ next next', csm.joinWith orders joining = some next ∧ other.join joining = some next' ∧
      next.Same next' := by
  have last := same.lastConfig
  have sameGroups : SameMap
      (joinGroups (orders.copyGroups.visit csm.lastConfig.groups) (orders.joining.visit joining))
      (joinGroups other.lastConfig.groups joining) :=
    sameMap_joinGroups ((orders.copyGroups.same _).trans last.groups) (orders.joining.same _)
  have sameTable := sameMap_gatherShards ((orders.groups.same _).trans sameGroups)
    other.lastConfig.shards
  obtain ⟨balanced', done', covers, orderly⟩ := exists_rebalance
    (covers_gatherShards (joinGroups other.lastConfig.groups joining) other.lastConfig.shards)
    (orderly_gatherShards _ _)
  obtain ⟨balanced, done, sameBalanced⟩ := sameMap_rebalance sameTable done'
  have stored : storeShards (orders.gidToShards.visit balanced) = storeShards balanced' :=
    (storeShards_congr ((orders.gidToShards.same balanced).trans sameBalanced).symm covers
      orderly).symm
  refine ⟨_, _, ?_, ?_, same.add stored sameGroups⟩
  · rw [CtrlerStateMachine.joinWith, last.shards, rebalanceWith_eq, done]
    rfl
  · exact join_eq done'

theorem Same.leaveWith (same : csm.Same other) (orders : Orders) (gids : List Int) :
    (csm.leaveWith orders gids).Same (other.leave gids) := by
  have last := same.lastConfig
  have sameGroups := (orders.copyGroups.same csm.lastConfig.groups).trans last.groups
  have sameTable := sameMap_gatherShards ((orders.groups.same _).trans sameGroups)
    other.lastConfig.shards
  obtain ⟨sameLeft, sameRemaining, sameUnassigned⟩ := sameMap_removeGids sameGroups sameTable gids
  have sameLength := sameLeft.keys.length_eq
  have stored := sameMap_reassign sameRemaining
    (removeGids other.lastConfig.groups
      (gatherShards other.lastConfig.groups other.lastConfig.shards) gids).2.2
  rw [CtrlerStateMachine.leaveWith, leave]
  simp only [last.shards, reassignWith_eq, sameUnassigned, sameLength]
  split
  · refine same.add ?_ sameLeft
    exact (storeShards_congr ((orders.gidToShards.same _).trans stored).symm
      (covers_leaveShards _ _ _) (orderly_leaveShards _ _ _)).symm
  · exact same.add rfl sameLeft

theorem Same.applyWith (same : csm.Same other) (orders : Orders) (op : CtrlerOp) :
    ∃ next next' reply, csm.applyWith orders op = some next ∧
      other.applyToStateMachine op = some (next', reply) ∧ next.Same next' := by
  cases op with
  | query num => exact ⟨csm, other, _, rfl, rfl, same⟩
  | join servers =>
      obtain ⟨next, next', joined, joined', result⟩ := same.joinWith orders servers
      exact ⟨next, next', defaultConfig, joined, congrArg (Option.map _) joined', result⟩
  | leave gids => exact ⟨_, _, _, rfl, rfl, same.leaveWith orders gids⟩
  | move shard gid =>
      refine ⟨_, _, _, rfl, rfl, same.add ?_ ?_⟩
      · rw [same.lastConfig.shards]
      · exact (orders.copyGroups.same _).trans same.lastConfig.groups

/-- Along the log, whatever the orders are. -/
theorem Same.replayWith (same : csm.Same other) (orders : Nat → Orders) (ops : List CtrlerOp) :
    ∃ last last', csm.replayWith orders ops = some last ∧
      ctrlerSystem.execute (fun _ _ => true) other ops = some last' ∧ last.Same last' := by
  induction ops generalizing csm other with
  | nil => exact ⟨csm, other, rfl, rfl, same⟩
  | cons op rest inductionHypothesis =>
      obtain ⟨next, next', reply, applied, applied', sameNext⟩ :=
        same.applyWith (orders rest.length) op
      obtain ⟨last, last', replayed, replayed', result⟩ := inductionHypothesis sameNext
      refine ⟨last, last', ?_, ?_, result⟩
      · rw [CtrlerStateMachine.replayWith, applied]
        exact replayed
      · have stepped : ctrlerSystem.step other op = some next' :=
          congrArg (Option.map Prod.fst) applied'
        rw [System.execute, if_pos rfl, stepped]
        exact replayed'

end CtrlerStateMachine

/-- Two servers that apply the same operations, each with orders of its own, both come
to an end and have the same configurations, so they answer every query alike. -/
theorem replicas_agree (ops : List CtrlerOp) (orders orders' : Nat → Orders) :
    ∃ csm csm', CtrlerStateMachine.new.replayWith orders ops = some csm ∧
      CtrlerStateMachine.new.replayWith orders' ops = some csm' ∧
      List.Forall₂ Config.Same csm.configs csm'.configs ∧
      ∀ num, (csm.query num).Same (csm'.query num) := by
  obtain ⟨csm, stored, replayed, executed, same⟩ :=
    (CtrlerStateMachine.Same.refl .new).replayWith orders ops
  obtain ⟨csm', stored', replayed', executed', same'⟩ :=
    (CtrlerStateMachine.Same.refl .new).replayWith orders' ops
  cases executed.symm.trans executed'
  have agree : csm.Same csm' := same.trans same'.symm
  exact ⟨csm, csm', replayed, replayed', agree, agree.query⟩

end MultiRaft.ShardCtrler
