import Mathlib.Data.List.AList
import Mathlib.Data.List.Sort

/-!
# The shard controller

`CtrlerStateMachine` keeps every configuration it ever made.  A Go map with gids
as keys is an association list with distinct keys; its order is one order in which
`range` may visit the keys.
-/

namespace MultiRaft.ShardCtrler

def nShards : Nat := 10

abbrev Shard := Fin nShards

/-- The servers of each group. -/
abbrev Groups := AList fun _ : Int => List String

structure Config where
  num : Nat
  shards : Shard → Int
  groups : Groups

def defaultConfig : Config := { num := 0, shards := fun _ => 0, groups := ∅ }

/-- The shards of each gid, while a new assignment is worked out. -/
abbrev GidToShards := AList fun _ : Int => List Shard

/-- A missing key reads as the empty slice. -/
def shardsOf (gidToShards : GidToShards) (gid : Int) : List Shard :=
  (gidToShards.lookup gid).getD []

/-- `gidToShards[gid] = append(gidToShards[gid], shard)`. -/
def pushShard (gidToShards : GidToShards) (gid : Int) (shard : Shard) : GidToShards :=
  gidToShards.insert gid (shardsOf gidToShards gid ++ [shard])

def sortedGids (gidToShards : GidToShards) : List Int :=
  gidToShards.keys.insertionSort (· ≤ ·)

def gidWithMaxShards (gidToShards : GidToShards) : Int :=
  if (shardsOf gidToShards 0).length > 0 then 0
  else
    let best := (sortedGids gidToShards).foldl (fun (best : Int × Int) gid =>
      if ((shardsOf gidToShards gid).length : Int) > best.2 then
        (gid, ((shardsOf gidToShards gid).length : Int))
      else best) (-1, -1)
    best.1

def gidWithMinShards (gidToShards : GidToShards) : Int :=
  let best := (sortedGids gidToShards).foldl (fun (best : Int × Nat) gid =>
    if gid ≠ 0 ∧ (shardsOf gidToShards gid).length < best.2 then (gid, (shardsOf gidToShards gid).length)
    else best) (-1, nShards + 1)
  best.1

/-- The table that `Join` and `Leave` begin with. -/
def gatherShards (groups : Groups) (shards : Shard → Int) : GidToShards :=
  let empty : GidToShards := groups.keys.foldl (fun table gid => table.insert gid []) ∅
  (List.finRange nShards).foldl (fun table shard => pushShard table (shards shard) shard) empty

/-- The array that a table stands for. -/
def storeShards (gidToShards : GidToShards) : Shard → Int :=
  gidToShards.entries.foldl (fun shards entry =>
    entry.2.foldl (fun shards shard => Function.update shards shard entry.1) shards) fun _ => 0

/-- The loop of `Join`.  It gives no table when the fuel runs out, or where the code
would index an empty slice. -/
def rebalance : Nat → GidToShards → Option GidToShards
  | 0, _ => none
  | fuel + 1, gidToShards =>
      let maxGid := gidWithMaxShards gidToShards
      let minGid := gidWithMinShards gidToShards
      if maxGid ≠ 0 ∧
          ((shardsOf gidToShards maxGid).length : Int) - (shardsOf gidToShards minGid).length ≤ 1 then
        some gidToShards
      else
        match shardsOf gidToShards maxGid with
        | [] => none
        | shard :: _ =>
            let grown := pushShard gidToShards minGid shard
            rebalance fuel (grown.insert maxGid (shardsOf grown maxGid).tail)

structure CtrlerStateMachine where
  configs : List Config

/-- The operations that the controllers agree on. -/
inductive CtrlerOp where
  | query (num : Int)
  | join (servers : Groups)
  | leave (gids : List Int)
  | move (shard : Shard) (gid : Int)

namespace CtrlerStateMachine

def new : CtrlerStateMachine := { configs := [defaultConfig] }

def lastConfig (csm : CtrlerStateMachine) : Config :=
  csm.configs.getLast?.getD defaultConfig

def query (csm : CtrlerStateMachine) (num : Int) : Config :=
  if num < 0 ∨ num ≥ csm.configs.length then csm.lastConfig
  else csm.configs[num.toNat]?.getD defaultConfig

/-- The configuration is kept under the next number. -/
def add (csm : CtrlerStateMachine) (shards : Shard → Int) (groups : Groups) :
    CtrlerStateMachine :=
  { configs := csm.configs ++ [{ num := csm.configs.length, shards, groups }] }

/-- A group that is there already keeps its servers. -/
def joinGroups (old joining : Groups) : Groups :=
  joining.entries.foldl (fun groups entry =>
    if (groups.lookup entry.1).isSome then groups else groups.insert entry.1 entry.2) old

def join (csm : CtrlerStateMachine) (groups : Groups) : Option CtrlerStateMachine := do
  let newGroups := joinGroups csm.lastConfig.groups groups
  let gidToShards ← rebalance (nShards + nShards * nShards)
    (gatherShards newGroups csm.lastConfig.shards)
  return csm.add (storeShards gidToShards) newGroups

/-- The loop of `Leave` over the gids, with the shards it takes out of the table. -/
def removeGids (groups : Groups) (gidToShards : GidToShards) (gids : List Int) :
    Groups × GidToShards × List Shard :=
  gids.foldl (fun (groups, gidToShards, unassigned) gid =>
    (groups.erase gid, gidToShards.erase gid, unassigned ++ shardsOf gidToShards gid))
    (groups, gidToShards, [])

def leave (csm : CtrlerStateMachine) (gids : List Int) : CtrlerStateMachine :=
  let last := csm.lastConfig
  let (newGroups, remaining, unassigned) :=
    removeGids last.groups (gatherShards last.groups last.shards) gids
  if newGroups.keys.length ≠ 0 then
    let gidToShards := unassigned.foldl (fun table shard =>
      pushShard table (gidWithMinShards table) shard) remaining
    csm.add (storeShards gidToShards) newGroups
  else csm.add (fun _ => 0) newGroups

def move (csm : CtrlerStateMachine) (shard : Shard) (gid : Int) : CtrlerStateMachine :=
  csm.add (Function.update csm.lastConfig.shards shard gid) csm.lastConfig.groups

/-- The state after an operation, and the configuration in the reply: only `query`
fills it in. -/
def applyToStateMachine (csm : CtrlerStateMachine) :
    CtrlerOp → Option (CtrlerStateMachine × Config)
  | .query num => some (csm, csm.query num)
  | .join servers => (csm.join servers).map fun next => (next, defaultConfig)
  | .leave gids => some (csm.leave gids, defaultConfig)
  | .move shard gid => some (csm.move shard gid, defaultConfig)

end CtrlerStateMachine

end MultiRaft.ShardCtrler
