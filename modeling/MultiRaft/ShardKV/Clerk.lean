import MultiRaft.ShardKV.Server
import MultiRaft.Lib.System
import MultiRaft.ShardCtrler.Assignment

/-!
# The servers that a clerk calls

A `Clerk` of the sharded store remembers for every group the index of the server
that answered last, and looks that index up in the list of the configuration it has
now.  The controllers may replace the list between the two, and a query may be answered
with an older configuration, so the index is in range only as long as no list is shorter
than one that the clerk has used.

`Get` and `PutAppend` have the same two loops and differ in the answers that end them.
-/

namespace MultiRaft

namespace ShardCtrler

variable {gid : Int}

/-- A missing group reads as the empty slice. -/
def serversOf (groups : Groups) (gid : Int) : List String := (groups.lookup gid).getD []

/-- No group of the later table has fewer servers than it had in the earlier one. -/
def NoShorter (earlier later : Groups) : Prop :=
  ∀ gid ∈ later, (serversOf earlier gid).length ≤ (serversOf later gid).length

namespace CtrlerStateMachine

variable {csm next : CtrlerStateMachine}

/-- A group that joins has servers, and no fewer than in any configuration before. -/
def Widens (csm : CtrlerStateMachine) : CtrlerOp → Prop
  | .join joining => ∀ gid ∈ joining.keys, gid ∉ csm.lastConfig.groups →
      serversOf joining gid ≠ [] ∧ ∀ config ∈ csm.configs,
        (serversOf config.groups gid).length ≤ (serversOf joining gid).length
  | .query _ | .leave _ | .move _ _ => True

instance (csm : CtrlerStateMachine) : (op : CtrlerOp) → Decidable (csm.Widens op)
  | .join joining => inferInstanceAs (Decidable (∀ gid ∈ joining.keys,
      gid ∉ csm.lastConfig.groups → serversOf joining gid ≠ [] ∧ ∀ config ∈ csm.configs,
        (serversOf config.groups gid).length ≤ (serversOf joining gid).length))
  | .query _ | .leave _ | .move _ _ => .isTrue trivial

/-- No group has had lists of different lengths. -/
def Even (csm : CtrlerStateMachine) : Prop :=
  ∀ earlier ∈ csm.configs, ∀ later ∈ csm.configs, NoShorter earlier.groups later.groups

/-- What an operation makes of the last table of groups: every group of the new one is
an old one with its servers, or joins with the servers that the operation names. -/
def Edits (csm : CtrlerStateMachine) (op : CtrlerOp) (groups : Groups) : Prop :=
  ∀ gid ∈ groups,
    (gid ∈ csm.lastConfig.groups ∧ serversOf groups gid = serversOf csm.lastConfig.groups gid) ∨
    ∃ joining, op = .join joining ∧ gid ∈ joining.keys ∧ gid ∉ csm.lastConfig.groups ∧
      serversOf groups gid = serversOf joining gid

theorem edits_joinGroups (csm : CtrlerStateMachine) (joining : Groups) :
    csm.Edits (.join joining) (joinGroups csm.lastConfig.groups joining) := by
  intro gid held
  by_cases old : gid ∈ csm.lastConfig.groups
  · obtain ⟨servers, found⟩ := Option.isSome_iff_exists.mp (AList.lookup_isSome.mpr old)
    refine .inl ⟨old, ?_⟩
    rw [serversOf, serversOf, lookup_joinGroups, found, Option.some_or]
  · have joins := (mem_joinGroups.mp held).resolve_left old
    refine .inr ⟨joining, rfl, AList.mem_keys.mp joins, old, ?_⟩
    rw [serversOf, serversOf, lookup_joinGroups, AList.lookup_eq_none.mpr old, Option.none_or]

theorem edits_removeGids (csm : CtrlerStateMachine) (op : CtrlerOp) (table : GidToShards)
    (gids : List Int) : csm.Edits op (removeGids csm.lastConfig.groups table gids).1 := by
  refine removeGids_induction (fun _ groups _ _ => csm.Edits op groups)
    (fun gid held => .inl ⟨held, rfl⟩) ?_ gids
  intro _ groups _ _ removed edits gid held
  obtain ⟨other, before⟩ := AList.mem_erase.mp held
  have same : serversOf (groups.erase removed) gid = serversOf groups gid := by
    rw [serversOf, serversOf, AList.lookup_erase_ne other]
  rw [same]
  exact edits gid before

/-- An operation leaves the configurations alone or adds one. -/
theorem edits_of_apply {op : CtrlerOp} {reply : Config}
    (applied : csm.applyToStateMachine op = some (next, reply)) :
    next = csm ∨ ∃ shards groups, next = csm.add shards groups ∧ csm.Edits op groups := by
  cases op with
  | query num =>
      cases applied
      exact .inl rfl
  | join joining =>
      obtain ⟨_, joined, same⟩ := Option.map_eq_some_iff.mp applied
      cases same
      obtain ⟨_, _, added⟩ := Option.bind_eq_some_iff.mp joined
      cases added
      exact .inr ⟨_, _, rfl, csm.edits_joinGroups joining⟩
  | leave gids =>
      cases applied
      refine .inr ?_
      rcases csm.leave_cases gids with ⟨_, left⟩ | ⟨_, left⟩
      · exact ⟨_, _, left, csm.edits_removeGids _ _ gids⟩
      · exact ⟨_, _, left, csm.edits_removeGids _ _ gids⟩
  | move shard gid =>
      cases applied
      exact .inr ⟨_, _, rfl, fun gid held => .inl ⟨held, rfl⟩⟩

/-- Every group ever listed had servers, and later never fewer than before. -/
structure Widening (csm : CtrlerStateMachine) : Prop where
  served : ∀ config ∈ csm.configs, ∀ gid ∈ config.groups, serversOf config.groups gid ≠ []
  widens : csm.configs.Pairwise fun earlier later => NoShorter earlier.groups later.groups

theorem widening_new : new.Widening where
  served config made gid held := by
    obtain rfl := List.mem_singleton.mp made
    exact absurd held (AList.notMem_empty gid)
  widens := List.pairwise_singleton _ _

theorem lastConfig_eq_getLast (made : csm.configs ≠ []) :
    csm.lastConfig = csm.configs.getLast made := by
  rw [lastConfig, List.getLast?_eq_getLast_of_ne_nil made, Option.getD_some]

theorem lastConfig_mem (made : csm.configs ≠ []) : csm.lastConfig ∈ csm.configs := by
  rw [lastConfig_eq_getLast made]
  exact List.getLast_mem made

theorem query_mem (made : csm.configs ≠ []) (num : Int) : csm.query num ∈ csm.configs := by
  unfold query
  split
  · exact lastConfig_mem made
  · rw [List.getElem?_eq_getElem (by omega), Option.getD_some]
    exact List.getElem_mem _

/-- The configuration in the result of an operation was made before. -/
theorem reply_mem {op : CtrlerOp} {reply : Config} (first : defaultConfig ∈ csm.configs)
    (applied : csm.applyToStateMachine op = some (next, reply)) : reply ∈ csm.configs := by
  cases op with
  | query num =>
      cases applied
      exact query_mem (List.ne_nil_of_mem first) num
  | join joining =>
      obtain ⟨_, _, same⟩ := Option.map_eq_some_iff.mp applied
      cases same
      exact first
  | leave | move =>
      cases applied
      exact first

/-- The last configuration has the longest lists. -/
theorem Widening.noShorter_lastConfig (widening : csm.Widening) {config : Config}
    (made : config ∈ csm.configs) : NoShorter config.groups csm.lastConfig.groups := by
  rw [lastConfig_eq_getLast (List.ne_nil_of_mem made)]
  exact widening.widens.rel_getLast_of_rel_getLast_getLast made fun _ _ => Nat.le_refl _

theorem Widening.apply (widening : csm.Widening) (made : csm.configs ≠ []) {op : CtrlerOp}
    {reply : Config} (widens : csm.Widens op)
    (applied : csm.applyToStateMachine op = some (next, reply)) :
    next.Widening ∧ csm.configs <+: next.configs := by
  rcases edits_of_apply applied with rfl | ⟨shards, groups, rfl, edits⟩
  · exact ⟨widening, List.prefix_rfl⟩
  refine ⟨⟨?_, ?_⟩, List.prefix_append _ _⟩
  · intro config held gid group
    rcases List.mem_append.mp held with old | new
    · exact widening.served config old gid group
    obtain rfl := List.mem_singleton.mp new
    rcases edits gid group with ⟨before, same⟩ | ⟨joining, rfl, named, absent, same⟩
    · rw [same]
      exact widening.served _ (lastConfig_mem made) gid before
    · rw [same]
      exact (widens gid named absent).1
  · refine List.pairwise_append.mpr ⟨widening.widens, List.pairwise_singleton _ _, ?_⟩
    intro config old _ new gid group
    obtain rfl := List.mem_singleton.mp new
    rcases edits gid group with ⟨before, same⟩ | ⟨joining, rfl, named, absent, same⟩
    · rw [same]
      exact widening.noShorter_lastConfig old gid before
    · rw [same]
      exact (widens gid named absent).2 config old

end CtrlerStateMachine

end ShardCtrler

namespace Shardkv

open ShardCtrler (Config CtrlerStateMachine CtrlerOp NoShorter defaultConfig gatherShards nShards
  rebalance serversOf storeShards)
open KVRaft (GetArgs PutAppendArgs)

structure Clerk where
  config : Config
  leaderIds : Int → Option Nat
  clientId : Nat
  seqId : Nat

inductive Request where
  | get (args : GetArgs)
  | putAppend (args : PutAppendArgs)
  deriving DecidableEq, Repr

/-- How a round of the inner loop ends. -/
inductive Turn where
  | returned (value : String)
  | broke
  | continued
  deriving DecidableEq, Repr

namespace Request

def key : Request → String
  | .get args => args.key
  | .putAppend args => args.key

/-- The answers that end the request. -/
def accepts : Request → Err → Bool
  | .get _, err => err = .ok ∨ err = .errNoKey
  | .putAppend _, err => err = .ok

end Request

namespace Clerk

variable {ck next : Clerk} {request : Request} {gid : Int} {servers : List String}
  {oldLeaderId : Nat}

def makeClerk (clientId : Nat) : Clerk :=
  { config := defaultConfig, leaderIds := fun _ => none, clientId, seqId := 0 }

/-- `ck.leaderIds[gid]`. -/
def leaderId (ck : Clerk) (gid : Int) : Nat := (ck.leaderIds gid).getD 0

def setLeaderId (ck : Clerk) (gid : Int) (id : Nat) : Clerk :=
  { ck with leaderIds := Function.update ck.leaderIds gid (some id) }

theorem setLeaderId_leaderIds (ck : Clerk) (gid : Int) (id : Nat) (other : Int) :
    (ck.setLeaderId gid id).leaderIds other = if other = gid then some id else ck.leaderIds other :=
  Function.update_apply ck.leaderIds gid (some id) other

/-- `if _, exist := ck.leaderIds[gid]; !exist`. -/
def initLeaderId (ck : Clerk) (gid : Int) : Clerk :=
  if (ck.leaderIds gid).isSome then ck else ck.setLeaderId gid 0

theorem initLeaderId_config (ck : Clerk) (gid : Int) :
    (ck.initLeaderId gid).config = ck.config := by
  unfold initLeaderId
  split <;> rfl

/-- The next server of the group; the modulus panics on an empty list. -/
def rotate (ck : Clerk) (gid : Int) (servers : List String) (oldLeaderId : Nat) :
    Option (Clerk × Turn) :=
  if servers.length = 0 then none
  else
    let ck := ck.setLeaderId gid ((ck.leaderId gid + 1) % servers.length)
    some (ck, if ck.leaderId gid = oldLeaderId then .broke else .continued)

/-- A `PutAppend` that returns takes the next number. -/
def finish (ck : Clerk) : Request → Clerk
  | .get _ => ck
  | .putAppend _ => { ck with seqId := ck.seqId + 1 }

/-- One round of the inner loop with the outcome of its call, which is `none` if the
call failed.  An index outside of `servers` panics. -/
def call (ck : Clerk) (request : Request) (gid : Int) (servers : List String) (oldLeaderId : Nat)
    (reply : Option OpReply) : Option (Clerk × Turn) := do
  let _ ← servers[ck.leaderId gid]?
  match reply with
  | none => ck.rotate gid servers oldLeaderId
  | some reply =>
      if request.accepts reply.err then return (ck.finish request, .returned reply.value)
      else if reply.err = .errWrongGroup then return (ck, .broke)
      else if reply.err = .errWrongLeader ∨ reply.err = .errTimeout then
        ck.rotate gid servers oldLeaderId
      else return (ck, .continued)

end Clerk

/-- Where the clerk stands: between requests, at the head of the outer loop, in the
inner loop, or before it asks for the latest configuration. -/
inductive Point where
  | idle (value : Option String)
  | looking (request : Request)
  | calling (request : Request) (gid : Int) (servers : List String) (oldLeaderId : Nat)
  | asking (request : Request)
  deriving DecidableEq, Repr

/-- A clerk and the controllers it asks. -/
structure Session where
  csm : CtrlerStateMachine
  ck : Clerk
  point : Point

inductive SessionEvent where
  | get (key : String)
  | putAppend (key value op : String)
  | look
  | call (reply : Option OpReply)
  | ask (taken : CtrlerOp)
  | agree (op : CtrlerOp)

namespace Session

def start (session : Session) (request : Request) : Option Session :=
  match session.point with
  | .idle _ => some { session with point := .looking request }
  | _ => none

def look (session : Session) : Option Session :=
  match session.point with
  | .looking request =>
      let gid := session.ck.config.shards (key2shard request.key)
      match session.ck.config.groups.lookup gid with
      | some servers =>
          let ck := session.ck.initLeaderId gid
          some { session with ck, point := .calling request gid servers (ck.leaderId gid) }
      | none => some { session with point := .asking request }
  | _ => none

def call (session : Session) (reply : Option OpReply) : Option Session :=
  match session.point with
  | .calling request gid servers oldLeaderId => do
      let (ck, turn) ← session.ck.call request gid servers oldLeaderId reply
      let point : Point := match turn with
        | .returned value => .idle (some value)
        | .broke => .asking request
        | .continued => .calling request gid servers oldLeaderId
      return { session with ck, point }
  | _ => none

/-- `ck.config = ck.sm.Query(-1)`.  The handler of the query waits for the result of the
command that is applied at its index, which is the query itself or one that took its place.
If the result comes late, it is that of a query for an older number. -/
def ask (session : Session) (taken : CtrlerOp) : Option Session :=
  match session.point with
  | .asking request => (session.csm.applyToStateMachine taken).map fun (_, config) =>
      { session with ck := { session.ck with config }, point := .looking request }
  | _ => none

def step (session : Session) : SessionEvent → Option Session
  | .get key => session.start (.get { key })
  | .putAppend key value op => session.start (.putAppend
      { key, value, op, clientId := session.ck.clientId, seqId := session.ck.seqId })
  | .look => session.look
  | .call reply => session.call reply
  | .ask taken => session.ask taken
  | .agree op => (session.csm.applyToStateMachine op).map fun (csm, _) => { session with csm }

/-- The condition on what the controllers agree on and answer: as long as the lengths of the
lists are all the same, any result will do for an answer. -/
def Widens (session : Session) : SessionEvent → Prop
  | .agree op => session.csm.Widens op
  | .ask taken => taken = .query (-1) ∨ session.csm.Even
  | .get _ | .putAppend _ _ _ | .look | .call _ => True

end Session

def sessionSystem : System Session SessionEvent where
  init session := ∃ clientId, session = ⟨.new, .makeClerk clientId, .idle none⟩
  step := Session.step

namespace Clerk

variable {ck next : Clerk} {request : Request} {gid : Int} {servers : List String}
  {oldLeaderId : Nat} {seen : List Config}

/-- The clerk got its configurations from `seen`, the one with the longest lists last,
and every index it remembers was in range of some list. -/
structure Served (ck : Clerk) (seen : List Config) : Prop where
  current : ck.config ∈ seen
  longest : ∀ config ∈ seen, NoShorter config.groups ck.config.groups
  cached : ∀ gid id, ck.leaderIds gid = some id →
    ∃ config ∈ seen, id < (serversOf config.groups gid).length

theorem Served.leaderId_lt (served : ck.Served seen) (group : gid ∈ ck.config.groups)
    (some_server : serversOf ck.config.groups gid ≠ []) :
    ck.leaderId gid < (serversOf ck.config.groups gid).length := by
  unfold leaderId
  cases remembered : ck.leaderIds gid with
  | none => exact List.length_pos_of_ne_nil some_server
  | some id =>
      obtain ⟨config, given, inside⟩ := served.cached gid id remembered
      exact Nat.lt_of_lt_of_le inside (served.longest config given gid group)

theorem Served.setLeaderId (served : ck.Served seen) {id : Nat}
    (inside : id < (serversOf ck.config.groups gid).length) :
    (ck.setLeaderId gid id).Served seen := by
  refine ⟨served.current, served.longest, ?_⟩
  intro other cachedId remembered
  rw [setLeaderId_leaderIds] at remembered
  split at remembered
  · rename_i same
    cases remembered
    rw [same]
    exact ⟨ck.config, served.current, inside⟩
  · exact served.cached other cachedId remembered

theorem Served.initLeaderId (served : ck.Served seen)
    (some_server : serversOf ck.config.groups gid ≠ []) : (ck.initLeaderId gid).Served seen := by
  unfold Clerk.initLeaderId
  split
  · exact served
  · exact served.setLeaderId (List.length_pos_of_ne_nil some_server)

/-- A later answer of the controllers keeps what the clerk remembers in range. -/
theorem Served.answer (served : ck.Served seen) {later : List Config} {config : Config}
    (more : seen ⊆ later) (given : config ∈ later)
    (longest : ∀ earlier ∈ later, NoShorter earlier.groups config.groups) :
    ({ ck with config } : Clerk).Served later := by
  refine ⟨given, longest, ?_⟩
  intro gid id remembered
  obtain ⟨config, seen, inside⟩ := served.cached gid id remembered
  exact ⟨config, more seen, inside⟩

theorem Served.finish (served : ck.Served seen) (request : Request) :
    (ck.finish request).Served seen := by
  cases request with
  | get args => exact served
  | putAppend args => exact ⟨served.current, served.longest, served.cached⟩

/-- A round of the inner loop keeps the clerk, ends the request or moves on to the next
server. -/
theorem call_cases {reply : Option OpReply} {turn : Turn}
    (called : ck.call request gid servers oldLeaderId reply = some (next, turn)) :
    next = ck ∨ next = ck.finish request ∨
      servers.length ≠ 0 ∧
        next = ck.setLeaderId gid ((ck.leaderId gid + 1) % servers.length) := by
  obtain ⟨_, _, called⟩ := Option.bind_eq_some_iff.mp called
  have rotates : ck.rotate gid servers oldLeaderId = some (next, turn) → servers.length ≠ 0 ∧
      next = ck.setLeaderId gid ((ck.leaderId gid + 1) % servers.length) := by
    unfold rotate
    split
    · exact nofun
    · rename_i some_server
      intro rotated
      cases rotated
      exact ⟨some_server, rfl⟩
  cases reply with
  | none => exact .inr (.inr (rotates called))
  | some reply =>
      dsimp only at called
      split at called
      · cases called
        exact .inr (.inl rfl)
      split at called
      · cases called
        exact .inl rfl
      split at called
      · exact .inr (.inr (rotates called))
      · cases called
        exact .inl rfl

theorem Served.call (served : ck.Served seen) {reply : Option OpReply} {turn : Turn}
    (found : ck.config.groups.lookup gid = some servers)
    (called : ck.call request gid servers oldLeaderId reply = some (next, turn)) :
    next.Served seen ∧ next.config = ck.config := by
  rcases call_cases called with rfl | rfl | ⟨some_server, rfl⟩
  · exact ⟨served, rfl⟩
  · refine ⟨served.finish request, ?_⟩
    cases request <;> rfl
  · refine ⟨served.setLeaderId ?_, rfl⟩
    rw [serversOf, found]
    exact Nat.mod_lt _ (Nat.pos_of_ne_zero some_server)

/-- With the index in range no round panics. -/
theorem isSome_call (inside : ck.leaderId gid < servers.length) (reply : Option OpReply) :
    (ck.call request gid servers oldLeaderId reply).isSome := by
  have some_server : servers.length ≠ 0 := Nat.ne_zero_of_lt inside
  have rotates : (ck.rotate gid servers oldLeaderId).isSome := by
    rw [rotate, if_neg some_server]
    rfl
  unfold call
  rw [List.getElem?_eq_getElem inside, Option.bind_eq_bind, Option.bind_some]
  cases reply with
  | none => exact rotates
  | some reply =>
      dsimp only
      split
      · rfl
      split
      · rfl
      split
      · exact rotates
      · rfl

end Clerk

namespace Session

variable {session next : Session}

structure Bounded (session : Session) : Prop where
  first : defaultConfig ∈ session.csm.configs
  widening : session.csm.Widening
  served : ∃ seen, seen <+: session.csm.configs ∧ session.ck.Served seen
  listed : ∀ request gid servers oldLeaderId,
    session.point = .calling request gid servers oldLeaderId →
    session.ck.config.groups.lookup gid = some servers

theorem bounded_new (clientId : Nat) : Bounded ⟨.new, .makeClerk clientId, .idle none⟩ where
  first := List.mem_singleton_self _
  widening := CtrlerStateMachine.widening_new
  served := by
    refine ⟨[defaultConfig], List.prefix_rfl, List.mem_singleton_self _, ?_, nofun⟩
    intro config given gid none
    exact absurd none (AList.notMem_empty gid)
  listed := nofun

theorem Bounded.some_server (bounded : session.Bounded) {gid : Int}
    (group : gid ∈ session.ck.config.groups) :
    serversOf session.ck.config.groups gid ≠ [] := by
  obtain ⟨seen, given, served⟩ := bounded.served
  exact bounded.widening.served _ (given.subset served.current) gid group

theorem Bounded.leaderId_lt (bounded : session.Bounded) {request : Request} {gid : Int}
    {servers : List String} {oldLeaderId : Nat}
    (calling : session.point = .calling request gid servers oldLeaderId) :
    session.ck.leaderId gid < servers.length := by
  have found := bounded.listed _ _ _ _ calling
  have group : gid ∈ session.ck.config.groups :=
    AList.lookup_isSome.mp (Option.isSome_of_eq_some found)
  obtain ⟨seen, given, served⟩ := bounded.served
  have inside := served.leaderId_lt group (bounded.some_server group)
  rwa [serversOf, found] at inside

theorem Bounded.start (bounded : session.Bounded) {request : Request}
    (started : session.start request = some next) : next.Bounded := by
  unfold Session.start at started
  split at started
  · cases started
    exact ⟨bounded.first, bounded.widening, bounded.served, nofun⟩
  · cases started

theorem Bounded.look (bounded : session.Bounded) (looked : session.look = some next) :
    next.Bounded := by
  unfold Session.look at looked
  split at looked
  · rename_i request _
    dsimp only at looked
    split at looked
    · rename_i servers found
      cases looked
      have group := AList.lookup_isSome.mp (Option.isSome_of_eq_some found)
      obtain ⟨seen, given, served⟩ := bounded.served
      refine ⟨bounded.first, bounded.widening,
        ⟨seen, given, served.initLeaderId (bounded.some_server group)⟩, ?_⟩
      intro _ _ _ _ calling
      cases calling
      rw [Clerk.initLeaderId_config]
      exact found
    · cases looked
      exact ⟨bounded.first, bounded.widening, bounded.served, nofun⟩
  · cases looked

theorem Bounded.call (bounded : session.Bounded) {reply : Option OpReply}
    (called : session.call reply = some next) : next.Bounded := by
  unfold Session.call at called
  split at called
  · rename_i request gid servers oldLeaderId calling
    obtain ⟨⟨ck, turn⟩, rounded, made⟩ := Option.bind_eq_some_iff.mp called
    cases made
    obtain ⟨seen, given, served⟩ := bounded.served
    have found := bounded.listed _ _ _ _ calling
    obtain ⟨kept, same⟩ := served.call found rounded
    refine ⟨bounded.first, bounded.widening, ⟨seen, given, kept⟩, ?_⟩
    intro _ _ _ _ continues
    cases turn with
    | returned value => cases continues
    | broke => cases continues
    | continued =>
        cases continues
        rw [same]
        exact found
  · cases called

/-- The answer has lists that are long enough for every index the clerk remembers. -/
theorem Bounded.ask (bounded : session.Bounded) {taken : CtrlerOp}
    (fits : taken = .query (-1) ∨ session.csm.Even) (asked : session.ask taken = some next) :
    next.Bounded := by
  unfold Session.ask at asked
  split at asked
  · obtain ⟨⟨_, config⟩, applied, made⟩ := Option.map_eq_some_iff.mp asked
    cases made
    obtain ⟨seen, given, served⟩ := bounded.served
    have answer := CtrlerStateMachine.reply_mem bounded.first applied
    have longest : ∀ earlier ∈ session.csm.configs, NoShorter earlier.groups config.groups := by
      rcases fits with rfl | even
      · cases applied
        exact fun _ => bounded.widening.noShorter_lastConfig
      · exact fun earlier made => even earlier made config answer
    exact ⟨bounded.first, bounded.widening, ⟨session.csm.configs, List.prefix_rfl,
      served.answer given.subset answer longest⟩, nofun⟩
  · cases asked

theorem Bounded.agree (bounded : session.Bounded) {op : CtrlerOp} {csm : CtrlerStateMachine}
    {reply : Config} (widens : session.csm.Widens op)
    (applied : session.csm.applyToStateMachine op = some (csm, reply)) :
    ({ session with csm } : Session).Bounded := by
  obtain ⟨seen, given, served⟩ := bounded.served
  have made : session.csm.configs ≠ [] := List.ne_nil_of_mem (given.subset served.current)
  obtain ⟨widening, grown⟩ := bounded.widening.apply made widens applied
  exact ⟨grown.subset bounded.first, widening, ⟨seen, given.trans grown, served⟩, bounded.listed⟩

theorem Bounded.step (bounded : session.Bounded) {event : SessionEvent}
    (widens : session.Widens event) (stepped : session.step event = some next) :
    next.Bounded := by
  cases event with
  | get key => exact bounded.start stepped
  | putAppend key value op => exact bounded.start stepped
  | look => exact bounded.look stepped
  | call reply => exact bounded.call stepped
  | ask taken => exact bounded.ask widens stepped
  | agree op =>
      obtain ⟨⟨csm, reply⟩, applied, made⟩ := Option.map_eq_some_iff.mp stepped
      cases made
      exact bounded.agree widens applied

end Session

theorem bounded_of_reachable {session : Session}
    (reached : sessionSystem.Reachable Session.Widens session) : session.Bounded := by
  refine reached.preserves ?_ fun _ _ _ bounded widens stepped => bounded.step widens stepped
  rintro _ ⟨clientId, rfl⟩
  exact Session.bounded_new clientId

/-- If every group joins with servers, and never with fewer than before, and every query is
answered with its own result or no group has had lists of different lengths, then whatever
the servers answer, the clerk indexes inside the list it has and divides by its length. -/
theorem clerk_in_range {session : Session}
    (reached : sessionSystem.Reachable Session.Widens session) {request : Request} {gid : Int}
    {servers : List String} {oldLeaderId : Nat}
    (calling : session.point = .calling request gid servers oldLeaderId) :
    session.ck.leaderId gid < servers.length ∧ servers.length ≠ 0 ∧
    ∀ reply, (session.ck.call request gid servers oldLeaderId reply).isSome := by
  have inside := (bounded_of_reachable reached).leaderId_lt calling
  exact ⟨inside, Nat.ne_zero_of_lt inside, Clerk.isSome_call inside⟩

def newSession : Session := ⟨.new, .makeClerk 0, .idle none⟩

/-- Nothing joins, and a query is answered with its own result. -/
def SessionEvent.calm : SessionEvent → Bool
  | .agree (.join _) => false
  | .ask (.query num) => num == -1
  | .ask _ => false
  | _ => true

/-- The controllers with group 1 as their only group, which has all shards. -/
def withGroup (csm : CtrlerStateMachine) (servers : List String) : CtrlerStateMachine :=
  csm.add (fun _ => 1) (AList.singleton 1 servers)

theorem step_join {session : Session} (none : session.csm.lastConfig.groups = ∅)
    (free : session.csm.lastConfig.shards = fun _ => 0) (servers : List String) :
    sessionSystem.step session (.agree (.join (AList.singleton 1 servers))) =
      some { session with csm := withGroup session.csm servers } := by
  have joined : CtrlerStateMachine.joinGroups ∅ (AList.singleton 1 servers) =
      AList.singleton 1 servers := rfl
  have gathered : gatherShards (AList.singleton 1 servers) (fun _ => 0) =
      gatherShards (AList.singleton 1 []) fun _ => 0 := rfl
  obtain ⟨table, balanced, stored⟩ : ∃ table, rebalance (nShards + nShards * nShards)
      (gatherShards (AList.singleton 1 []) fun _ => 0) = some table ∧
      storeShards table = fun _ => 1 := by
    refine ⟨_, rfl, ?_⟩
    funext shard
    revert shard
    decide +kernel
  simp only [sessionSystem, Session.step, CtrlerStateMachine.applyToStateMachine,
    CtrlerStateMachine.join, none, free, joined, gathered, balanced, Option.bind_eq_bind,
    Option.bind_some, stored]
  rfl

/-- A clerk that moved on to the second server of group 1. -/
def rotatedClerk (config : Config) : Clerk :=
  { config, leaderIds := Function.update (Function.update (fun _ => none) 1 (some 0)) 1 (some 1),
    clientId := 0, seqId := 0 }

/-- The controllers after a group with two servers has left. -/
def leftCtrler : CtrlerStateMachine := (withGroup .new ["a", "b"]).leave [1]

/-- The clerk finds group 1 back with the servers given. -/
def replacedSession (servers : List String) : Session :=
  { csm := withGroup leftCtrler servers
    ck := rotatedClerk (withGroup leftCtrler servers).lastConfig
    point := .calling (.get ⟨""⟩) 1 servers 1 }

theorem run_replacedSession (servers : List String) {allowed : Session → SessionEvent → Prop}
    (calm : ∀ session event, event.calm = true → allowed session event)
    (first : allowed newSession (.agree (.join (AList.singleton 1 ["a", "b"]))))
    (second : ∀ session : Session, session.csm = leftCtrler →
      allowed session (.agree (.join (AList.singleton 1 servers)))) :
    sessionSystem.Run allowed newSession (replacedSession servers) := by
  let left : Session :=
    { csm := leftCtrler, ck := rotatedClerk (withGroup .new ["a", "b"]).lastConfig,
      point := .calling (.get ⟨""⟩) 1 ["a", "b"] 0 }
  have rotated : sessionSystem.execute (fun _ event => event.calm)
      { newSession with csm := withGroup .new ["a", "b"] }
      [.get "", .look, .ask (.query (-1)), .look, .call none, .agree (.leave [1])] = some left := rfl
  have found : sessionSystem.execute (fun _ event => event.calm)
      { left with csm := withGroup leftCtrler servers }
      [.call (some ⟨"", .errWrongGroup⟩), .ask (.query (-1)), .look] =
        some (replacedSession servers) := rfl
  exact (System.Run.tail (.refl _) first (step_join rfl rfl _)).trans
    (((System.run_of_execute rotated).mono calm).trans
      ((System.Run.tail (.refl _) (second left rfl) (step_join rfl rfl _)).trans
        ((System.run_of_execute found).mono calm)))

theorem clerk_in_range_replaced :
    (replacedSession ["c", "d"]).point = .calling (.get ⟨""⟩) 1 ["c", "d"] 1 ∧
    (replacedSession ["c", "d"]).ck.leaderId 1 < 2 := by
  have run : sessionSystem.Run Session.Widens newSession (replacedSession ["c", "d"]) := by
    have first : CtrlerStateMachine.new.Widens (.join (AList.singleton 1 ["a", "b"])) := by
      decide
    refine run_replacedSession _ ?_ first ?_
    · intro session event calm
      cases event with
      | agree op =>
          cases op with
          | join joining => cases calm
          | query | leave | move => exact trivial
      | ask taken =>
          cases taken with
          | query num => exact .inl (congrArg CtrlerOp.query (of_decide_eq_true calm))
          | join | leave | move => cases calm
      | get | putAppend | look | call => exact trivial
    · intro session left
      rw [Session.Widens, left]
      decide +kernel
  exact ⟨rfl, (clerk_in_range ⟨newSession, ⟨0, rfl⟩, run⟩ rfl).1⟩

/-- The clerk finds a group without servers. -/
def emptyGroupSession : Session :=
  { csm := withGroup .new []
    ck := { Clerk.makeClerk 0 with
      config := (withGroup .new []).lastConfig
      leaderIds := Function.update (fun _ => none) 1 (some 0) }
    point := .calling (.get ⟨""⟩) 1 [] 0 }

/-- The clerk has used the second server of group 1 and finds the list of its first time
again. -/
def outdatedSession : Session :=
  { csm := withGroup ((withGroup .new ["a"]).leave [1]) ["b", "c"]
    ck := rotatedClerk (withGroup .new ["a"]).lastConfig
    point := .calling (.get ⟨""⟩) 1 ["a"] 1 }

theorem run_outdatedSession :
    sessionSystem.Run System.anyStep newSession outdatedSession := by
  let joined : Session := { newSession with csm := withGroup .new ["a"] }
  let left : Session := { newSession with csm := (withGroup .new ["a"]).leave [1] }
  have leaves : sessionSystem.execute (fun _ _ => true) joined [.agree (.leave [1])] =
      some left := rfl
  have answered : sessionSystem.execute (fun _ _ => true)
      { left with csm := withGroup left.csm ["b", "c"] }
      [.get "", .look, .ask (.query (-1)), .look, .call none,
        .call (some ⟨"", .errWrongGroup⟩), .ask (.query 1), .look] = some outdatedSession := rfl
  exact (System.Run.tail (.refl _) trivial (step_join rfl rfl _)).trans
    (((System.run_of_execute leaves).mono fun _ _ _ => trivial).trans
      ((System.Run.tail (.refl _) trivial (step_join rfl rfl _)).trans
        ((System.run_of_execute answered).mono fun _ _ _ => trivial)))

/-- With an empty list, with a list that lost its second server, or with the list of an
older configuration, the clerk panics before it can call anyone. -/
theorem clerk_out_of_range :
    (sessionSystem.Reachable System.anyStep emptyGroupSession ∧
      emptyGroupSession.point = .calling (.get ⟨""⟩) 1 [] 0 ∧
      ∀ reply, emptyGroupSession.ck.call (.get ⟨""⟩) 1 [] 0 reply = none) ∧
    (sessionSystem.Reachable System.anyStep (replacedSession ["c"]) ∧
      (replacedSession ["c"]).point = .calling (.get ⟨""⟩) 1 ["c"] 1 ∧
      ∀ reply, (replacedSession ["c"]).ck.call (.get ⟨""⟩) 1 ["c"] 1 reply = none) ∧
    (sessionSystem.Reachable System.anyStep outdatedSession ∧
      outdatedSession.point = .calling (.get ⟨""⟩) 1 ["a"] 1 ∧
      ∀ reply, outdatedSession.ck.call (.get ⟨""⟩) 1 ["a"] 1 reply = none) := by
  have found : sessionSystem.execute (fun _ _ => true)
      { newSession with csm := withGroup .new [] } [.get "", .look, .ask (.query (-1)), .look] =
        some emptyGroupSession := rfl
  have emptied := (System.Run.tail (.refl newSession) trivial (step_join rfl rfl [])).trans
    ((System.run_of_execute found).mono fun _ _ _ => trivial)
  have replaced : sessionSystem.Run System.anyStep newSession (replacedSession ["c"]) :=
    run_replacedSession _ (fun _ _ _ => trivial) trivial fun _ _ => trivial
  exact ⟨⟨⟨newSession, ⟨0, rfl⟩, emptied⟩, rfl, fun _ => rfl⟩,
    ⟨⟨newSession, ⟨0, rfl⟩, replaced⟩, rfl, fun _ => rfl⟩,
    ⟨newSession, ⟨0, rfl⟩, run_outdatedSession⟩, rfl, fun _ => rfl⟩

end Shardkv

end MultiRaft
