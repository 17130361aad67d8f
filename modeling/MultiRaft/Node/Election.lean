import MultiRaft.Node.Step
import MultiRaft.Node.Storage
import MultiRaft.Lib.Tally

/-!
# Election safety of `Node`

As for the labrpc `Raft`, the cluster simulates the election of `Lib.Ballots`
and its counters are sound by `Lib.Tally`.  A vote goroutine checks its context,
counts and promotes in three separate steps.  The count may therefore happen
when the node has long left the election; what the promotion needs is only that
the counter stands for votes cast in its own term, and that the node is still a
candidate of that term when it takes the lock again.
-/

namespace MultiRaft

variable {n : Nat} {Command : Type}

namespace Node

def view (node : Node n Command) : ElectionView (Fin n) where
  currentTerm := node.currentTerm
  votedFor := node.votedFor
  leading := node.role = .leader

/-- A candidate or leader has voted for itself. -/
def SelfVoted (node : Node n Command) : Prop :=
  node.role ≠ .follower → node.votedFor = some node.me

/-- What any section does to the election; only a promotion makes a leader. -/
structure ElectionStep (node next : Node n Command) (call : NodeCall n Command) : Prop where
  evolves : node.view.Evolves next.view
  me : next.me = node.me
  selfVoted : next.SelfVoted
  leads : next.role = .leader →
    (node.role = .leader ∧ next.currentTerm = node.currentTerm) ∨
    call = .promote next.currentTerm

theorem ElectionStep.of_same {node next : Node n Command} {call : NodeCall n Command}
    (selfVoted : node.SelfVoted) (term : next.currentTerm = node.currentTerm)
    (vote : next.votedFor = node.votedFor) (me : next.me = node.me)
    (role : next.role = node.role) : ElectionStep node next call where
  evolves := .inr ⟨term.symm, .inr vote⟩
  me := me
  selfVoted active := by
    rw [vote, me]
    exact selfVoted (role ▸ active)
  leads leads := .inl ⟨role ▸ leads, term⟩

theorem ElectionStep.of_follower {node next : Node n Command} {call : NodeCall n Command}
    (evolves : node.view.Evolves next.view) (me : next.me = node.me)
    (role : next.role = .follower) : ElectionStep node next call where
  evolves := evolves
  me := me
  selfVoted active := absurd role active
  leads leads := by
    rw [role] at leads
    cases leads

theorem electionStep_becomeFollowerLocked (node : Node n Command) {term : Nat}
    (current : node.currentTerm ≤ term) (call : NodeCall n Command) :
    ElectionStep node (node.becomeFollowerLocked term) call := by
  rcases node.becomeFollowerLocked_cases current with ⟨_, result⟩ | ⟨later, result⟩
  · rw [result]
    exact .of_follower (.inr ⟨rfl, .inr rfl⟩) rfl rfl
  · rw [result]
    exact .of_follower (.inl later) rfl rfl

theorem aligned_currentTerm (node : Node n Command) {term : Nat}
    (current : node.currentTerm ≤ term) : (node.aligned term).currentTerm = term := by
  rcases node.aligned_cases current with ⟨same, result⟩ | ⟨_, result⟩
  · rw [result]
    exact same.symm
  · rw [result]
    rfl

/-- Granting a vote changes no vote: it is the first of its term, or goes to the
candidate that has it already. -/
theorem electionStep_vote {node : Node n Command} (selfVoted : node.SelfVoted)
    {req : RequestVoteArgs n} (current : node.currentTerm ≤ req.term)
    (free : (node.aligned req.term).votedFor = none ∨
      (node.aligned req.term).votedFor = some req.candidateId) :
    ElectionStep node
      (persistLocked { node.aligned req.term with votedFor := some req.candidateId })
      (.requestVote req) := by
  rcases node.aligned_cases current with ⟨_, aligns⟩ | ⟨later, aligns⟩
  · rw [aligns] at free ⊢
    rcases free with unvoted | voted
    · have passive : node.role = .follower := by
        by_contra active
        have voted := selfVoted active
        rw [unvoted] at voted
        cases voted
      exact .of_follower (.inr ⟨rfl, .inl unvoted⟩) rfl passive
    · exact .of_same selfVoted rfl voted.symm rfl rfl
  · rw [aligns]
    exact .of_follower (.inl later) rfl rfl

/-- A restart would bring back the present term and vote. -/
def Recovers (node : Node n Command) : Prop :=
  ∀ capacity, (newNode node.me node.storage capacity).currentTerm = node.currentTerm ∧
    (newNode node.me node.storage capacity).votedFor = node.votedFor

theorem Stored.recovers {node : Node n Command} (stored : node.Stored) : node.Recovers := by
  intro capacity
  rw [stored.newNode_eq]
  exact ⟨rfl, rfl⟩

theorem newNode_me (me : Fin n) (storage : RaftStorage n Command) (capacity : Nat) :
    (newNode me storage capacity).me = me := by
  unfold newNode loadFromStorage
  grind

theorem newNode_role (me : Fin n) (storage : RaftStorage n Command) (capacity : Nat) :
    (newNode me storage capacity).role = .follower := by
  unfold newNode loadFromStorage
  grind

theorem electionStep_handle {node next : Node n Command} {call : NodeCall n Command}
    (recovers : node.Recovers) (selfVoted : node.SelfVoted)
    (handled : node.handle call = some next) : ElectionStep node next call := by
  cases handle_outcome handled with
  | follow _ term current => exact electionStep_becomeFollowerLocked node current _
  | stand =>
      refine ⟨.inl (Nat.lt_succ_self _), rfl, fun _ => rfl, ?_⟩
      intro leads
      cases leads
  | vote req current free => exact electionStep_vote selfVoted current free
  | promote term candidate sameTerm =>
      refine ⟨.inr ⟨rfl, .inr rfl⟩, rfl, fun _ => selfVoted (by rw [candidate]; decide), ?_⟩
      intro _
      exact .inr (by rw [sameTerm])
  | adopt req prev log current =>
      have step := electionStep_becomeFollowerLocked node current (.appendEntries req)
      exact ⟨step.evolves, step.me, step.selfVoted, step.leads⟩
  | install req log current =>
      have step := electionStep_becomeFollowerLocked node current (.installSnapshot req)
      exact ⟨step.evolves, step.me, step.selfVoted, step.leads⟩
  | restart capacity =>
      obtain ⟨term, vote⟩ := recovers capacity
      exact .of_follower (.inr ⟨term.symm, .inr vote⟩) (newNode_me _ _ _) (newNode_role _ _ _)
  | stay | replicate | probe | count | commit | ship | start | compact | collectSnapshot | collect
  | send | receive | giveUp => exact .of_same selfVoted rfl rfl rfl rfl

end Node

/-- Candidate, voter and term of a vote that is asked for and not yet counted or
given up. -/
def NodePacket.voteKey (call : NodePacket n Command) : Option (Fin n × Fin n × Nat) :=
  match call.body with
  | .vote args _ .calling => some (call.caller, call.peer, args.term)
  | .vote args _ .counting => some (call.caller, call.peer, args.term)
  | _ => none

/-- A vote request names its sender, granted responses and votes about to be
counted were cast, and a goroutine that found enough votes has a majority. -/
def NodePacket.Honest (call : NodePacket n Command) (ballots : Ballots (Fin n)) : Prop :=
  match call.body with
  | .vote args responses phase =>
      args.candidateId = call.caller ∧
      (∀ resp ∈ responses, resp.voteGranted = true →
        ballots.vote call.peer args.term = some call.caller) ∧
      (phase = .counting → ballots.vote call.peer args.term = some call.caller) ∧
      (phase = .won → Majority (ballots.voters args.term call.caller))
  | _ => True

theorem NodePacket.Honest.grows {call : NodePacket n Command} {old new : Ballots (Fin n)}
    (honest : call.Honest old) (grows : old.Grows new) : call.Honest new := by
  unfold NodePacket.Honest at honest ⊢
  split at honest
  · rcases honest with ⟨candidate, responses, counting, won⟩
    refine ⟨candidate, ?_, ?_, ?_⟩
    · intro resp member granted
      exact grows.vote_kept _ _ _ (responses resp member granted)
    · intro isCounting
      exact grows.vote_kept _ _ _ (counting isCounting)
    · intro hasWon
      refine Majority.mono ?_ (won hasWon)
      intro voter voted
      rw [Ballots.mem_voters] at voted ⊢
      exact grows.vote_kept _ _ _ voted
  · trivial

namespace NodeCluster

def view (cluster : NodeCluster n Command) (node : Fin n) : ElectionView (Fin n) :=
  (cluster.nodes node).view

def voteKeys (cluster : NodeCluster n Command) : List (Fin n × Fin n × Nat) :=
  cluster.calls.filterMap NodePacket.voteKey

def opened (cluster : NodeCluster n Command) : List (Fin n × Nat) :=
  cluster.elections.map fun pending => (pending.candidate, pending.term)

/-- What holds of each node by itself, and the history that tracks them. -/
structure Voting (cluster : NodeCluster n Command) (ballots : Ballots (Fin n)) : Prop where
  me : ∀ node, (cluster.nodes node).me = node
  stored : ∀ node, (cluster.nodes node).Stored
  selfVoted : ∀ node, (cluster.nodes node).SelfVoted
  tracks : ballots.Tracks cluster.view

def Tallied (cluster : NodeCluster n Command) (counted : Fin n → Nat → Finset (Fin n)) : Prop :=
  Tally (fun node => (cluster.nodes node).currentTerm) cluster.opened cluster.voteKeys
    cluster.votes counted

structure ElectionInv (cluster : NodeCluster n Command) (ballots : Ballots (Fin n))
    (counted : Fin n → Nat → Finset (Fin n)) : Prop where
  voting : cluster.Voting ballots
  tally : cluster.Tallied counted
  calls : ∀ call ∈ cluster.calls, call.Honest ballots
  counted : ∀ candidate voter term, voter ∈ counted candidate term →
    ballots.vote voter term = some candidate

variable {ballots : Ballots (Fin n)}

theorem Voting.handle {cluster : NodeCluster n Command} (voting : cluster.Voting ballots)
    {node : Fin n} {next : Node n Command} {call : NodeCall n Command}
    (handled : (cluster.nodes node).handle call = some next) :
    Node.ElectionStep (cluster.nodes node) next call :=
  Node.electionStep_handle (voting.stored node).recovers (voting.selfVoted node) handled

variable {cluster next : NodeCluster n Command}

theorem Voting.evolves (voting : cluster.Voting ballots) (stepped : cluster.Step next)
    (node : Fin n) :
    (cluster.view node).Evolves (next.view node) := by
  rcases stepped.nodes node with same | ⟨call, handled, _⟩ | ⟨capacity, restarted⟩
  · rw [view, view, same]
    exact .refl _
  · exact (voting.handle handled).evolves
  · rw [view, view, restarted, (voting.stored node).newNode_eq]
    exact .inr ⟨rfl, .inr rfl⟩

theorem Voting.observe (voting : cluster.Voting ballots) (stepped : cluster.Step next)
    (wins : ∀ node, (next.nodes node).role = .leader →
      ballots.led (next.nodes node).currentTerm node ∨
        Majority ((ballots.observe next.view).voters (next.nodes node).currentTerm node)) :
    next.Voting (ballots.observe next.view) where
  me node := by
    rcases stepped.nodes node with same | ⟨call, handled, _⟩ | ⟨capacity, restarted⟩
    · rw [same]
      exact voting.me node
    · rw [(voting.handle handled).me]
      exact voting.me node
    · rw [restarted, (voting.stored node).newNode_eq]
  stored node := by
    rcases stepped.nodes node with same | ⟨call, handled, _⟩ | ⟨capacity, restarted⟩
    · rw [same]
      exact voting.stored node
    · exact (voting.stored node).handle handled
    · rw [restarted]
      exact (voting.stored node).newNode node capacity
  selfVoted node := by
    rcases stepped.nodes node with same | ⟨call, handled, _⟩ | ⟨capacity, restarted⟩
    · rw [same]
      exact voting.selfVoted node
    · exact (voting.handle handled).selfVoted
    · rw [restarted, (voting.stored node).newNode_eq]
      exact fun active => absurd rfl active
  tracks := voting.tracks.observe (voting.evolves stepped) wins

variable {counted : Fin n → Nat → Finset (Fin n)}

/-- Whoever leads after a step led before, or was promoted by a goroutine that
had found enough votes. -/
theorem ElectionInv.wins (inv : cluster.ElectionInv ballots counted) (stepped : cluster.Step next)
    (node : Fin n) (leads : (next.nodes node).role = .leader) :
    ballots.led (next.nodes node).currentTerm node ∨
      Majority ((ballots.observe next.view).voters (next.nodes node).currentTerm node) := by
  have before : (cluster.nodes node).role = .leader →
      (next.nodes node).currentTerm = (cluster.nodes node).currentTerm →
      ballots.led (next.nodes node).currentTerm node := by
    intro led sameTerm
    rw [sameTerm]
    exact inv.voting.tracks.leading node led
  rcases stepped.nodes node with same | ⟨call, handled, runs⟩ | ⟨capacity, restarted⟩
  · exact .inl (before (same ▸ leads) (by rw [same]))
  · rcases (inv.voting.handle handled).leads leads with ⟨led, sameTerm⟩ | rfl
    · exact .inl (before led sameTerm)
    · rcases runs with ⟨goroutine, member, args, responses, body, rfl, term⟩
      have honest := (inv.calls goroutine member).grows
        (inv.voting.tracks.grows_observe (inv.voting.evolves stepped))
      simp only [NodePacket.Honest, body] at honest
      rw [← term]
      exact .inr (honest.2.2.2 trivial)
  · rw [restarted, (inv.voting.stored node).newNode_eq] at leads
    cases leads

theorem voteKeys_replicationCalls (cluster : NodeCluster n Command) (node : Fin n)
    (requests : List (Fin n × NodeReplicate n Command)) :
    (cluster.replicationCalls node requests).filterMap NodePacket.voteKey = [] := by
  rw [List.filterMap_eq_nil_iff]
  intro call member
  rcases List.mem_map.mp member with ⟨⟨peer, request⟩, _, rfl⟩
  cases request <;> rfl

theorem voteKeys_electionCalls (node : Node n Command) (pending : NodeElection n) :
    (electionCalls node pending).filterMap NodePacket.voteKey =
      ((List.finRange n).filter (· ≠ node.me)).map fun peer =>
        (pending.candidate, peer, node.currentTerm) := by
  simp only [electionCalls, Node.voteRequests, List.map_map, List.filterMap_map]
  rw [← List.filterMap_eq_map]
  rfl

theorem ElectionInv.tally_election (inv : cluster.ElectionInv ballots counted) {index : Nat}
    {pending : NodeElection n} (found : cluster.elections[index]? = some pending)
    (sameTerm : (cluster.nodes pending.candidate).currentTerm = pending.term) :
    Tallied { cluster with
      elections := cluster.elections.eraseIdx index
      votes := Function.update cluster.votes pending.candidate
        (Function.update (cluster.votes pending.candidate) pending.term 1)
      calls := cluster.calls ++ electionCalls (cluster.nodes pending.candidate) pending }
      (Function.update counted pending.candidate
        (Function.update (counted pending.candidate) pending.term {pending.candidate})) := by
  have isOpen : cluster.opened[index]? = some (pending.candidate, pending.term) := by
    simp [opened, found]
  have distinct : ((List.finRange n).filter (· ≠ pending.candidate)).Nodup :=
    (List.nodup_finRange n).filter _
  have asked := inv.tally.ask isOpen distinct (by simp)
  rw [Tallied, opened, voteKeys, List.filterMap_append, voteKeys_electionCalls,
    inv.voting.me, sameTerm, ← List.eraseIdx_map]
  exact asked

/-- A goroutine that has counted its vote holds none any more. -/
theorem ElectionInv.tally_count (inv : cluster.ElectionInv ballots counted) {index : Nat}
    {call new : NodePacket n Command} {args : RequestVoteArgs n} {responses : List RequestVoteReply}
    (found : cluster.calls[index]? = some call) (body : call.body = .vote args responses .counting)
    (keyless : new.voteKey = none) :
    Tallied { cluster.setCall index new with
      votes := Function.update cluster.votes call.caller (Function.update
        (cluster.votes call.caller) args.term (cluster.votes call.caller args.term + 1)) }
      (Function.update counted call.caller (Function.update (counted call.caller) args.term
        (insert call.peer (counted call.caller args.term)))) := by
  have key : call.voteKey = some (call.caller, call.peer, args.term) := by
    simp [NodePacket.voteKey, body]
  have tally := inv.tally.count
    (List.mem_filterMap.mpr ⟨call, List.mem_of_getElem? found, key⟩)
    (filterMap_eraseIdx_sublist NodePacket.voteKey cluster.calls index)
    (notMem_filterMap_eraseIdx inv.tally.keys_nodup found key)
  rw [Tallied, voteKeys, setCall, filterMap_set_of_none _ _ keyless]
  exact tally

/-- Whatever a step counts, it counts votes that were cast before it. -/
theorem ElectionInv.tally_step (inv : cluster.ElectionInv ballots counted)
    (stepped : cluster.Step next) :
    ∃ counted', next.Tallied counted' ∧ ∀ candidate voter term,
      voter ∈ counted' candidate term → ballots.vote voter term = some candidate := by
  have terms : ∀ node, (cluster.nodes node).currentTerm ≤ (next.nodes node).currentTerm :=
    fun node => (inv.voting.evolves stepped node).term_le
  have shrink : next.elections.Sublist cluster.elections →
      next.voteKeys.Sublist cluster.voteKeys → next.votes = cluster.votes →
      ∃ counted', next.Tallied counted' ∧ ∀ candidate voter term,
        voter ∈ counted' candidate term → ballots.vote voter term = some candidate := by
    intro elections keys votes
    refine ⟨counted, ?_, inv.counted⟩
    rw [Tallied, votes]
    exact inv.tally.shrink terms (elections.map _) keys
  cases stepped with
  | timeout node notLeader =>
      refine ⟨counted, ?_, inv.counted⟩
      have fresh : (cluster.nodes node).currentTerm <
          (cluster.nodes node).becomeCandidateLocked.currentTerm := by
        rw [Node.becomeCandidateLocked_eq _ notLeader]
        exact Nat.lt_succ_self _
      have tally := inv.tally.openElection node terms (by simpa using fresh)
      simp only [setNode_nodes_self] at tally
      rw [Tallied, opened, List.map_append]
      exact tally
  | electionLost index => exact shrink (List.eraseIdx_sublist _ _) (.refl _) rfl
  | election index pending found sameTerm isCandidate =>
      refine ⟨_, inv.tally_election found sameTerm, Tally.cast_update inv.counted ?_⟩
      intro voter self
      have voted := inv.voting.selfVoted pending.candidate (by rw [isCandidate]; decide)
      rw [inv.voting.me] at voted
      rw [Finset.mem_singleton.mp self, ← sameTerm]
      exact (inv.voting.tracks.vote_eq pending.candidate).trans voted
  | voteRequest index call args responses phase found body =>
      refine shrink (.refl _) (filterMap_set_sublist found (.inl ?_)) rfl
      cases phase <;> simp [NodePacket.voteKey, body]
  | appendRequest index call args responses returned node resp found body handled =>
      refine shrink (.refl _) (filterMap_set_sublist found (.inr ?_)) rfl
      simp [NodePacket.voteKey]
  | snapshotRequest index call args responses returned node resp found body handled =>
      refine shrink (.refl _) (filterMap_set_sublist found (.inr ?_)) rfl
      simp [NodePacket.voteKey]
  | voteAnswer index call args responses resp found body member =>
      refine shrink (.refl _) (filterMap_set_sublist found ?_) rfl
      split
      · exact .inl (by simp [NodePacket.voteKey, body])
      · exact .inr rfl
  | appendAnswer index call args responses resp node found body member handled =>
      refine shrink (.refl _) (filterMap_set_sublist found (.inr ?_)) rfl
      simp [NodePacket.voteKey]
  | snapshotAnswer index call args responses resp found body member =>
      refine shrink (.refl _) (filterMap_set_sublist found (.inr ?_)) rfl
      simp [NodePacket.voteKey]
  | count index call args responses found body =>
      refine ⟨_, inv.tally_count found body (by split <;> rfl),
        Tally.cast_update inv.counted ?_⟩
      intro voter member
      rcases Finset.mem_insert.mp member with rfl | old
      · have honest := inv.calls call (List.mem_of_getElem? found)
        simp only [NodePacket.Honest, body] at honest
        exact honest.2.2.1 trivial
      · exact inv.counted _ _ _ old
  | promote index call args responses found body =>
      exact shrink (.refl _) (filterMap_set_sublist found (.inr rfl)) rfl
  | replicate node term result requests started =>
      refine shrink (.refl _) ?_ rfl
      rw [voteKeys, List.filterMap_append, voteKeys_replicationCalls, List.append_nil, voteKeys]
  | ownSection | restart => exact shrink (.refl _) (.refl _) rfl

/-- A granted response is sent by a node that has just voted, or voted so before. -/
theorem granted_handleRequestVote {peer : Fin n} {req : RequestVoteArgs n}
    (moved : next.nodes peer = ((cluster.nodes peer).handleRequestVote req).1)
    (granted : ((cluster.nodes peer).handleRequestVote req).2.voteGranted = true) :
    (ballots.observe next.view).vote peer req.term = some req.candidateId := by
  rcases (cluster.nodes peer).handleRequestVote_cases req with
    ⟨_, _, refused⟩ | ⟨_, _, refused⟩ | ⟨current, _, _, result, _⟩
  · rw [refused] at granted
    cases granted
  · rw [refused] at granted
    cases granted
  · have term := (cluster.nodes peer).aligned_currentTerm current
    simp [Ballots.observe, view, Node.view, moved, result, Node.persistLocked, term]

theorem ElectionInv.calls_step (inv : cluster.ElectionInv ballots counted)
    (stepped : cluster.Step next) :
    ∀ call ∈ next.calls, call.Honest (ballots.observe next.view) := by
  have grows := inv.voting.tracks.grows_observe (inv.voting.evolves stepped)
  have old : ∀ call ∈ cluster.calls, call.Honest (ballots.observe next.view) :=
    fun call member => (inv.calls call member).grows grows
  intro call member
  cases stepped with
  | timeout | electionLost | ownSection | restart => exact old call member
  | election index pending found sameTerm isCandidate =>
      rcases List.mem_append.mp member with before | new
      · exact old call before
      · rcases List.mem_map.mp new with ⟨⟨peer, args⟩, asked, rfl⟩
        rcases List.mem_map.mp asked with ⟨_, _, same⟩
        cases same
        refine ⟨inv.voting.me pending.candidate, ?_, ?_, ?_⟩
        · intro resp none
          cases none
        · intro impossible
          cases impossible
        · intro impossible
          cases impossible
  | voteRequest index asked args responses phase found body =>
      rcases List.mem_or_eq_of_mem_set member with before | rfl
      · exact old call before
      · have honest := old asked (List.mem_of_getElem? found)
        simp only [NodePacket.Honest, body] at honest ⊢
        refine ⟨honest.1, ?_, honest.2.2⟩
        intro resp among granted
        rcases List.mem_append.mp among with earlier | new
        · exact honest.2.1 resp earlier granted
        · cases List.mem_singleton.mp new
          rw [← honest.1]
          exact granted_handleRequestVote (by simp [setCall]) granted
  | appendRequest | snapshotRequest | appendAnswer | snapshotAnswer =>
      rcases List.mem_or_eq_of_mem_set member with before | rfl
      · exact old call before
      · trivial
  | voteAnswer index asked args responses resp found body among =>
      rcases List.mem_or_eq_of_mem_set member with before | rfl
      · exact old call before
      · have honest := old asked (List.mem_of_getElem? found)
        simp only [NodePacket.Honest, body] at honest ⊢
        refine ⟨honest.1, honest.2.1, ?_, ?_⟩
        · intro counting
          rcases (cluster.nodes asked.caller).checkVote_cases args.term resp with
            ⟨_, result⟩ | result | ⟨_, _, granted, _⟩
          · simp [result] at counting
          · simp [result] at counting
          · exact honest.2.1 resp among granted
        · intro won
          split at won <;> cases won
  | count index asked args responses found body =>
      rcases List.mem_or_eq_of_mem_set member with before | rfl
      · exact old call before
      · have isCall := List.mem_of_getElem? found
        have honest := old asked isCall
        simp only [NodePacket.Honest, body] at honest ⊢
        refine ⟨honest.1, honest.2.1, ?_, ?_⟩
        · intro counting
          split at counting <;> cases counting
        · intro won
          refine inv.tally.majority
            (List.mem_filterMap.mpr ⟨asked, isCall, by simp [NodePacket.voteKey, body]⟩)
            (honest.2.2.1 trivial) ?_ ?_
          · intro voter counts
            exact grows.vote_kept _ _ _ (inv.counted _ _ _ counts)
          · rw [Fintype.card_fin]
            by_contra few
            rw [if_neg few] at won
            cases won
  | promote index asked args responses found body =>
      rcases List.mem_or_eq_of_mem_set member with before | rfl
      · exact old call before
      · have honest := old asked (List.mem_of_getElem? found)
        simp only [NodePacket.Honest, body] at honest ⊢
        refine ⟨honest.1, honest.2.1, ?_, ?_⟩
        · intro impossible
          cases impossible
        · intro impossible
          cases impossible
  | replicate node term result requests started =>
      rcases List.mem_append.mp member with before | new
      · exact old call before
      · rcases List.mem_map.mp new with ⟨⟨peer, request⟩, _, rfl⟩
        cases request <;> trivial

theorem ElectionInv.step (inv : cluster.ElectionInv ballots counted) (stepped : cluster.Step next) :
    ∃ counted', next.ElectionInv (ballots.observe next.view) counted' := by
  rcases inv.tally_step stepped with ⟨counted', tally, cast⟩
  have grows := inv.voting.tracks.grows_observe (inv.voting.evolves stepped)
  refine ⟨counted', inv.voting.observe stepped (inv.wins stepped), tally,
    inv.calls_step stepped, ?_⟩
  intro candidate voter term member
  exact grows.vote_kept _ _ _ (cast candidate voter term member)

theorem electionInv_initial (capacity : Fin n → Nat) :
    (initial n Command capacity).ElectionInv
      (Ballots.start (initial n Command capacity).view) (fun _ _ => ∅) where
  voting := by
    refine ⟨fun _ => rfl, fun node => Node.stored_empty node (capacity node),
      fun _ active => absurd rfl active, Ballots.start_tracks _ (fun _ => rfl) ?_⟩
    intro node leads
    cases leads
  tally := Tally.start _
  calls := by
    intro _ member
    cases member
  counted := by
    intro _ _ _ member
    cases member

theorem electionInv_run {first last : NodeCluster n Command}
    {allowed : NodeCluster n Command → NodeEvent n Command → Prop}
    (inv : first.ElectionInv ballots counted)
    (run : (nodeClusterSystem n Command).Run allowed first last) :
    ∃ ballots' counted', last.ElectionInv ballots' counted' ∧ ballots.Grows ballots' := by
  have step : ∀ (cluster : NodeCluster n Command) (ballots : Ballots (Fin n)) event next,
      (∃ counted, cluster.ElectionInv ballots counted) → allowed cluster event →
      (nodeClusterSystem n Command).step cluster event = some next →
      ∃ ballots', (∃ counted, next.ElectionInv ballots' counted) ∧ ballots.Grows ballots' := by
    rintro cluster ballots event next ⟨counted, inv⟩ _ stepped
    exact ⟨_, inv.step (step_cases stepped),
      inv.voting.tracks.grows_observe (inv.voting.evolves (step_cases stepped))⟩
  rcases run.simulates _ Ballots.Grows.refl (fun _ _ _ => Ballots.Grows.trans) step
    ⟨counted, inv⟩ with ⟨ballots', ⟨counted', related⟩, grows⟩
  exact ⟨ballots', counted', related, grows⟩

theorem voting_of_reachable {allowed : NodeCluster n Command → NodeEvent n Command → Prop}
    (reached : (nodeClusterSystem n Command).Reachable allowed cluster) :
    ∃ ballots, cluster.Voting ballots := by
  obtain ⟨_, ⟨capacity, rfl⟩, run⟩ := reached
  obtain ⟨ballots, _, inv, _⟩ := electionInv_run (electionInv_initial capacity) run
  exact ⟨ballots, inv.voting⟩

end NodeCluster

/-- Two `Node`s that lead one term, at any two times of a run, are the same. -/
theorem node_election_safety {n : Nat} {Command : Type} {earlier later : NodeCluster n Command}
    (reached : (nodeClusterSystem n Command).Reachable System.anyStep earlier)
    (run : (nodeClusterSystem n Command).Run System.anyStep earlier later)
    (first second : Fin n)
    (firstLeads : (earlier.nodes first).role = .leader)
    (secondLeads : (later.nodes second).role = .leader)
    (sameTerm : (earlier.nodes first).currentTerm = (later.nodes second).currentTerm) :
    first = second := by
  rcases reached with ⟨_, ⟨capacity, rfl⟩, front⟩
  rcases NodeCluster.electionInv_run (NodeCluster.electionInv_initial capacity) front with
    ⟨ballots, counted, inv, _⟩
  rcases NodeCluster.electionInv_run inv run with ⟨ballots', counted', inv', grows⟩
  exact inv.voting.tracks.leader_unique inv'.voting.tracks grows firstLeads secondLeads sameTerm

/-- Node 1 of three asks for votes; the request to node 0 arrives twice, and the
second response is the one the call returns. -/
def promotedCluster : NodeCluster 3 Nat :=
  (nodeClusterSystem 3 Nat).after (fun _ _ => true) (NodeCluster.initial 3 Nat fun _ => 4)
    [.electionTimeout 1, .startElection 0, .deliver 0, .deliver 0, .answer 0 1, .count 0,
     .promote 0]

theorem node_election_safety_promoted :
    (promotedCluster.nodes 1).role = .leader ∧ (promotedCluster.nodes 1).currentTerm = 2 ∧
      (1 : Fin 3) = 1 :=
  ⟨rfl, rfl, node_election_safety
    ⟨_, ⟨_, rfl⟩, (System.run_after (fun _ _ => true) _ _).mono fun _ _ _ => trivial⟩
    (.refl promotedCluster) 1 1 rfl rfl rfl⟩

end MultiRaft
