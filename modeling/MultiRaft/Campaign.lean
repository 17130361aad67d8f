import MultiRaft.Lib.Poll
import MultiRaft.Raft.Sections
import MultiRaft.Node.Election

/-!
# Elections are decided by a majority

One call of `startElection`, followed through the replies to its requests.  The
replies are arbitrary and come in any order, and between them the server may run
any other of its sections.  `Raft` handles a reply in one section; a goroutine of
`Node` checks the reply, counts the vote under a lock of its own and takes the
first lock again to promote the node.

Both count the candidate's own vote without looking whether it is enough, so the
only server of a cluster never leads.
-/

namespace MultiRaft

variable {n : Nat} {Command : Type}

/-- `waiting` is the number of goroutines whose call has not returned, `votes` the
closure variable, and `granted` the number of granted replies handled so far. -/
structure Campaign (n : Nat) (Command : Type) where
  rf : Raft n Command
  waiting : Nat
  votes : Nat
  granted : Nat

inductive CampaignEvent (n : Nat) (Command : Type) where
  | reply (reply : RequestVoteReply)
  | other (call : Call n Command)

/-- The section is a reply callback of the election of the term. -/
def Call.countsIn (term : Nat) : Call n Command → Bool
  | .voteReply asked _ _ => asked = term
  | _ => false

namespace Campaign

/-- `startElection` after its context check: a request for every other peer and the
candidate's own vote. -/
def start (rf : Raft n Command) : Campaign n Command :=
  { rf, waiting := rf.voteRequests.length, votes := 1, granted := 0 }

def step (term : Nat) (campaign : Campaign n Command) :
    CampaignEvent n Command → Option (Campaign n Command)
  | .reply reply =>
      if campaign.waiting = 0 then none
      else
        let (rf, votes) := campaign.rf.voteReply term campaign.votes reply
        some { rf, votes, waiting := campaign.waiting - 1
               granted := campaign.granted + if reply.voteGranted then 1 else 0 }
  | .other call =>
      if call.countsIn term then none
      else (campaign.rf.handle call).map fun rf => { campaign with rf }

/-- The event leaves the server a candidate or the leader of the term. -/
def Stays (term : Nat) (campaign : Campaign n Command) (event : CampaignEvent n Command) : Prop :=
  ∀ next, campaign.step term event = some next →
    next.rf.currentTerm = term ∧ next.rf.role ≠ .follower

instance (term : Nat) (campaign : Campaign n Command) (event : CampaignEvent n Command) :
    Decidable (campaign.Stays term event) :=
  inferInstanceAs (Decidable (∀ next ∈ campaign.step term event,
    next.rf.currentTerm = term ∧ next.rf.role ≠ .follower))

def poll (campaign : Campaign n Command) : Poll :=
  ⟨campaign.votes, 0, 0, campaign.granted, campaign.rf.role = .leader⟩

end Campaign

def campaignSystem (n : Nat) (Command : Type) (term : Nat) :
    System (Campaign n Command) (CampaignEvent n Command) where
  init campaign := ∃ rf : Raft n Command, rf.contextLostLocked .candidate term = false ∧
    campaign = Campaign.start rf
  step := Campaign.step term

theorem Raft.aligned_role (rf : Raft n Command) {term : Nat} (current : rf.currentTerm ≤ term) :
    (rf.aligned term).role = rf.role ∨ (rf.aligned term).role = .follower := by
  rcases rf.aligned_cases current with ⟨_, result⟩ | ⟨_, result⟩
  · exact .inl (congrArg Raft.role result)
  · exact .inr (congrArg Raft.role result)

/-- Only a reply callback of the election of the current term turns a candidate into
something else than a follower. -/
theorem Raft.role_handle {rf next : Raft n Command} {call : Call n Command}
    (handled : rf.handle call = some next) (uncounted : call.countsIn rf.currentTerm = false)
    (sameTerm : next.currentTerm = rf.currentTerm) (active : next.role ≠ .follower) :
    next.role = rf.role := by
  cases Raft.handle_outcome handled with
  | follow _ term current => exact absurd (rf.becomeFollowerLocked_role current) active
  | stand => exact absurd sameTerm (Nat.succ_ne_self _)
  | vote args current =>
      rcases rf.aligned_role current with same | follows
      · exact same
      · exact absurd follows active
  | win term votes reply isTerm =>
      simp [Call.countsIn, isTerm] at uncounted
  | adopt args prev log current => exact absurd (rf.becomeFollowerLocked_role current) active
  | install args log current => exact absurd (rf.becomeFollowerLocked_role current) active
  | stay | replicate | probe | count | commit | ship | start | compact | awaitSnapshot | collect
  | sendEntry | sendSnapshot | bookEntries | bookSnapshot => rfl

/-- What holds of an election of the term as long as the server does not give up. -/
structure Campaign.Open (term : Nat) (campaign : Campaign n Command) : Prop where
  sameTerm : campaign.rf.currentTerm = term
  active : campaign.rf.role ≠ .follower
  fair : campaign.poll.Fair (n / 2)

variable {rf : Raft n Command}

theorem Campaign.open_start (several : 2 ≤ n) {term : Nat}
    (kept : rf.contextLostLocked .candidate term = false) : (start rf).Open term := by
  rcases Raft.contextLostLocked_eq_false.mp kept with ⟨sameTerm, candidate⟩
  have polled : (start rf).poll = Poll.start := by
    simp [start, poll, Poll.start, candidate]
  refine ⟨sameTerm, by simp [start, candidate], ?_⟩
  rw [polled]
  exact Poll.fair_start (Nat.div_pos several (by decide))

theorem Raft.voteReply_of_candidate {reply : RequestVoteReply} (votes : Nat)
    (current : reply.term ≤ rf.currentTerm) (candidate : rf.role = .candidate) :
    rf.voteReply rf.currentTerm votes reply =
      if reply.voteGranted then
        (if n / 2 < votes + 1 then rf.becomeLeaderLocked else rf, votes + 1)
      else (rf, votes) := by
  have kept : rf.contextLostLocked .candidate rf.currentTerm = false :=
    Raft.contextLostLocked_eq_false.mpr ⟨rfl, candidate⟩
  simp only [Raft.voteReply, Nat.not_lt.mpr current, kept, if_false, Bool.false_eq_true, gt_iff_lt]
  split
  · split <;> rfl
  · rfl

theorem Raft.voteReply_of_leader {reply : RequestVoteReply} (term votes : Nat)
    (current : reply.term ≤ rf.currentTerm) (leads : rf.role = .leader) :
    rf.voteReply term votes reply = (rf, votes) := by
  have lost : rf.contextLostLocked .candidate term = true := by
    rw [← Bool.not_eq_false, Raft.contextLostLocked_eq_false]
    rintro ⟨_, candidate⟩
    cases candidate.symm.trans leads
  simp only [Raft.voteReply, Nat.not_lt.mpr current, lost, if_false, if_true, gt_iff_lt]

/-- A reply of a later term ends the candidacy. -/
theorem Raft.voteReply_role_of_later {reply : RequestVoteReply} (term votes : Nat)
    (later : rf.currentTerm < reply.term) :
    (rf.voteReply term votes reply).1.role = .follower := by
  simp only [Raft.voteReply, later, if_true, gt_iff_lt]
  exact rf.becomeFollowerLocked_role later.le

namespace Campaign

/-- A reply that does not end the candidacy: counted by a candidate, dropped by a
leader. -/
theorem Open.reply {campaign next : Campaign n Command} {term : Nat} {reply : RequestVoteReply}
    (isOpen : campaign.Open term) (current : reply.term ≤ campaign.rf.currentTerm)
    (stepped : campaign.step term (.reply reply) = some next) :
    next.poll.Fair (n / 2) := by
  have fair := isOpen.fair
  obtain rfl := isOpen.sameTerm
  simp only [step] at stepped
  split at stepped
  · cases stepped
  cases role : campaign.rf.role with
  | follower => exact absurd role isOpen.active
  | leader =>
      rw [Raft.voteReply_of_leader _ _ current role] at stepped
      obtain rfl := Option.some.inj stepped
      cases granted : reply.voteGranted with
      | false => exact fair
      | true => exact fair.drop role
  | candidate =>
      rw [Raft.voteReply_of_candidate _ current role] at stepped
      obtain rfl := Option.some.inj stepped
      have counted := fair.grant.count (Nat.succ_pos _)
      cases granted : reply.voteGranted with
      | false => exact fair
      | true =>
          by_cases enough : n / 2 < campaign.votes + 1
          · have found : 0 < (campaign.poll.grant.count (n / 2)).won := by
              simp [Poll.count, Poll.grant, poll, enough]
            have declared := counted.declare found
            simpa [poll, Poll.declare, Poll.count, Poll.grant, enough,
              campaign.rf.becomeLeaderLocked_eq role] using declared
          · simpa [poll, Poll.count, Poll.grant, enough] using counted

theorem Open.step {campaign next : Campaign n Command} {term : Nat}
    {event : CampaignEvent n Command} (isOpen : campaign.Open term)
    (stays : campaign.Stays term event) (stepped : campaign.step term event = some next) :
    next.Open term := by
  obtain ⟨sameTerm, active⟩ := stays next stepped
  refine ⟨sameTerm, active, ?_⟩
  cases event with
  | reply reply =>
      refine isOpen.reply ?_ stepped
      by_contra later
      refine active ?_
      simp only [Campaign.step] at stepped
      split at stepped
      · cases stepped
      · obtain rfl := Option.some.inj stepped
        exact Raft.voteReply_role_of_later _ _ (Nat.lt_of_not_le later)
  | other call =>
      simp only [Campaign.step] at stepped
      split at stepped
      · cases stepped
      rename_i uncounted
      obtain ⟨rf, handled, rfl⟩ := Option.map_eq_some_iff.mp stepped
      obtain rfl := isOpen.sameTerm
      have role := Raft.role_handle handled (Bool.eq_false_of_not_eq_true uncounted) sameTerm active
      have polled : poll { campaign with rf } = campaign.poll := by
        simp only [poll, role]
      rw [polled]
      exact isOpen.fair

theorem open_of_reachable (several : 2 ≤ n) {term : Nat} {campaign : Campaign n Command}
    (reached : (campaignSystem n Command term).Reachable (Stays term) campaign) :
    campaign.Open term := by
  refine reached.preserves ?_ fun _ _ _ isOpen stays stepped => isOpen.step stays stepped
  rintro _ ⟨rf, kept, rfl⟩
  exact open_start several kept

end Campaign

/-- `waiting` goroutines wait for their call, `counting` are before `votes++`, and
`won` found enough votes and are before the promotion. -/
structure NodeCampaign (n : Nat) (Command : Type) where
  node : Node n Command
  waiting : Nat
  counting : Nat
  won : Nat
  votes : Nat
  granted : Nat

/-- `answer`, `count` and `promote` are the steps of a vote goroutine. -/
inductive NodeCampaignEvent (n : Nat) (Command : Type) where
  | answer (resp : RequestVoteReply)
  | count
  | promote
  | other (call : NodeCall n Command)

/-- The section is the promotion at the end of an election of the term. -/
def NodeCall.promotesIn (term : Nat) : NodeCall n Command → Bool
  | .promote won => won = term
  | _ => false

namespace NodeCampaign

def start (node : Node n Command) : NodeCampaign n Command :=
  { node, waiting := node.voteRequests.length, counting := 0, won := 0, votes := 1, granted := 0 }

def step (term : Nat) (campaign : NodeCampaign n Command) :
    NodeCampaignEvent n Command → Option (NodeCampaign n Command)
  | .answer resp =>
      if campaign.waiting = 0 then none
      else
        let (node, continues) := campaign.node.checkVote term resp
        some { campaign with
          node
          waiting := campaign.waiting - 1
          counting := campaign.counting + if continues then 1 else 0
          granted := campaign.granted + if resp.voteGranted then 1 else 0 }
  | .count =>
      if campaign.counting = 0 then none
      else
        let votes := campaign.votes + 1
        some { campaign with
          counting := campaign.counting - 1
          votes
          won := if votes > n / 2 then campaign.won + 1 else campaign.won }
  | .promote =>
      if campaign.won = 0 then none
      else some { campaign with node := campaign.node.promote term, won := campaign.won - 1 }
  | .other call =>
      if call.promotesIn term then none
      else (campaign.node.handle call).map fun node => { campaign with node }

/-- The event leaves the node a candidate or the leader of the term. -/
def Stays (term : Nat) (campaign : NodeCampaign n Command)
    (event : NodeCampaignEvent n Command) : Prop :=
  ∀ next, campaign.step term event = some next →
    next.node.currentTerm = term ∧ next.node.role ≠ .follower

instance (term : Nat) (campaign : NodeCampaign n Command) (event : NodeCampaignEvent n Command) :
    Decidable (campaign.Stays term event) :=
  inferInstanceAs (Decidable (∀ next ∈ campaign.step term event,
    next.node.currentTerm = term ∧ next.node.role ≠ .follower))

def poll (campaign : NodeCampaign n Command) : Poll :=
  ⟨campaign.votes, campaign.counting, campaign.won, campaign.granted,
    campaign.node.role = .leader⟩

end NodeCampaign

def nodeCampaignSystem (n : Nat) (Command : Type) (term : Nat) :
    System (NodeCampaign n Command) (NodeCampaignEvent n Command) where
  init campaign := ∃ node : Node n Command, node.contextLostLocked .candidate term = false ∧
    campaign = NodeCampaign.start node
  step := NodeCampaign.step term

theorem Node.aligned_role (node : Node n Command) {term : Nat}
    (current : node.currentTerm ≤ term) :
    (node.aligned term).role = node.role ∨ (node.aligned term).role = .follower := by
  rcases node.aligned_cases current with ⟨_, result⟩ | ⟨_, result⟩
  · exact .inl (congrArg Node.role result)
  · exact .inr (congrArg Node.role result)

/-- Only the promotion of the current term turns a candidate into something else than
a follower. -/
theorem Node.role_handle {node next : Node n Command} {call : NodeCall n Command}
    (handled : node.handle call = some next) (other : call.promotesIn node.currentTerm = false)
    (sameTerm : next.currentTerm = node.currentTerm) (active : next.role ≠ .follower) :
    next.role = node.role := by
  cases Node.handle_outcome handled with
  | follow _ term current => exact absurd (node.becomeFollowerLocked_role current) active
  | stand => exact absurd sameTerm (Nat.succ_ne_self _)
  | vote req current =>
      rcases node.aligned_role current with same | follows
      · exact same
      · exact absurd follows active
  | promote term candidate isTerm =>
      simp [NodeCall.promotesIn, isTerm] at other
  | adopt req prev log current => exact absurd (node.becomeFollowerLocked_role current) active
  | install req log current => exact absurd (node.becomeFollowerLocked_role current) active
  | restart capacity => exact absurd (Node.newNode_role _ _ _) active
  | stay | replicate | probe | count | commit | ship | start | compact | collectSnapshot | collect
  | send | receive | giveUp => rfl

theorem Node.checkVote_of_candidate {node : Node n Command} {resp : RequestVoteReply}
    (current : resp.term ≤ node.currentTerm) (candidate : node.role = .candidate) :
    node.checkVote node.currentTerm resp = (node, resp.voteGranted) := by
  have kept : node.contextLostLocked .candidate node.currentTerm = false :=
    Node.contextLostLocked_eq_false.mpr ⟨rfl, candidate⟩
  simp only [Node.checkVote, Nat.not_lt.mpr current, kept, if_false, Bool.false_eq_true]

theorem Node.checkVote_of_leader {node : Node n Command} {resp : RequestVoteReply}
    (term : Nat) (current : resp.term ≤ node.currentTerm) (leads : node.role = .leader) :
    node.checkVote term resp = (node, false) := by
  have lost : node.contextLostLocked .candidate term = true := by
    rw [← Bool.not_eq_false, Node.contextLostLocked_eq_false]
    rintro ⟨_, candidate⟩
    cases candidate.symm.trans leads
  simp only [Node.checkVote, Nat.not_lt.mpr current, lost, if_false, if_true]

theorem Node.checkVote_role_of_later {node : Node n Command} {resp : RequestVoteReply}
    (term : Nat) (later : node.currentTerm < resp.term) :
    (node.checkVote term resp).1.role = .follower := by
  simp only [Node.checkVote, later, if_true]
  exact node.becomeFollowerLocked_role later.le

namespace NodeCampaign

/-- What holds of an election of the term as long as the node does not give up. -/
structure Open (term : Nat) (campaign : NodeCampaign n Command) : Prop where
  sameTerm : campaign.node.currentTerm = term
  active : campaign.node.role ≠ .follower
  fair : campaign.poll.Fair (n / 2)

variable {term : Nat}

theorem open_start (several : 2 ≤ n) {node : Node n Command}
    (kept : node.contextLostLocked .candidate term = false) : (start node).Open term := by
  rcases Node.contextLostLocked_eq_false.mp kept with ⟨sameTerm, candidate⟩
  have polled : (start node).poll = Poll.start := by
    simp [start, poll, Poll.start, candidate]
  refine ⟨sameTerm, by simp [start, candidate], ?_⟩
  rw [polled]
  exact Poll.fair_start (Nat.div_pos several (by decide))

variable {campaign next : NodeCampaign n Command}

/-- A response that does not end the candidacy: kept for counting by a candidate,
dropped by a leader. -/
theorem Open.answer {resp : RequestVoteReply} (isOpen : campaign.Open term)
    (current : resp.term ≤ campaign.node.currentTerm)
    (stepped : campaign.step term (.answer resp) = some next) : next.poll.Fair (n / 2) := by
  have fair := isOpen.fair
  obtain rfl := isOpen.sameTerm
  simp only [step] at stepped
  split at stepped
  · cases stepped
  cases role : campaign.node.role with
  | follower => exact absurd role isOpen.active
  | leader =>
      rw [Node.checkVote_of_leader _ current role] at stepped
      obtain rfl := Option.some.inj stepped
      cases granted : resp.voteGranted with
      | false => exact fair
      | true => exact fair.drop role
  | candidate =>
      rw [Node.checkVote_of_candidate current role] at stepped
      obtain rfl := Option.some.inj stepped
      cases granted : resp.voteGranted with
      | false => exact fair
      | true => exact fair.grant

theorem Open.count (isOpen : campaign.Open term) (stepped : campaign.step term .count = some next) :
    next.poll.Fair (n / 2) := by
  simp only [step] at stepped
  split at stepped
  · cases stepped
  rename_i received
  obtain rfl := Option.some.inj stepped
  exact isOpen.fair.count (Nat.pos_of_ne_zero received)

/-- The promotion finds a candidate, or a node that another goroutine has promoted. -/
theorem Open.promote (isOpen : campaign.Open term)
    (stepped : campaign.step term .promote = some next) :
    next.poll.Fair (n / 2) := by
  obtain rfl := isOpen.sameTerm
  simp only [step] at stepped
  split at stepped
  · cases stepped
  rename_i found
  obtain rfl := Option.some.inj stepped
  have leads : (campaign.node.promote campaign.node.currentTerm).role = .leader := by
    cases role : campaign.node.role with
    | follower => exact absurd role isOpen.active
    | candidate => simp [Node.promote, Node.becomeLeaderLocked, role]
    | leader => simp [Node.promote, role]
  have declared := isOpen.fair.declare (Nat.pos_of_ne_zero found)
  simpa [poll, Poll.declare, leads] using declared

theorem Open.step {event : NodeCampaignEvent n Command} (isOpen : campaign.Open term)
    (stays : campaign.Stays term event) (stepped : campaign.step term event = some next) :
    next.Open term := by
  obtain ⟨sameTerm, active⟩ := stays next stepped
  refine ⟨sameTerm, active, ?_⟩
  cases event with
  | answer resp =>
      refine isOpen.answer ?_ stepped
      by_contra later
      refine active ?_
      simp only [NodeCampaign.step] at stepped
      split at stepped
      · cases stepped
      · obtain rfl := Option.some.inj stepped
        exact Node.checkVote_role_of_later _ (Nat.lt_of_not_le later)
  | count => exact isOpen.count stepped
  | promote => exact isOpen.promote stepped
  | other call =>
      simp only [NodeCampaign.step] at stepped
      split at stepped
      · cases stepped
      rename_i otherTerm
      obtain ⟨node, handled, rfl⟩ := Option.map_eq_some_iff.mp stepped
      obtain rfl := isOpen.sameTerm
      have role := Node.role_handle handled (Bool.eq_false_of_not_eq_true otherTerm) sameTerm active
      have polled : poll { campaign with node } = campaign.poll := by
        simp only [poll, role]
      rw [polled]
      exact isOpen.fair

theorem open_of_reachable (several : 2 ≤ n)
    (reached : (nodeCampaignSystem n Command term).Reachable (Stays term) campaign) :
    campaign.Open term := by
  refine reached.preserves ?_ fun _ _ _ isOpen stays stepped => isOpen.step stays stepped
  rintro _ ⟨node, kept, rfl⟩
  exact open_start several kept

end NodeCampaign

/-- In a cluster of at least two servers a candidate that is not disturbed leads its
term, once the replies are handled and their goroutines are through, exactly if it
has more than half of all votes. -/
theorem candidate_wins_iff {n : Nat} {Command : Type} (several : 2 ≤ n) (term : Nat) :
    (∀ campaign : Campaign n Command,
      (campaignSystem n Command term).Reachable (Campaign.Stays term) campaign →
      (campaign.rf.role = .leader ∧ campaign.rf.currentTerm = term ↔
        n / 2 < 1 + campaign.granted)) ∧
    (∀ campaign : NodeCampaign n Command,
      (nodeCampaignSystem n Command term).Reachable (NodeCampaign.Stays term) campaign →
      campaign.counting = 0 → campaign.won = 0 →
      (campaign.node.role = .leader ∧ campaign.node.currentTerm = term ↔
        n / 2 < 1 + campaign.granted)) := by
  constructor
  · intro campaign reached
    have isOpen := Campaign.open_of_reachable several reached
    rw [and_iff_left isOpen.sameTerm]
    exact isOpen.fair.elected_iff rfl rfl
  · intro campaign reached counted declared
    have isOpen := NodeCampaign.open_of_reachable several reached
    rw [and_iff_left isOpen.sameTerm]
    exact isOpen.fair.elected_iff counted declared

/-- A server after its first election timeout. -/
def firstCandidate {n : Nat} (me : Fin n) : Raft n Nat :=
  (Raft.make me (makePersister n Nat)).becomeCandidateLocked

def firstNodeCandidate {n : Nat} (me : Fin n) : Node n Nat :=
  (Node.newNode me (RaftStorage.empty n Nat) 4).becomeCandidateLocked

def wonCampaign : Campaign 3 Nat :=
  (campaignSystem 3 Nat 2).after (fun campaign event => campaign.Stays 2 event)
    (.start (firstCandidate 0)) [.reply ⟨2, false⟩, .reply ⟨2, true⟩]

def wonNodeCampaign : NodeCampaign 3 Nat :=
  (nodeCampaignSystem 3 Nat 2).after (fun campaign event => campaign.Stays 2 event)
    (.start (firstNodeCandidate 0)) [.answer ⟨2, true⟩, .answer ⟨2, true⟩, .count, .count,
      .promote, .promote]

/-- Among three servers one granted vote decides. -/
theorem candidate_wins_iff_three :
    (wonCampaign.granted = 1 ∧ wonCampaign.rf.role = .leader) ∧
    (wonNodeCampaign.granted = 2 ∧ wonNodeCampaign.node.role = .leader) := by
  have wins := @candidate_wins_iff 3 Nat (by decide) 2
  have reached : (campaignSystem 3 Nat 2).Reachable (Campaign.Stays 2) wonCampaign :=
    ⟨_, ⟨firstCandidate 0, by decide, rfl⟩,
      (System.run_after _ _ _).mono fun _ _ stays => of_decide_eq_true stays⟩
  have nodeReached : (nodeCampaignSystem 3 Nat 2).Reachable (NodeCampaign.Stays 2)
      wonNodeCampaign :=
    ⟨_, ⟨firstNodeCandidate 0, by decide, rfl⟩,
      (System.run_after _ _ _).mono fun _ _ stays => of_decide_eq_true stays⟩
  refine ⟨⟨by decide, ?_⟩, by decide, ?_⟩
  · exact ((wins.1 _ reached).mpr (by decide)).1
  · exact ((wins.2 _ nodeReached (by decide) (by decide)).mpr (by decide)).1

/-- The only server of a cluster has all votes when `startElection` returns, and no
reply is awaited that could make it the leader. -/
theorem lone_candidate_stays :
    (campaignSystem 1 Nat 2).init (.start (firstCandidate 0)) ∧
    (Campaign.start (firstCandidate (0 : Fin 1))).waiting = 0 ∧
    1 / 2 < 1 + (Campaign.start (firstCandidate (0 : Fin 1))).granted ∧
    (Campaign.start (firstCandidate (0 : Fin 1))).rf.role = .candidate ∧
    (nodeCampaignSystem 1 Nat 2).init (.start (firstNodeCandidate 0)) ∧
    (NodeCampaign.start (firstNodeCandidate (0 : Fin 1))).waiting = 0 ∧
    1 / 2 < 1 + (NodeCampaign.start (firstNodeCandidate (0 : Fin 1))).granted ∧
    (NodeCampaign.start (firstNodeCandidate (0 : Fin 1))).node.role = .candidate := by
  refine ⟨⟨_, by decide, rfl⟩, by decide, by decide, by decide, ⟨_, by decide, rfl⟩, ?_⟩
  decide

end MultiRaft
