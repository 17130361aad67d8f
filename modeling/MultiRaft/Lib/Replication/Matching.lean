import MultiRaft.Lib.Replication.Basic

/-!
# Log matching

The part of the protocol's invariant that needs no care about what a server
gives up: two logs with an entry of one term at one position agree up to it.
-/

namespace MultiRaft.Replication

variable {Server Entry : Type*} [Termed Entry]

/-- How logs, leaders and votes hang together in every run. -/
structure Matching (state : Replication Server Entry) : Prop where
  lawful : state.toBallots.Lawful
  log_backed : ∀ server, state.Backed (state.log server)
  leader_backed : ∀ term, state.Backed (state.leaderLog term)
  ballot_backed : ∀ voter term candidate, state.vote voter term = some candidate →
    state.Backed (state.ballotLog voter term)
  vacant : ∀ term, ¬ state.Elected term → state.leaderLog term = []
  start_within : ∀ term, state.Elected term → state.startLog term <+: state.leaderLog term
  start_terms : ∀ term, state.Elected term → ∀ entry ∈ state.startLog term, termOf entry < term
  own_terms : ∀ term, state.Elected term →
    ∀ entry ∈ (state.leaderLog term).drop (state.startLog term).length, termOf entry = term
  leading : ∀ term server, state.led term server → state.term server = term →
    state.log server = state.leaderLog term
  log_bound : ∀ server, ∀ entry ∈ state.log server, termOf entry ≤ state.term server
  ack_le : ∀ server term, state.ack server term ≤ (state.leaderLog term).length
  ack_bound : ∀ server term, 0 < state.ack server term → term ≤ state.term server
  leader_ack : ∀ term server, state.led term server →
    state.ack server term = (state.leaderLog term).length
  upToDate : ∀ voter term candidate, state.vote voter term = some candidate →
    state.vote candidate term = some candidate ∧
      UpToDate (state.ballotLog voter term) (state.ballotLog candidate term)

theorem backed_nil (state : Replication Server Entry) : state.Backed [] := by
  intro position entry found
  simp at found

variable {state : Replication Server Entry}

theorem Backed.initial {front log : List Entry} (backed : state.Backed log)
    (isPrefix : front <+: log) : state.Backed front := by
  intro position entry found
  have within := (List.getElem?_eq_some_iff.mp found).1
  rcases isPrefix with ⟨rest, rfl⟩
  have inLog : (front ++ rest)[position]? = some entry := by
    rw [List.getElem?_append_left within, found]
  rcases backed position entry inLog with ⟨elected, agrees⟩
  rw [List.take_append_of_le_length (by omega)] at agrees
  exact ⟨elected, agrees⟩

theorem Backed.mono {old new : Replication Server Entry}
    (grows : ∀ term, old.Elected term →
      new.Elected term ∧ old.leaderLog term <+: new.leaderLog term)
    {log : List Entry} (backed : old.Backed log) : new.Backed log := by
  intro position entry found
  rcases backed position entry found with ⟨elected, agrees⟩
  rcases grows _ elected with ⟨still, extended⟩
  exact ⟨still, agrees.trans extended⟩

/-- Two backed logs with an entry of one term at one position agree up to it. -/
theorem Backed.take_eq {first second : List Entry} (left : state.Backed first)
    (right : state.Backed second) {position : Nat} {entry other : Entry}
    (inFirst : first[position]? = some entry) (inSecond : second[position]? = some other)
    (sameTerm : termOf entry = termOf other) :
    first.take (position + 1) = second.take (position + 1) := by
  have leftWithin := (List.getElem?_eq_some_iff.mp inFirst).1
  have rightWithin := (List.getElem?_eq_some_iff.mp inSecond).1
  have leftAgrees := (left position entry inFirst).2
  have rightAgrees := (right position other inSecond).2
  rw [← sameTerm] at rightAgrees
  refine (List.prefix_of_prefix_length_le leftAgrees rightAgrees ?_).eq_of_length ?_
  · simp only [List.length_take]
    omega
  · simp only [List.length_take]
    omega

/-- A backed log is a prefix of the log of the leader of its last term. -/
theorem Backed.prefix_leaderLog {log : List Entry} (backed : state.Backed log)
    (nonempty : log ≠ []) :
    state.Elected (lastTerm log) ∧ log <+: state.leaderLog (lastTerm log) ∧
      ∃ entry, log[log.length - 1]? = some entry ∧ termOf entry = lastTerm log := by
  rcases exists_last_of_lastTerm rfl nonempty with ⟨entry, found, term⟩
  have positive := List.length_pos_iff.mpr nonempty
  rcases backed _ entry found with ⟨elected, agrees⟩
  rw [Nat.sub_add_cancel positive, List.take_length, term] at agrees
  exact ⟨term ▸ elected, agrees, entry, found, term⟩

theorem Matching.leader_terms (matching : state.Matching) {term : Nat}
    (elected : state.Elected term) {entry : Entry} (member : entry ∈ state.leaderLog term) :
    termOf entry ≤ term := by
  rw [← List.take_append_drop (state.startLog term).length (state.leaderLog term)] at member
  rcases List.mem_append.mp member with early | late
  · rw [← List.prefix_iff_eq_take.mp (matching.start_within term elected)] at early
    exact (matching.start_terms term elected entry early).le
  · exact (matching.own_terms term elected entry late).le

/-- An entry of the leader's log is one it started with or one of its own. -/
theorem Matching.leader_entry (matching : state.Matching) {term position : Nat}
    (elected : state.Elected term) {entry : Entry}
    (found : (state.leaderLog term)[position]? = some entry) :
    (position < (state.startLog term).length ∧ termOf entry < term) ∨
      ((state.startLog term).length ≤ position ∧ termOf entry = term) := by
  rcases Nat.lt_or_ge position (state.startLog term).length with early | late
  · refine .inl ⟨early, matching.start_terms term elected entry ?_⟩
    rcases matching.start_within term elected with ⟨rest, shape⟩
    rw [← shape, List.getElem?_append_left early] at found
    exact List.mem_of_getElem? found
  · refine .inr ⟨late, matching.own_terms term elected entry ?_⟩
    refine List.mem_of_getElem? (i := position - (state.startLog term).length) ?_
    rw [List.getElem?_drop, Nat.add_sub_cancel' late]
    exact found

theorem Matching.ack_vacant (matching : state.Matching) {server : Server} {term : Nat}
    (empty : ¬ state.Elected term) :
    state.ack server term = 0 := by
  have bound := matching.ack_le server term
  rw [matching.vacant term empty] at bound
  exact Nat.le_zero.mp bound

/-- A log has no entries of a term that nobody has led. -/
theorem Matching.older (matching : state.Matching) {server : Server}
    (vacant : ¬ state.Elected (state.term server)) {entry : Entry}
    (member : entry ∈ state.log server) : termOf entry < state.term server := by
  obtain ⟨position, found⟩ := List.getElem?_of_mem member
  have elected := (matching.log_backed server position entry found).1
  exact lt_of_le_of_ne (matching.log_bound server entry member)
    (ne_term_of_elected vacant elected)

section Moves

variable {state : Replication Server Entry}

theorem Matching.cast (matching : state.Matching) {ballots : Ballots Server}
    (lawful : ballots.Lawful) (grows : state.toBallots.Grows ballots)
    (led : ∀ term server, ballots.led term server → state.led term server)
    (fresh : ∀ voter term candidate, state.vote voter term = none →
      ballots.vote voter term = some candidate →
      term = ballots.term voter ∧ (candidate = voter ∨
        state.vote candidate term = some candidate ∧
          UpToDate (state.log voter) (state.ballotLog candidate term))) :
    (state.cast ballots).Matching := by
  have elected : ∀ {term}, (state.cast ballots).Elected term → state.Elected term :=
    fun ⟨server, leads⟩ => ⟨server, led _ _ leads⟩
  have kept : ∀ {log}, state.Backed log → (state.cast ballots).Backed log := by
    intro log backed
    refine backed.mono ?_
    rintro term ⟨server, leads⟩
    exact ⟨⟨server, grows.led_kept _ _ leads⟩, List.prefix_rfl⟩
  refine ⟨lawful, fun server => kept (matching.log_backed server),
    fun term => kept (matching.leader_backed term), ?_, ?_,
    fun term leads => matching.start_within term (elected leads),
    fun term leads => matching.start_terms term (elected leads),
    fun term leads => matching.own_terms term (elected leads), ?_, ?_, matching.ack_le, ?_,
    fun term server leads => matching.leader_ack term server (led _ _ leads), ?_⟩
  · intro voter term candidate voted
    cases before : state.vote voter term with
    | none =>
        rw [cast_ballotLog_of_none before]
        exact kept (matching.log_backed voter)
    | some earlier =>
        rw [cast_ballotLog_of_some before]
        exact kept (matching.ballot_backed voter term earlier before)
  · intro term vacant
    refine matching.vacant term ?_
    rintro ⟨server, leads⟩
    exact vacant ⟨server, grows.led_kept _ _ leads⟩
  · intro term server leads sameTerm
    have ledBefore := led _ _ leads
    have reached := matching.lawful.led_bound term server ledBefore
    have bound := grows.term_le server
    refine matching.leading term server ledBefore ?_
    exact le_antisymm (bound.trans_eq sameTerm) reached
  · intro server entry member
    exact (matching.log_bound server entry member).trans (grows.term_le server)
  · intro server term positive
    exact (matching.ack_bound server term positive).trans (grows.term_le server)
  · intro voter term candidate voted
    change ballots.vote voter term = some candidate at voted
    cases before : state.vote voter term with
    | none =>
        rcases fresh voter term candidate before voted with ⟨_, rfl | ⟨asked, upToDate⟩⟩
        · exact ⟨voted, .refl _⟩
        · rw [cast_ballotLog_of_none before, cast_ballotLog_of_some asked]
          exact ⟨grows.vote_kept _ _ _ asked, upToDate⟩
    | some earlier =>
        have same : earlier = candidate := by
          have still := grows.vote_kept _ _ _ before
          rw [voted] at still
          exact (Option.some.inj still).symm
        subst same
        rcases matching.upToDate voter term earlier before with ⟨asked, upToDate⟩
        rw [cast_ballotLog_of_some before, cast_ballotLog_of_some asked]
        exact ⟨grows.vote_kept _ _ _ asked, upToDate⟩

variable [DecidableEq Server]

variable {server : Server}

theorem Backed.elect {log : List Entry} (backed : state.Backed log)
    (vacant : ¬ state.Elected (state.term server)) :
    (state.elect server).Backed log := by
  apply backed.mono
  intro term elected
  refine ⟨elected_elect.mpr (.inl elected), ?_⟩
  rw [elect_leaderLog_of_ne (ne_term_of_elected vacant elected)]

theorem Matching.lawful_elect (matching : state.Matching)
    (vacant : ¬ state.Elected (state.term server)) :
    (state.elect server).toBallots.Lawful where
  unique := by
    rintro term first second (left | ⟨rfl, rfl⟩) (right | ⟨same, rfl⟩)
    · exact matching.lawful.unique term first second left right
    · exact absurd same (ne_term_of_elected vacant ⟨first, left⟩)
    · exact absurd rfl (ne_term_of_elected vacant ⟨second, right⟩)
    · rfl
  led_bound := by
    rintro term leader (led | ⟨rfl, rfl⟩)
    · exact matching.lawful.led_bound term leader led
    · exact le_rfl
  vote_bound := matching.lawful.vote_bound

theorem Matching.elect (matching : state.Matching) (vacant : ¬ state.Elected (state.term server)) :
    (state.elect server).Matching where
  lawful := matching.lawful_elect vacant
  log_backed other := (matching.log_backed other).elect vacant
  leader_backed term := by
    by_cases same : term = state.term server
    · subst same
      rw [elect_leaderLog_self]
      exact (matching.log_backed server).elect vacant
    · rw [elect_leaderLog_of_ne same]
      exact (matching.leader_backed term).elect vacant
  ballot_backed voter term candidate voted :=
    (matching.ballot_backed voter term candidate voted).elect vacant
  vacant term empty := by
    rw [elected_elect, not_or] at empty
    rw [elect_leaderLog_of_ne empty.2]
    exact matching.vacant term empty.1
  start_within term leads := by
    rcases elected_elect.mp leads with before | rfl
    · have different := ne_term_of_elected vacant before
      rw [elect_leaderLog_of_ne different, elect_startLog_of_ne different]
      exact matching.start_within term before
    · rw [elect_leaderLog_self, elect_startLog_self]
  start_terms term leads := by
    rcases elected_elect.mp leads with before | rfl
    · rw [elect_startLog_of_ne (ne_term_of_elected vacant before)]
      exact matching.start_terms term before
    · rw [elect_startLog_self]
      exact fun entry member => matching.older vacant member
  own_terms term leads entry member := by
    rcases elected_elect.mp leads with before | rfl
    · have different := ne_term_of_elected vacant before
      rw [elect_leaderLog_of_ne different, elect_startLog_of_ne different] at member
      exact matching.own_terms term before entry member
    · rw [elect_leaderLog_self, elect_startLog_self, List.drop_length] at member
      cases member
  leading := by
    rintro term leader (led | ⟨rfl, rfl⟩) sameTerm
    · rw [elect_leaderLog_of_ne (ne_term_of_elected vacant ⟨leader, led⟩)]
      exact matching.leading term leader led sameTerm
    · rw [elect_leaderLog_self]
      rfl
  log_bound := matching.log_bound
  ack_le other term := by
    by_cases same : other = server ∧ term = state.term server
    · obtain ⟨rfl, rfl⟩ := same
      rw [elect_leaderLog_self, elect_ack_self]
    · rw [elect_ack_of_ne same]
      by_cases sameTerm : term = state.term server
      · subst sameTerm
        rw [matching.ack_vacant vacant]
        exact Nat.zero_le _
      · rw [elect_leaderLog_of_ne sameTerm]
        exact matching.ack_le other term
  ack_bound other term positive := by
    by_cases same : other = server ∧ term = state.term server
    · obtain ⟨rfl, rfl⟩ := same
      exact le_rfl
    · rw [elect_ack_of_ne same] at positive
      exact matching.ack_bound other term positive
  leader_ack := by
    rintro term leader (led | ⟨rfl, rfl⟩)
    · have different := ne_term_of_elected vacant ⟨leader, led⟩
      rw [elect_leaderLog_of_ne different, elect_ack_of_ne fun same => different same.2]
      exact matching.leader_ack term leader led
    · rw [elect_leaderLog_self, elect_ack_self]
  upToDate := matching.upToDate

theorem Backed.append {log : List Entry} (backed : state.Backed log)
    (current : state.log server = state.leaderLog (state.term server)) (entry : Entry) :
    (state.append server entry).Backed log := by
  apply backed.mono
  intro term before
  exact ⟨before, prefix_append_leaderLog current entry term⟩

/-- The new entry is backed by the log it ends. -/
theorem Matching.backed_append (matching : state.Matching) {entry : Entry}
    (leads : state.led (state.term server) server) (own : termOf entry = state.term server) :
    (state.append server entry).Backed (state.log server ++ [entry]) := by
  have current := matching.leading _ server leads rfl
  intro position other found
  rcases Nat.lt_or_ge position (state.log server).length with early | late
  · rw [List.getElem?_append_left early] at found
    rw [List.take_append_of_le_length (by omega)]
    exact (matching.log_backed server).append current entry position other found
  · have last : position = (state.log server).length := by
      have within := (List.getElem?_eq_some_iff.mp found).1
      rw [List.length_append, List.length_singleton] at within
      omega
    subst last
    rw [List.getElem?_concat_length] at found
    cases found
    rw [own, List.take_of_length_le (by simp), append_leaderLog_self]
    exact ⟨⟨server, leads⟩, List.prefix_rfl⟩

theorem Matching.append (matching : state.Matching) {entry : Entry}
    (leads : state.led (state.term server) server) (own : termOf entry = state.term server) :
    (state.append server entry).Matching := by
  have current := matching.leading _ server leads rfl
  have elected : state.Elected (state.term server) := ⟨server, leads⟩
  have grown := prefix_append_leaderLog current entry
  exact {
    lawful := matching.lawful
    log_backed := by
      intro other
      by_cases same : other = server
      · subst same
        rw [append_log_self]
        exact matching.backed_append leads own
      · rw [append_log_of_ne entry same]
        exact (matching.log_backed other).append current entry
    leader_backed := by
      intro term
      by_cases same : term = state.term server
      · subst same
        rw [append_leaderLog_self]
        exact matching.backed_append leads own
      · rw [append_leaderLog_of_ne entry same]
        exact (matching.leader_backed term).append current entry
    ballot_backed := fun voter term candidate voted =>
      (matching.ballot_backed voter term candidate voted).append current entry
    vacant := by
      intro term vacant
      have different : term ≠ state.term server := by
        rintro rfl
        exact vacant elected
      rw [append_leaderLog_of_ne entry different]
      exact matching.vacant term vacant
    start_within := fun term before => (matching.start_within term before).trans (grown term)
    start_terms := matching.start_terms
    own_terms := by
      intro term before other member
      by_cases same : term = state.term server
      · subst same
        have bound := (matching.start_within _ elected).length_le
        change other ∈ ((state.append server entry).leaderLog (state.term server)).drop
          (state.startLog (state.term server)).length at member
        rw [append_leaderLog_self, current, List.drop_append_of_le_length bound] at member
        rcases List.mem_append.mp member with old | new
        · exact matching.own_terms _ elected other old
        · rw [List.mem_singleton.mp new]
          exact own
      · rw [append_leaderLog_of_ne entry same] at member
        exact matching.own_terms term before other member
    leading := by
      intro term leader led sameTerm
      by_cases same : leader = server
      · subst same
        change state.term leader = term at sameTerm
        rw [append_log_self, ← sameTerm, append_leaderLog_self]
      · -- somebody else leads, so it leads another term
        have different : term ≠ state.term server := by
          rintro rfl
          exact same (matching.lawful.unique _ _ _ led leads)
        rw [append_log_of_ne entry same, append_leaderLog_of_ne entry different]
        exact matching.leading term leader led sameTerm
    log_bound := by
      intro other member inLog
      by_cases same : other = server
      · subst same
        rw [append_log_self] at inLog
        rcases List.mem_append.mp inLog with old | last
        · exact matching.log_bound other member old
        · rw [List.mem_singleton.mp last]
          exact own.le
      · rw [append_log_of_ne entry same] at inLog
        exact matching.log_bound other member inLog
    ack_le := by
      intro other term
      by_cases same : other = server ∧ term = state.term server
      · obtain ⟨rfl, rfl⟩ := same
        rw [append_ack_self, append_leaderLog_self, List.length_append, List.length_singleton]
      · rw [append_ack_of_ne entry same]
        exact (matching.ack_le other term).trans (grown term).length_le
    ack_bound := by
      intro other term positive
      by_cases same : other = server ∧ term = state.term server
      · obtain ⟨rfl, rfl⟩ := same
        exact le_rfl
      · rw [append_ack_of_ne entry same] at positive
        exact matching.ack_bound other term positive
    leader_ack := by
      intro term leader led
      by_cases same : leader = server ∧ term = state.term server
      · obtain ⟨rfl, rfl⟩ := same
        rw [append_ack_self, append_leaderLog_self, List.length_append, List.length_singleton]
      · have different : term ≠ state.term server := by
          rintro rfl
          exact same ⟨matching.lawful.unique _ _ _ led leads, rfl⟩
        rw [append_leaderLog_of_ne entry different, append_ack_of_ne entry same]
        exact matching.leader_ack term leader led
    upToDate := matching.upToDate }

/-- Replacing the log of a server that does not lead by a prefix of the log of
its term's leader. -/
theorem Matching.replace {next : Replication Server Entry} (matching : state.Matching)
    {leader : Server} (leads : state.led (state.term server) leader) (other : leader ≠ server)
    {log : List Entry} (isPrefix : log <+: state.leaderLog (state.term server))
    (ballots : next.toBallots = state.toBallots)
    (logs : next.log = Function.update state.log server log)
    (startLog : next.startLog = state.startLog) (leaderLog : next.leaderLog = state.leaderLog)
    (ballotLog : next.ballotLog = state.ballotLog)
    (ack_le : ∀ server term, next.ack server term ≤ (state.leaderLog term).length)
    (ack_bound : ∀ server term, 0 < next.ack server term → term ≤ state.term server)
    (leader_ack : ∀ term server, state.led term server →
      next.ack server term = state.ack server term) : next.Matching := by
  have elected : state.Elected (state.term server) := ⟨leader, leads⟩
  have backed : ∀ {log}, state.Backed log → next.Backed log := by
    intro log backed
    refine backed.mono ?_
    intro term before
    rw [leaderLog, Elected, ballots]
    exact ⟨before, List.prefix_rfl⟩
  have logCases : ∀ someone, next.log someone = state.log someone ∨
      someone = server ∧ next.log someone = log := by
    intro someone
    rw [logs]
    by_cases same : someone = server
    · subst same
      exact .inr ⟨rfl, Function.update_self _ _ _⟩
    · exact .inl (Function.update_of_ne same _ _)
  refine ⟨ballots ▸ matching.lawful, ?_, ?_, ?_, ?_, ?_, ?_, ?_, ?_, ?_, ?_, ?_, ?_, ?_⟩
  · intro someone
    rcases logCases someone with same | ⟨_, new⟩
    · rw [same]
      exact backed (matching.log_backed someone)
    · rw [new]
      exact backed ((matching.leader_backed _).initial isPrefix)
  · intro term
    rw [leaderLog]
    exact backed (matching.leader_backed term)
  · intro voter term candidate voted
    rw [ballots] at voted
    rw [ballotLog]
    exact backed (matching.ballot_backed voter term candidate voted)
  · rw [leaderLog]
    intro term vacant
    rw [Elected, ballots] at vacant
    exact matching.vacant term vacant
  · rw [leaderLog, startLog]
    intro term before
    rw [Elected, ballots] at before
    exact matching.start_within term before
  · rw [startLog]
    intro term before
    rw [Elected, ballots] at before
    exact matching.start_terms term before
  · rw [leaderLog, startLog]
    intro term before
    rw [Elected, ballots] at before
    exact matching.own_terms term before
  · rw [leaderLog, ballots]
    intro term someone led sameTerm
    rcases logCases someone with same | ⟨rfl, _⟩
    · rw [same]
      exact matching.leading term someone led sameTerm
    · subst sameTerm
      exact absurd (matching.lawful.unique _ _ _ leads led) other
  · rw [ballots]
    intro someone entry member
    rcases logCases someone with same | ⟨rfl, new⟩
    · rw [same] at member
      exact matching.log_bound someone entry member
    · rw [new] at member
      exact matching.leader_terms elected (isPrefix.subset member)
  · rw [leaderLog]
    exact ack_le
  · rw [ballots]
    exact ack_bound
  · rw [leaderLog, ballots]
    intro term someone led
    rw [leader_ack term someone led]
    exact matching.leader_ack term someone led
  · rw [ballots, ballotLog]
    exact matching.upToDate

theorem Matching.adopt (matching : state.Matching) {leader : Server} {length : Nat}
    (leads : state.led (state.term server) leader) (other : leader ≠ server)
    (bound : length ≤ (state.leaderLog (state.term server)).length) :
    (state.adopt server length).Matching := by
  refine matching.replace leads other (List.take_prefix length _) rfl rfl rfl rfl rfl ?_ ?_ ?_
  · intro someone term
    by_cases same : someone = server ∧ term = state.term server
    · rcases same with ⟨rfl, rfl⟩
      rw [adopt_ack_self]
      exact max_le (matching.ack_le _ _) bound
    · rw [adopt_ack_of_ne length same]
      exact matching.ack_le someone term
  · intro someone term positive
    by_cases same : someone = server ∧ term = state.term server
    · rcases same with ⟨rfl, rfl⟩
      exact le_rfl
    · rw [adopt_ack_of_ne length same] at positive
      exact matching.ack_bound someone term positive
  · intro term someone led
    apply adopt_ack_of_ne
    rintro ⟨rfl, rfl⟩
    exact other (matching.lawful.unique _ _ _ leads led)

theorem Matching.install (matching : state.Matching) {leader : Server} {length : Nat}
    (leads : state.led (state.term server) leader) (other : leader ≠ server) :
    (state.install server length).Matching := by
  by_cases short : (state.log server).length ≤ length
  · refine matching.replace leads other
      (List.take_prefix length (state.leaderLog (state.term server))) rfl ?_ rfl rfl rfl
      matching.ack_le matching.ack_bound fun _ _ _ => rfl
    simp only [Replication.install, short, if_true]
  · have logs : (state.install server length).log = state.log := by
      simp only [Replication.install, short, if_false, Function.update_eq_self]
    refine ⟨matching.lawful, ?_, matching.leader_backed, matching.ballot_backed, matching.vacant,
      matching.start_within, matching.start_terms, matching.own_terms, ?_, ?_, matching.ack_le,
      matching.ack_bound, matching.leader_ack, matching.upToDate⟩
    · rw [logs]
      exact matching.log_backed
    · rw [logs]
      exact matching.leading
    · rw [logs]
      exact matching.log_bound

theorem Matching.compact (matching : state.Matching) (server : Server) (length : Nat) :
    (state.compact server length).Matching :=
  ⟨matching.lawful, matching.log_backed, matching.leader_backed, matching.ballot_backed,
    matching.vacant, matching.start_within, matching.start_terms, matching.own_terms,
    matching.leading, matching.log_bound, matching.ack_le, matching.ack_bound,
    matching.leader_ack, matching.upToDate⟩

variable [Fintype Server]

theorem Matching.move {guarded : Prop} {next : Replication Server Entry} (matching : state.Matching)
    (moved : state.Move guarded next) : next.Matching := by
  cases moved with
  | cast ballots lawful grows led fresh => exact matching.cast lawful grows led fresh
  | elect server vacant majority candidate => exact matching.elect vacant
  | append server entry leads own => exact matching.append leads own
  | adopt server leader length leads other bound own kept fresh =>
      exact matching.adopt leads other bound
  | install server leader length leads other bound newer settled =>
      exact matching.install leads other
  | compact server length bound newer settled => exact matching.compact server length

theorem Matching.extends {guarded : Prop} {next : Replication Server Entry}
    (matching : state.Matching) (moved : state.Move guarded next) : state.Extends next := by
  cases moved with
  | cast ballots lawful grows led fresh =>
      exact ⟨grows, fun _ _ => rfl, fun _ _ => List.prefix_rfl,
        fun _ _ _ voted => cast_ballotLog_of_some voted, fun _ _ _ => le_rfl, fun _ => le_rfl⟩
  | elect server vacant majority candidate =>
      refine ⟨⟨fun _ => le_rfl, fun _ _ _ voted => voted, fun _ _ _ => rfl,
        fun _ _ led => .inl led⟩, ?_, ?_, fun _ _ _ _ => rfl, ?_, fun _ => le_rfl⟩
      · intro term elected
        exact elect_startLog_of_ne (ne_term_of_elected vacant elected)
      · intro term elected
        rw [elect_leaderLog_of_ne (ne_term_of_elected vacant elected)]
      · intro someone term elected
        exact (elect_ack_of_ne fun same => ne_term_of_elected vacant elected same.2).ge
  | append server entry leads own =>
      have current := matching.leading _ server leads rfl
      refine ⟨.refl _, fun _ _ => rfl, fun term _ => prefix_append_leaderLog current entry term,
        fun _ _ _ _ => rfl, ?_, fun _ => le_rfl⟩
      intro someone term _
      by_cases same : someone = server ∧ term = state.term server
      · obtain ⟨rfl, rfl⟩ := same
        rw [append_ack_self, matching.leader_ack _ _ leads, ← current]
        exact Nat.le_succ _
      · exact (append_ack_of_ne entry same).ge
  | adopt server leader length leads other bound own kept fresh =>
      refine ⟨.refl _, fun _ _ => rfl, fun _ _ => List.prefix_rfl, fun _ _ _ _ => rfl, ?_,
        fun _ => le_rfl⟩
      intro someone term _
      by_cases same : someone = server ∧ term = state.term server
      · rcases same with ⟨rfl, rfl⟩
        rw [adopt_ack_self]
        exact le_max_left _ _
      · exact (adopt_ack_of_ne length same).ge
  | install server leader length leads other bound newer settled =>
      refine ⟨.refl _, fun _ _ => rfl, fun _ _ => List.prefix_rfl, fun _ _ _ _ => rfl,
        fun _ _ _ => le_rfl, ?_⟩
      intro someone
      by_cases same : someone = server
      · subst same
        rw [install_snap_self, List.length_take, min_eq_left bound]
        exact newer.le
      · rw [install_snap_of_ne length same]
  | compact server length bound newer settled =>
      refine ⟨.refl _, fun _ _ => rfl, fun _ _ => List.prefix_rfl, fun _ _ _ _ => rfl,
        fun _ _ _ => le_rfl, ?_⟩
      intro someone
      by_cases same : someone = server
      · subst same
        rw [compact_snap_self, List.length_take, min_eq_left bound]
        exact newer.le
      · rw [compact_snap_of_ne length same]

/-- What a move lets a server take over is in its log when the move is made. -/
theorem Matching.progress {guarded : Prop} {first next : Replication Server Entry}
    (matching : state.Matching) (front : first.Extends state) (sameAck : state.ack = first.ack)
    (moved : state.Move guarded next) : first.Progress next := by
  refine ⟨front.trans (matching.extends moved), ?_⟩
  rw [← sameAck]
  intro someone term
  cases moved with
  | cast ballots lawful grows led fresh => exact .inl le_rfl
  | elect server vacant majority candidate =>
      by_cases same : someone = server ∧ term = state.term server
      · rcases same with ⟨rfl, rfl⟩
        refine .inr ⟨rfl, ?_⟩
        rw [elect_leaderLog_self]
        exact List.take_prefix _ _
      · exact .inl (elect_ack_of_ne same).le
  | append server entry leads own =>
      by_cases same : someone = server ∧ term = state.term server
      · rcases same with ⟨rfl, rfl⟩
        refine .inr ⟨rfl, ?_⟩
        rw [append_leaderLog_self, append_log_self]
        exact List.take_prefix _ _
      · exact .inl (append_ack_of_ne entry same).le
  | adopt server leader length leads other bound own kept fresh =>
      by_cases same : someone = server ∧ term = state.term server
      · rcases same with ⟨rfl, rfl⟩
        rw [adopt_ack_self]
        rcases le_total length (state.ack someone (state.term someone)) with old | new
        · exact .inl (max_eq_left old).le
        · refine .inr ⟨rfl, ?_⟩
          rw [max_eq_right new, adopt_log_self]
          exact List.prefix_rfl
      · exact .inl (adopt_ack_of_ne length same).le
  | install server leader length leads other bound newer settled => exact .inl le_rfl
  | compact server length bound newer settled => exact .inl le_rfl

end Moves

end MultiRaft.Replication
