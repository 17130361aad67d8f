import MultiRaft.Lib.Replication.Matching

/-!
# Leader completeness

In a guarded run no server gives up what it took over from a leader, unless a
later leader started without it.  Since the votes for a leader come from a
majority, and go only to logs at least as up to date, every later leader starts
with everything that was committed.
-/

namespace MultiRaft.Replication

variable {Server Entry : Type*}

/-- The log still has the prefix, or some leader of a later term up to the bound
started without it. -/
def Held (state : Replication Server Entry) (term bound : Nat) (front log : List Entry) : Prop :=
  front <+: log ∨ ∃ later, term < later ∧ later ≤ bound ∧ state.Elected later ∧
    ¬ front <+: state.startLog later

variable {old new : Replication Server Entry}

theorem Held.mono (extended : old.Extends new) {term bound further : Nat}
    {front log longer : List Entry} (held : old.Held term bound front log)
    (bounds : bound ≤ further) (logs : log <+: longer) :
    new.Held term further front longer := by
  rcases held with isPrefix | ⟨later, after, within, elected, without⟩
  · exact .inl (isPrefix.trans logs)
  · refine .inr ⟨later, after, within.trans bounds, elected.mono extended.ballots, ?_⟩
    rw [extended.startLog later elected]
    exact without

variable {term length : Nat}

theorem Extends.take_leaderLog (extended : old.Extends new) (elected : old.Elected term)
    (bound : length ≤ (old.leaderLog term).length) :
    (new.leaderLog term).take length = (old.leaderLog term).take length := by
  rcases extended.leaderLog term elected with ⟨rest, shape⟩
  rw [← shape, List.take_append_of_le_length bound]

variable {server : Server}

/-- What a server took over of the leader logs is the same before and after a
move. -/
theorem Matching.take_leaderLog [Termed Entry] (matching : old.Matching)
    (extended : old.Extends new) (taken : length ≤ old.ack server term) :
    (new.leaderLog term).take length = (old.leaderLog term).take length := by
  by_cases elected : old.Elected term
  · exact extended.take_leaderLog elected (taken.trans (matching.ack_le server term))
  · rw [matching.ack_vacant elected] at taken
    rw [Nat.le_zero.mp taken, List.take_zero, List.take_zero]

variable [Fintype Server]

theorem Committed.mono (extended : old.Extends new) (committed : old.Committed term length) :
    new.Committed term length := by
  rcases committed.acked with ⟨servers, majority, acked⟩
  refine ⟨committed.elected.mono extended.ballots, ?_,
    committed.bound.trans (extended.leaderLog term committed.elected).length_le, servers,
    majority, ?_⟩
  · rw [extended.startLog term committed.elected]
    exact committed.own
  · intro server member
    exact (acked server member).trans (extended.ack server term committed.elected)

theorem Settled.mono (extended : old.Extends new) {later : Nat} {log : List Entry}
    (settled : old.Settled term log) (bound : term ≤ later) :
    new.Settled later log := by
  rcases settled with rfl | ⟨earlier, reached, length, committed, isPrefix⟩
  · exact .inl rfl
  · refine .inr ⟨earlier, reached.trans bound, length, committed.mono extended, ?_⟩
    rw [extended.take_leaderLog committed.elected committed.bound]
    exact isPrefix

variable {state : Replication Server Entry}

theorem Settled.initial {front log : List Entry} (settled : state.Settled term log)
    (isPrefix : front <+: log) :
    state.Settled term front := by
  rcases settled with rfl | ⟨earlier, reached, length, committed, whole⟩
  · exact .inl (List.prefix_nil.mp isPrefix)
  · exact .inr ⟨earlier, reached, length, committed, isPrefix.trans whole⟩

/-- The entry is settled at the position. -/
def Chosen (state : Replication Server Entry) (position : Nat) (entry : Entry) : Prop :=
  ∃ term log, state.Settled term log ∧ log[position]? = some entry

theorem Chosen.mono (extended : old.Extends new) {position : Nat} {entry : Entry}
    (chosen : old.Chosen position entry) :
    new.Chosen position entry := by
  rcases chosen with ⟨term, log, settled, found⟩
  exact ⟨term, log, settled.mono extended le_rfl, found⟩

/-- The server has compacted the prefix of this length, or it is settled. -/
def Secured (state : Replication Server Entry) (server : Server) (term length : Nat) : Prop :=
  length ≤ (state.snap server).length ∨
    length ≤ (state.log server).length ∧ state.Settled term ((state.log server).take length)

theorem Secured.mono {later : Nat} (secured : state.Secured server term length)
    (bound : term ≤ later) : state.Secured server later length := by
  rcases secured with compacted | ⟨within, settled⟩
  · exact .inl compacted
  · exact .inr ⟨within, settled.mono (.refl _) bound⟩

theorem Secured.max {first second : Nat} (left : state.Secured server term first)
    (right : state.Secured server term second) :
    state.Secured server term (max first second) := by
  rcases Nat.le_total first second with below | below
  · rw [max_eq_right below]
    exact right
  · rw [max_eq_left below]
    exact left

variable [Termed Entry]

/-- The invariant of guarded runs.  What a server took over it still has, and
had when it voted, unless a leader in between started without it. -/
structure Complete (state : Replication Server Entry) : Prop where
  acked : ∀ server term length, length ≤ state.ack server term →
    state.Held term (state.term server) ((state.leaderLog term).take length) (state.log server)
  balloted : ∀ voter later candidate, state.vote voter later = some candidate →
    ∀ term length, term < later → length ≤ state.ack voter term →
      state.Held term later ((state.leaderLog term).take length) (state.ballotLog voter later)
  winners : ∀ later leader, state.led later leader → ∃ voters, Majority voters ∧
    ∀ voter ∈ voters, state.vote voter later = some leader ∧
      UpToDate (state.ballotLog voter later) (state.startLog later) ∧
      ∀ term length, term < later → length ≤ state.ack voter term →
        state.Held term (later - 1) ((state.leaderLog term).take length)
          (state.ballotLog voter later)
  snap_settled : ∀ server, state.Settled (state.term server) (state.snap server)
  snap_short : ∀ server, (state.log server).length ≤ (state.snap server).length →
    state.log server = state.snap server

/-- The invariant of guarded runs, and of runs in which nothing is compacted. -/
structure Sound (guarded : Prop) (state : Replication Server Entry) : Prop where
  matching : state.Matching
  complete : guarded → state.Complete
  whole : ¬ guarded → ∀ server, state.snap server = []

/-- A log that is all compacted is the snapshot. -/
theorem Sound.snap_short {guarded : Prop} (sound : state.Sound guarded) (server : Server)
    (short : (state.log server).length ≤ (state.snap server).length) :
    state.log server = state.snap server := by
  by_cases guard : guarded
  · exact (sound.complete guard).snap_short server short
  · have empty := sound.whole guard server
    rw [empty] at short ⊢
    exact List.eq_nil_of_length_eq_zero (Nat.le_zero.mp short)

/-- The votes stay accounted for if the move casts none and new entries are
taken over in a server's current term only. -/
theorem Complete.ballots_kept (matching : old.Matching) (complete : old.Complete)
    (extended : old.Extends new) (vote : new.vote = old.vote)
    (ballotLog : new.ballotLog = old.ballotLog)
    (ack : ∀ server term, term ≠ old.term server → new.ack server term = old.ack server term) :
    (∀ voter later candidate, new.vote voter later = some candidate →
      ∀ term length, term < later → length ≤ new.ack voter term →
        new.Held term later ((new.leaderLog term).take length) (new.ballotLog voter later)) ∧
    (∀ later leader, old.led later leader → ∃ voters, Majority voters ∧
      ∀ voter ∈ voters, new.vote voter later = some leader ∧
        UpToDate (new.ballotLog voter later) (new.startLog later) ∧
        ∀ term length, term < later → length ≤ new.ack voter term →
          new.Held term (later - 1) ((new.leaderLog term).take length)
            (new.ballotLog voter later)) := by
  have taken : ∀ {voter later candidate}, old.vote voter later = some candidate →
      ∀ {term length}, term < later → length ≤ new.ack voter term →
        length ≤ old.ack voter term := by
    intro voter later candidate voted term length before bound
    have reached := matching.lawful.vote_bound voter later candidate voted
    rwa [ack voter term (by omega)] at bound
  rw [vote, ballotLog]
  refine ⟨?_, ?_⟩
  · intro voter later candidate voted term length before bound
    have had := taken voted before bound
    rw [matching.take_leaderLog extended had]
    exact (complete.balloted voter later candidate voted term length before had).mono extended
      le_rfl List.prefix_rfl
  · intro later leader led
    rcases complete.winners later leader led with ⟨voters, majority, votes⟩
    refine ⟨voters, majority, ?_⟩
    intro voter member
    rcases votes voter member with ⟨voted, upToDate, held⟩
    rw [extended.startLog later ⟨leader, led⟩]
    refine ⟨voted, upToDate, ?_⟩
    intro term length before bound
    have had := taken voted before bound
    rw [matching.take_leaderLog extended had]
    exact (held term length before had).mono extended le_rfl List.prefix_rfl

/-- A server whose log grew or stayed still has what it took over before. -/
theorem Complete.acked_kept (matching : old.Matching) (complete : old.Complete)
    (extended : old.Extends new) (logs : old.log server <+: new.log server)
    (taken : length ≤ old.ack server term) :
    new.Held term (new.term server) ((new.leaderLog term).take length) (new.log server) := by
  rw [matching.take_leaderLog extended taken]
  exact (complete.acked server term length taken).mono extended
    (extended.ballots.term_le server) logs

theorem Complete.settled_kept (complete : old.Complete) (extended : old.Extends new)
    (snap : new.snap server = old.snap server) :
    new.Settled (new.term server) (new.snap server) := by
  rw [snap]
  exact (complete.snap_settled server).mono extended (extended.ballots.term_le server)

/-- A server that replaces its log by a prefix of its leader's log keeps what it
took over from earlier leaders, or its own leader started without it. -/
theorem Complete.held_of_take (matching : state.Matching) (complete : state.Complete) {size : Nat}
    (elected : state.Elected (state.term server)) (before : term < state.term server)
    (taken : size ≤ state.ack server term)
    (reaches : (state.leaderLog term).take size <+: state.log server →
      (state.leaderLog term).take size <+: state.startLog (state.term server) →
      size ≤ length ∨ (state.startLog (state.term server)).length ≤ length) :
    state.Held term (state.term server) ((state.leaderLog term).take size)
      ((state.leaderLog (state.term server)).take length) := by
  rcases complete.acked server term size taken with has | lost
  · by_cases started : (state.leaderLog term).take size <+: state.startLog (state.term server)
    · refine .inl (List.prefix_take_iff.mpr ⟨started.trans (matching.start_within _ elected), ?_⟩)
      have startBound := started.length_le
      have sizeBound := List.length_take_le size (state.leaderLog term)
      rcases reaches has started with enough | enough
      · omega
      · omega
    · exact .inr ⟨_, before, le_rfl, elected, started⟩
  · exact .inr lost

theorem Complete.cast (matching : state.Matching) (complete : state.Complete)
    {ballots : Ballots Server} (extended : state.Extends (state.cast ballots))
    (led : ∀ term server, ballots.led term server → state.led term server)
    (fresh : ∀ voter term candidate, state.vote voter term = none →
      ballots.vote voter term = some candidate → term = ballots.term voter) :
    (state.cast ballots).Complete where
  acked server term length taken :=
    complete.acked_kept matching extended List.prefix_rfl taken
  balloted voter later candidate voted term length before taken := by
    change ballots.vote voter later = some candidate at voted
    cases asked : state.vote voter later with
    | none =>
        -- a new vote is cast with the voter's present log
        have now := fresh voter later candidate asked voted
        rw [cast_ballotLog_of_none asked]
        refine (complete.acked voter term length taken).mono extended ?_ List.prefix_rfl
        rw [now]
        exact extended.ballots.term_le voter
    | some earlier =>
        rw [extended.ballotLog voter later earlier asked]
        exact (complete.balloted voter later earlier asked term length before taken).mono extended
          le_rfl List.prefix_rfl
  winners later leader leads := by
    rcases complete.winners later leader (led _ _ leads) with ⟨voters, majority, votes⟩
    refine ⟨voters, majority, ?_⟩
    intro voter member
    rcases votes voter member with ⟨voted, upToDate, held⟩
    rw [extended.ballotLog voter later leader voted]
    refine ⟨extended.ballots.vote_kept _ _ _ voted, upToDate, ?_⟩
    intro term length before taken
    exact (held term length before taken).mono extended le_rfl List.prefix_rfl
  snap_settled server := complete.settled_kept extended rfl
  snap_short := complete.snap_short

/-- A log that is at least as up to date as one that has a committed prefix has
it too, if all leaders between started with it. -/
theorem Committed.prefix_of_upToDate (matching : state.Matching) {later : Nat}
    (committed : state.Committed term length)
    (between : ∀ middle, term < middle → middle < later → state.Elected middle →
      (state.leaderLog term).take length <+: state.startLog middle) {ballot start : List Entry}
    (ballotBacked : state.Backed ballot) (startBacked : state.Backed start)
    (startTerms : ∀ entry ∈ start, termOf entry < later)
    (has : (state.leaderLog term).take length <+: ballot) (upToDate : UpToDate ballot start) :
    (state.leaderLog term).take length <+: start := by
  have positive : 0 < length := Nat.lt_of_le_of_lt (Nat.zero_le _) committed.own
  have size : ((state.leaderLog term).take length).length = length := by
    rw [List.length_take, min_eq_left committed.bound]
  have reaches : length ≤ ballot.length := size ▸ has.length_le
  have ballotSome : ballot ≠ [] := List.ne_nil_of_length_pos (by omega)
  rcases ballotBacked.prefix_leaderLog ballotSome with ⟨ballotElected, ballotPrefix, _⟩
  -- the committed entry at the end of the prefix is of the leader's own term
  have lastOwn : term ≤ lastTerm ballot := by
    have within : length - 1 < (state.leaderLog term).length := by
      have bound := committed.bound
      omega
    have inLeader := List.getElem?_eq_getElem within
    have inFront : ((state.leaderLog term).take length)[length - 1]? =
        some (state.leaderLog term)[length - 1] := by
      rw [List.getElem?_take, if_pos (by omega), inLeader]
    rcases matching.leader_entry committed.elected inLeader with ⟨early, _⟩ | ⟨_, own⟩
    · have late := committed.own
      omega
    · rw [← own]
      exact matching.leader_terms ballotElected
        (ballotPrefix.subset (has.subset (List.mem_of_getElem? inFront)))
  rcases upToDate with newer | ⟨sameTerm, longer⟩
  · have startSome : start ≠ [] := by
      rintro rfl
      exact absurd newer (Nat.not_lt_zero _)
    rcases startBacked.prefix_leaderLog startSome with ⟨elected, startPrefix, entry, found, own⟩
    have beforeLater : lastTerm start < later :=
      own ▸ startTerms entry (List.mem_of_getElem? found)
    have started := between (lastTerm start) (by omega) beforeLater elected
    have lastIn : (state.leaderLog (lastTerm start))[start.length - 1]? = some entry := by
      rcases startPrefix with ⟨rest, shape⟩
      have startPositive := List.length_pos_iff.mpr startSome
      rw [← shape, List.getElem?_append_left (by omega), found]
    have longEnough : length ≤ start.length := by
      have reached := started.length_le
      rw [size] at reached
      rcases matching.leader_entry elected lastIn with ⟨_, older⟩ | ⟨late, _⟩
      · omega
      · omega
    refine List.prefix_of_prefix_length_le
      (started.trans (matching.start_within _ elected)) startPrefix ?_
    rw [size]
    exact longEnough
  · have startSome : start ≠ [] := List.ne_nil_of_length_pos (by omega)
    rcases startBacked.prefix_leaderLog startSome with ⟨_, startPrefix, _⟩
    rw [← sameTerm] at startPrefix
    exact has.trans (List.prefix_of_prefix_length_le ballotPrefix startPrefix longer)

variable [DecidableEq Server]

/-- Every later leader starts with everything that was committed. -/
theorem Complete.leader_completeness (matching : state.Matching) (complete : state.Complete)
    (committed : state.Committed term length) {later : Nat} (elected : state.Elected later)
    (after : term < later) : (state.leaderLog term).take length <+: state.startLog later := by
  -- strong induction on the later term: all leaders between have the prefix
  induction later using Nat.strong_induction_on with
  | _ later inductionHypothesis =>
      rcases elected with ⟨leader, led⟩
      rcases complete.winners later leader led with ⟨voters, majority, votes⟩
      rcases committed.acked with ⟨servers, quorum, acked⟩
      rcases majority.meet quorum with ⟨voter, voted, took⟩
      rcases votes voter voted with ⟨vote, upToDate, held⟩
      have between : ∀ middle, term < middle → middle < later → state.Elected middle →
          (state.leaderLog term).take length <+: state.startLog middle :=
        fun middle above below elected => inductionHypothesis middle below elected above
      have startElected : state.Elected later := ⟨leader, led⟩
      refine committed.prefix_of_upToDate matching between
        (matching.ballot_backed voter later leader vote)
        ((matching.leader_backed later).initial (matching.start_within later startElected))
        (matching.start_terms later startElected) ?_ upToDate
      rcases held term length after (acked voter took) with
        has | ⟨middle, above, below, middleElected, without⟩
      · exact has
      · exact absurd (between middle above (by omega) middleElected) without

/-- What is settled up to a term is in the log of every leader from that term on. -/
theorem Complete.settled_within (matching : state.Matching) (complete : state.Complete)
    {later : Nat} {log : List Entry} (settled : state.Settled term log) (bound : term ≤ later)
    (elected : state.Elected later) :
    log <+: state.leaderLog later := by
  rcases settled with rfl | ⟨earlier, reached, length, committed, isPrefix⟩
  · exact List.nil_prefix
  · rcases Nat.lt_or_ge earlier later with before | same
    · exact isPrefix.trans ((complete.leader_completeness matching committed elected before).trans
        (matching.start_within later elected))
    · have equal : earlier = later := by omega
      subst equal
      exact isPrefix.trans (List.take_prefix _ _)

/-- Any two settled logs are prefixes of one another. -/
theorem Complete.settled_comparable (matching : state.Matching) (complete : state.Complete)
    {later : Nat} {first second : List Entry} (left : state.Settled term first)
    (right : state.Settled later second) : first <+: second ∨ second <+: first := by
  rcases left with rfl | ⟨earlier, _, length, committed, isPrefix⟩
  · exact .inl List.nil_prefix
  rcases right with rfl | ⟨other, _, length', committed', isPrefix'⟩
  · exact .inr List.nil_prefix
  have firstSettled : ∀ bound, earlier ≤ bound → state.Settled bound first :=
    fun bound reached => .inr ⟨earlier, reached, length, committed, isPrefix⟩
  have secondSettled : ∀ bound, other ≤ bound → state.Settled bound second :=
    fun bound reached => .inr ⟨other, reached, length', committed', isPrefix'⟩
  rcases Nat.le_total earlier other with before | before
  · exact List.prefix_or_prefix_of_prefix
      (complete.settled_within matching (firstSettled _ before) le_rfl committed'.elected)
      (complete.settled_within matching (secondSettled _ le_rfl) le_rfl committed'.elected)
  · exact List.prefix_or_prefix_of_prefix
      (complete.settled_within matching (firstSettled _ le_rfl) le_rfl committed.elected)
      (complete.settled_within matching (secondSettled _ before) le_rfl committed.elected)

/-- At most one entry is ever chosen for a position. -/
theorem Complete.chosen_unique (matching : state.Matching) (complete : state.Complete)
    {position : Nat} {first second : Entry} (left : state.Chosen position first)
    (right : state.Chosen position second) :
    first = second := by
  rcases left with ⟨term, log, settled, found⟩
  rcases right with ⟨term', log', settled', found'⟩
  have leftWithin := (List.getElem?_eq_some_iff.mp found).1
  have rightWithin := (List.getElem?_eq_some_iff.mp found').1
  rcases complete.settled_comparable matching settled settled' with ⟨rest, rfl⟩ | ⟨rest, rfl⟩
  · rw [List.getElem?_append_left leftWithin, found] at found'
    exact Option.some.inj found'
  · rw [List.getElem?_append_left rightWithin, found'] at found
    exact (Option.some.inj found).symm

section Moves

variable {state : Replication Server Entry} {server : Server}

theorem Complete.elect (matching : state.Matching) (complete : state.Complete)
    (extended : state.Extends (state.elect server)) (vacant : ¬ state.Elected (state.term server))
    (majority : Majority (state.voters (state.term server) server))
    (candidate : state.log server = state.ballotLog server (state.term server)) :
    (state.elect server).Complete := by
  have ack : ∀ someone term, term ≠ state.term someone →
      (state.elect server).ack someone term = state.ack someone term := by
    intro someone term different
    apply elect_ack_of_ne
    rintro ⟨rfl, rfl⟩
    exact different rfl
  rcases complete.ballots_kept matching extended rfl rfl ack with ⟨balloted, winners⟩
  refine ⟨?_, balloted, ?_, fun someone => complete.settled_kept extended rfl,
    complete.snap_short⟩
  · intro someone term length taken
    by_cases same : someone = server ∧ term = state.term server
    · rcases same with ⟨rfl, rfl⟩
      rw [elect_leaderLog_self]
      exact .inl (List.take_prefix _ _)
    · rw [elect_ack_of_ne same] at taken
      exact complete.acked_kept matching extended List.prefix_rfl taken
  · rintro later leader (led | ⟨rfl, rfl⟩)
    · exact winners later leader led
    · refine ⟨_, majority, ?_⟩
      intro voter member
      have voted := (Ballots.mem_voters _ _ _ _).mp member
      refine ⟨voted, ?_, ?_⟩
      · rw [elect_startLog_self, candidate]
        exact (matching.upToDate voter _ leader voted).2
      · intro term length before taken
        have reached := matching.lawful.vote_bound voter _ _ voted
        rw [ack voter term (by omega)] at taken
        have held := complete.balloted voter _ leader voted term length before taken
        rw [matching.take_leaderLog extended taken]
        refine Held.mono extended ?_ le_rfl List.prefix_rfl
        -- nobody led the term before, so whoever started without it led earlier
        rcases held with has | ⟨middle, above, within, elected, without⟩
        · exact .inl has
        · have different : middle ≠ state.term leader := by
            rintro rfl
            exact vacant elected
          exact .inr ⟨middle, above, by omega, elected, without⟩

theorem Complete.append (matching : state.Matching) (complete : state.Complete) {entry : Entry}
    (extended : state.Extends (state.append server entry)) :
    (state.append server entry).Complete := by
  have ack : ∀ someone term, term ≠ state.term someone →
      (state.append server entry).ack someone term = state.ack someone term := by
    intro someone term different
    apply append_ack_of_ne
    rintro ⟨rfl, rfl⟩
    exact different rfl
  have logs : ∀ someone, state.log someone <+: (state.append server entry).log someone := by
    intro someone
    by_cases same : someone = server
    · subst same
      rw [append_log_self]
      exact List.prefix_append _ _
    · rw [append_log_of_ne entry same]
  rcases complete.ballots_kept matching extended rfl rfl ack with ⟨balloted, winners⟩
  refine ⟨?_, balloted, winners, fun someone => complete.settled_kept extended rfl, ?_⟩
  · intro someone term length taken
    by_cases same : someone = server ∧ term = state.term server
    · rcases same with ⟨rfl, rfl⟩
      rw [append_leaderLog_self, append_log_self]
      exact .inl (List.take_prefix _ _)
    · rw [append_ack_of_ne entry same] at taken
      exact complete.acked_kept matching extended (logs someone) taken
  · intro someone short
    have before := complete.snap_short someone ((logs someone).length_le.trans short)
    have equal := (logs someone).eq_of_length_le (by rw [before]; exact short)
    rw [← equal]
    exact before

theorem Complete.adopt (matching : state.Matching) (complete : state.Complete)
    (extended : state.Extends (state.adopt server length))
    (elected : state.Elected (state.term server))
    (bound : length ≤ (state.leaderLog (state.term server)).length)
    (own : (state.startLog (state.term server)).length ≤ length)
    (kept : (state.snap server).length ≤ length)
    (fresh : ∀ entry ∈ (state.log server).drop length, termOf entry ≠ state.term server) :
    (state.adopt server length).Complete := by
  have ack : ∀ someone term, term ≠ state.term someone →
      (state.adopt server length).ack someone term = state.ack someone term := by
    intro someone term different
    apply adopt_ack_of_ne
    rintro ⟨rfl, rfl⟩
    exact different rfl
  rcases complete.ballots_kept matching extended rfl rfl ack with ⟨balloted, winners⟩
  refine ⟨?_, balloted, winners, fun someone => complete.settled_kept extended rfl, ?_⟩
  · intro someone term size taken
    by_cases same : someone = server
    · subst same
      rw [adopt_log_self]
      by_cases now : term = state.term someone
      · subst now
        refine .inl (List.prefix_take_iff.mpr ⟨List.take_prefix _ _, ?_⟩)
        refine (List.length_take_le _ _).trans ?_
        rw [adopt_ack_self] at taken
        by_contra beyond
        -- the last entry taken over is of the current term, and would be given up
        have had : size ≤ state.ack someone (state.term someone) := by omega
        have within : size - 1 < (state.leaderLog (state.term someone)).length := by
          have most := matching.ack_le someone (state.term someone)
          omega
        have found := List.getElem?_eq_getElem within
        rcases complete.acked someone _ size had with has | ⟨later, after, reached, _⟩
        · have inLog : (state.log someone)[size - 1]? =
              some (state.leaderLog (state.term someone))[size - 1] := by
            rcases has with ⟨rest, shape⟩
            rw [← shape, List.getElem?_append_left (by rw [List.length_take]; omega),
              List.getElem?_take, if_pos (by omega), found]
          have dropped : (state.leaderLog (state.term someone))[size - 1] ∈
              (state.log someone).drop length := by
            refine List.mem_of_getElem? (i := size - 1 - length) ?_
            rw [List.getElem?_drop, Nat.add_sub_cancel' (by omega)]
            exact inLog
          rcases matching.leader_entry elected found with ⟨early, _⟩ | ⟨_, current⟩
          · omega
          · exact fresh _ dropped current
        · omega
      · rw [ack someone term now] at taken
        rcases Nat.eq_zero_or_pos size with rfl | positive
        · exact .inl (by simp)
        · have reached := matching.ack_bound someone term (positive.trans_le taken)
          exact complete.held_of_take matching elected (by omega) taken fun _ _ => .inr own
    · rw [adopt_ack_of_ne length fun both => same both.1] at taken
      refine complete.acked_kept matching extended ?_ taken
      rw [adopt_log_of_ne length same]
  · intro someone short
    by_cases same : someone = server
    · subst same
      have image := complete.settled_within matching (complete.snap_settled someone) le_rfl elected
      have size : ((state.leaderLog (state.term someone)).take length).length = length := by
        rw [List.length_take, min_eq_left bound]
      rw [adopt_log_self, size] at short
      rw [adopt_log_self, show length = (state.snap someone).length from le_antisymm short kept]
      exact (List.prefix_iff_eq_take.mp image).symm
    · rw [adopt_log_of_ne length same] at short ⊢
      exact complete.snap_short someone short

theorem Complete.install (matching : state.Matching) (complete : state.Complete)
    (extended : state.Extends (state.install server length))
    (elected : state.Elected (state.term server))
    (bound : length ≤ (state.leaderLog (state.term server)).length)
    (settled : state.Settled (state.term server)
      ((state.leaderLog (state.term server)).take length)) :
    (state.install server length).Complete := by
  rcases complete.ballots_kept matching extended rfl rfl (fun _ _ _ => rfl) with
    ⟨balloted, winners⟩
  refine ⟨?_, balloted, winners, ?_, ?_⟩
  · intro someone term size taken
    by_cases same : someone = server
    · subst same
      change size ≤ state.ack someone term at taken
      rcases Nat.lt_or_ge length (state.log someone).length with longer | short
      · refine complete.acked_kept matching extended ?_ taken
        rw [install_log_self, if_neg (by omega)]
      · rw [install_log_self, if_pos short]
        rcases Nat.eq_zero_or_pos size with rfl | positive
        · exact .inl (by simp)
        have reached := matching.ack_bound someone term (positive.trans_le taken)
        have most := matching.ack_le someone term
        have fits : (state.leaderLog term).take size <+: state.log someone → size ≤ length := by
          intro has
          have covered := has.length_le
          rw [List.length_take] at covered
          omega
        by_cases now : term = state.term someone
        · subst now
          rcases complete.acked someone _ size taken with has | ⟨later, after, within, _⟩
          · refine .inl (List.prefix_take_iff.mpr ⟨List.take_prefix _ _, ?_⟩)
            exact (List.length_take_le _ _).trans (fits has)
          · omega
        · exact complete.held_of_take matching elected (by omega) taken fun has _ => .inl (fits has)
    · refine complete.acked_kept matching extended ?_ taken
      rw [install_log_of_ne length same]
  · intro someone
    by_cases same : someone = server
    · subst same
      rw [install_snap_self]
      exact settled.mono extended le_rfl
    · exact complete.settled_kept extended (install_snap_of_ne length same)
  · intro someone short
    by_cases same : someone = server
    · subst same
      rw [install_snap_self, install_log_self, List.length_take, min_eq_left bound] at short
      rw [install_snap_self, install_log_self]
      split at short
      · rename_i covered
        rw [if_pos covered]
      · omega
    · rw [install_log_of_ne length same, install_snap_of_ne length same] at short ⊢
      exact complete.snap_short someone short

theorem Complete.compact (matching : state.Matching) (complete : state.Complete)
    (extended : state.Extends (state.compact server length))
    (settled : state.Settled (state.term server) ((state.log server).take length)) :
    (state.compact server length).Complete := by
  rcases complete.ballots_kept matching extended rfl rfl (fun _ _ _ => rfl) with
    ⟨balloted, winners⟩
  refine ⟨fun someone term size taken =>
    complete.acked_kept matching extended List.prefix_rfl taken, balloted, winners, ?_, ?_⟩
  · intro someone
    by_cases same : someone = server
    · subst same
      rw [compact_snap_self]
      exact settled.mono extended le_rfl
    · exact complete.settled_kept extended (compact_snap_of_ne length same)
  · intro someone short
    by_cases same : someone = server
    · subst same
      rw [compact_snap_self] at short ⊢
      exact ((List.take_prefix length _).eq_of_length_le short).symm
    · rw [compact_snap_of_ne length same] at short ⊢
      exact complete.snap_short someone short

theorem Complete.move {guarded : Prop} {next : Replication Server Entry} (matching : state.Matching)
    (complete : state.Complete) (guard : guarded) (moved : state.Move guarded next) :
    next.Complete := by
  have extended := matching.extends moved
  cases moved with
  | cast ballots lawful grows led fresh =>
      exact complete.cast matching extended led fun voter term candidate unvoted voted =>
        (fresh voter term candidate unvoted voted).1
  | elect server vacant majority candidate =>
      exact complete.elect matching extended vacant majority candidate
  | append server entry leads own => exact complete.append matching extended
  | adopt server leader length leads other bound own kept fresh =>
      exact complete.adopt matching extended ⟨leader, leads⟩ bound own kept (fresh guard)
  | install server leader length leads other bound newer settled =>
      exact complete.install matching extended ⟨leader, leads⟩ bound (settled guard)
  | compact server length bound newer settled =>
      exact complete.compact matching extended (settled guard)

/-- In a guarded run nobody gives up what is settled. -/
theorem Complete.retains {guarded : Prop} {next : Replication Server Entry}
    (matching : state.Matching) (complete : state.Complete) (guard : guarded)
    (moved : state.Move guarded next) {log : List Entry}
    (settled : state.Settled (state.term server) log) (isPrefix : log <+: state.log server) :
    log <+: next.log server := by
  cases moved with
  | cast | elect | compact => exact isPrefix
  | append mover entry leads own =>
      by_cases same : server = mover
      · subst same
        rw [append_log_self]
        exact isPrefix.trans (List.prefix_append _ _)
      · rwa [append_log_of_ne entry same]
  | adopt mover leader length leads other bound own kept fresh =>
      by_cases same : server = mover
      · subst same
        rw [adopt_log_self]
        have inLeader := complete.settled_within matching settled le_rfl ⟨leader, leads⟩
        refine List.prefix_take_iff.mpr ⟨inLeader, ?_⟩
        by_contra beyond
        -- the entry right after the adopted part is settled and of the current term
        have within : length < log.length := not_le.mp beyond
        have found : log[length]? = some log[length] := List.getElem?_eq_getElem within
        have inLog : (state.log server)[length]? = some log[length] := by
          rcases isPrefix with ⟨rest, shape⟩
          rw [← shape, List.getElem?_append_left within, found]
        have ofLeader : (state.leaderLog (state.term server))[length]? = some log[length] := by
          rcases inLeader with ⟨rest, shape⟩
          rw [← shape, List.getElem?_append_left within, found]
        have dropped : log[length] ∈ (state.log server).drop length := by
          refine List.mem_of_getElem? (i := 0) ?_
          rw [List.getElem?_drop]
          exact inLog
        rcases matching.leader_entry ⟨leader, leads⟩ ofLeader with ⟨early, _⟩ | ⟨_, current⟩
        · omega
        · exact fresh guard _ dropped current
      · rwa [adopt_log_of_ne length same]
  | install mover leader length leads other bound newer image =>
      by_cases same : server = mover
      · subst same
        rw [install_log_self]
        split
        · rename_i short
          have inLeader := complete.settled_within matching settled le_rfl ⟨leader, leads⟩
          exact List.prefix_take_iff.mpr ⟨inLeader, isPrefix.length_le.trans short⟩
        · exact isPrefix
      · rwa [install_log_of_ne length same]

theorem Complete.secured_move {guarded : Prop} {next : Replication Server Entry}
    (matching : state.Matching) (complete : state.Complete) (guard : guarded)
    (moved : state.Move guarded next) (secured : state.Secured server (state.term server) length) :
    next.Secured server (next.term server) length := by
  have extended := matching.extends moved
  rcases secured with compacted | ⟨within, settled⟩
  · exact .inl (compacted.trans (extended.snap server))
  · have kept := complete.retains matching guard moved settled (List.take_prefix _ _)
    have size : ((state.log server).take length).length = length := by
      rw [List.length_take, min_eq_left within]
    have front := List.prefix_iff_eq_take.mp kept
    rw [size] at front
    refine .inr ⟨size ▸ kept.length_le, ?_⟩
    rw [← front]
    exact settled.mono extended (extended.ballots.term_le server)

end Moves

theorem Sound.move {guarded : Prop} {next : Replication Server Entry} (sound : state.Sound guarded)
    (moved : state.Move guarded next)
    (whole : ¬ guarded → ∀ server, next.snap server = state.snap server) :
    next.Sound guarded where
  matching := sound.matching.move moved
  complete guard := (sound.complete guard).move sound.matching guard moved
  whole unguarded server := (whole unguarded server).trans (sound.whole unguarded server)

/-- What a server compacted is in the log of its term's leader. -/
theorem Sound.snap_within {guarded : Prop} (sound : state.Sound guarded)
    (elected : state.Elected (state.term server)) :
    state.snap server <+: state.leaderLog (state.term server) := by
  by_cases guard : guarded
  · exact (sound.complete guard).settled_within sound.matching
      ((sound.complete guard).snap_settled server) le_rfl elected
  · rw [sound.whole guard server]
    exact List.nil_prefix

end MultiRaft.Replication
