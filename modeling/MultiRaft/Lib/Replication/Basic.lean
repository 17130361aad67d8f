import MultiRaft.Lib.Ballots
import MultiRaft.Lib.Lists

/-!
# Replicated logs under elected leaders

The abstract protocol: servers vote in terms, a server with a majority leads its
term from the log it has, appends entries of its term, and others take over
prefixes of its log or install them as snapshots.  Logs are whole lists here;
what a server has compacted is a list of its own, `snap`.

The state keeps the history that proofs need: for each term the log its leader
started from and the log it has now, for each vote the log of the voter, and how
far each server ever took over the log of a term.
-/

namespace MultiRaft

/-- Entries that carry the term they were created in. -/
class Termed (Entry : Type*) where
  termOf : Entry → Nat

export Termed (termOf)

section Logs

variable {Entry : Type*} [Termed Entry]

/-- The term of the last entry, 0 for the empty log. -/
def lastTerm (log : List Entry) : Nat :=
  (log.getLast?.map termOf).getD 0

/-- The second log is at least as up to date as the first one. -/
def UpToDate (old new : List Entry) : Prop :=
  lastTerm old < lastTerm new ∨ lastTerm old = lastTerm new ∧ old.length ≤ new.length

theorem UpToDate.refl (log : List Entry) : UpToDate log log :=
  .inr ⟨rfl, le_rfl⟩

theorem lastTerm_of_getElem? {log : List Entry} {length : Nat} {entry : Entry}
    (found : log[length]? = some entry) : lastTerm (log.take (length + 1)) = termOf entry := by
  have within := (List.getElem?_eq_some_iff.mp found).1
  rw [lastTerm, List.getLast?_eq_getElem?, List.getElem?_take]
  rw [List.length_take, show min (length + 1) log.length - 1 = length by omega, if_pos (by omega),
    found]
  rfl

/-- A log whose last term is not 0 ends with an entry of that term. -/
theorem exists_last_of_lastTerm {log : List Entry} {term : Nat} (last : lastTerm log = term)
    (positive : log ≠ []) :
    ∃ entry, log[log.length - 1]? = some entry ∧ termOf entry = term := by
  rw [lastTerm, List.getLast?_eq_getElem?] at last
  cases found : log[log.length - 1]? with
  | none =>
      rw [List.getElem?_eq_none_iff] at found
      have nonempty := List.length_pos_iff.mpr positive
      omega
  | some entry =>
      rw [found] at last
      exact ⟨entry, rfl, last⟩

end Logs

/-- Nothing but the leaders and voters of a history: at most one leader a term,
and nobody leads or votes in a term it has not reached. -/
structure Ballots.Lawful {Server : Type*} (ballots : Ballots Server) : Prop where
  unique : ∀ term first second, ballots.led term first → ballots.led term second → first = second
  led_bound : ∀ term server, ballots.led term server → term ≤ ballots.term server
  vote_bound : ∀ voter term candidate,
    ballots.vote voter term = some candidate → term ≤ ballots.term voter

structure Replication (Server Entry : Type*) extends Ballots Server where
  log : Server → List Entry
  snap : Server → List Entry
  startLog : Nat → List Entry
  leaderLog : Nat → List Entry
  ballotLog : Server → Nat → List Entry
  ack : Server → Nat → Nat

namespace Replication

variable {Server Entry : Type*}

def Elected (state : Replication Server Entry) (term : Nat) : Prop :=
  ∃ server, state.led term server

/-- What no move takes back. -/
structure Extends (old new : Replication Server Entry) : Prop where
  ballots : old.toBallots.Grows new.toBallots
  startLog : ∀ term, old.Elected term → new.startLog term = old.startLog term
  leaderLog : ∀ term, old.Elected term → old.leaderLog term <+: new.leaderLog term
  ballotLog : ∀ voter term candidate, old.vote voter term = some candidate →
    new.ballotLog voter term = old.ballotLog voter term
  ack : ∀ server term, old.Elected term → old.ack server term ≤ new.ack server term
  snap : ∀ server, (old.snap server).length ≤ (new.snap server).length

theorem Extends.refl (state : Replication Server Entry) : state.Extends state :=
  ⟨.refl _, fun _ _ => rfl, fun _ _ => List.prefix_rfl, fun _ _ _ _ => rfl, fun _ _ _ => le_rfl,
    fun _ => le_rfl⟩

theorem Elected.mono {old new : Replication Server Entry} (grows : old.toBallots.Grows new.toBallots)
    {term : Nat} (elected : old.Elected term) : new.Elected term := by
  rcases elected with ⟨server, led⟩
  exact ⟨server, grows.led_kept _ _ led⟩

theorem Extends.trans {first middle last : Replication Server Entry}
    (front : first.Extends middle) (back : middle.Extends last) : first.Extends last where
  ballots := front.ballots.trans back.ballots
  startLog term elected :=
    (back.startLog term (elected.mono front.ballots)).trans (front.startLog term elected)
  leaderLog term elected :=
    (front.leaderLog term elected).trans (back.leaderLog term (elected.mono front.ballots))
  ballotLog voter term candidate voted :=
    (back.ballotLog voter term candidate (front.ballots.vote_kept _ _ _ voted)).trans
      (front.ballotLog voter term candidate voted)
  ack server term elected :=
    (front.ack server term elected).trans (back.ack server term (elected.mono front.ballots))
  snap server := (front.snap server).trans (back.snap server)

/-- The server is in the term and has the beginning of the log of its leader. -/
def Shows (state : Replication Server Entry) (server : Server) (term length : Nat) : Prop :=
  state.term server = term ∧ (state.leaderLog term).take length <+: state.log server

/-- An extension in which every server shows what it newly took over. -/
structure Progress (old new : Replication Server Entry) : Prop extends old.Extends new where
  shows : ∀ server term, new.ack server term ≤ old.ack server term ∨
    new.Shows server term (new.ack server term)

section Settling

variable [Termed Entry]

/-- Every entry was created by a leader of its term, and the log agrees up to it
with the log of that leader. -/
def Backed (state : Replication Server Entry) (log : List Entry) : Prop :=
  ∀ position entry, log[position]? = some entry →
    state.Elected (termOf entry) ∧ log.take (position + 1) <+: state.leaderLog (termOf entry)

variable [Fintype Server]

/-- An entry of the leader's own term that a majority took over, with all before
it. -/
structure Committed (state : Replication Server Entry) (term length : Nat) : Prop where
  elected : state.Elected term
  own : (state.startLog term).length < length
  bound : length ≤ (state.leaderLog term).length
  acked : ∃ servers, Majority servers ∧ ∀ server ∈ servers, length ≤ state.ack server term

/-- A prefix of something committed in a term up to the given one. -/
def Settled (state : Replication Server Entry) (term : Nat) (log : List Entry) : Prop :=
  log = [] ∨ ∃ earlier ≤ term, ∃ length, state.Committed earlier length ∧
    log <+: (state.leaderLog earlier).take length

end Settling

section Moves

/-- Votes are cast and terms rise; every new vote remembers the voter's log. -/
def cast (state : Replication Server Entry) (ballots : Ballots Server) :
    Replication Server Entry :=
  { state with
    toBallots := ballots
    ballotLog := fun voter term => match state.vote voter term with
      | none => state.log voter
      | some _ => state.ballotLog voter term }

variable {state : Replication Server Entry} {term : Nat}

theorem cast_ballotLog_of_none {ballots : Ballots Server} {voter : Server}
    (unvoted : state.vote voter term = none) :
    (state.cast ballots).ballotLog voter term = state.log voter := by
  simp only [cast, unvoted]

theorem cast_ballotLog_of_some {ballots : Ballots Server} {voter candidate : Server}
    (voted : state.vote voter term = some candidate) :
    (state.cast ballots).ballotLog voter term = state.ballotLog voter term := by
  simp only [cast, voted]

theorem ne_term_of_elected {server : Server} (vacant : ¬ state.Elected (state.term server))
    (elected : state.Elected term) :
    term ≠ state.term server := by
  rintro rfl
  exact vacant elected

variable [DecidableEq Server]

def elect (state : Replication Server Entry) (server : Server) : Replication Server Entry :=
  { state with
    led := fun term leader => state.led term leader ∨ term = state.term server ∧ leader = server
    startLog := Function.update state.startLog (state.term server) (state.log server)
    leaderLog := Function.update state.leaderLog (state.term server) (state.log server)
    ack := Function.update state.ack server
      (Function.update (state.ack server) (state.term server) (state.log server).length) }

theorem elect_startLog_self (state : Replication Server Entry) (server : Server) :
    (state.elect server).startLog (state.term server) = state.log server :=
  Function.update_self _ _ _

theorem elect_startLog_of_ne {server : Server} (different : term ≠ state.term server) :
    (state.elect server).startLog term = state.startLog term :=
  Function.update_of_ne different _ _

theorem elect_leaderLog_self (state : Replication Server Entry) (server : Server) :
    (state.elect server).leaderLog (state.term server) = state.log server :=
  Function.update_self _ _ _

theorem elect_leaderLog_of_ne {server : Server} (different : term ≠ state.term server) :
    (state.elect server).leaderLog term = state.leaderLog term :=
  Function.update_of_ne different _ _

theorem elect_ack_self (state : Replication Server Entry) (server : Server) :
    (state.elect server).ack server (state.term server) = (state.log server).length :=
  update_update_self _ _ _ _

variable {server someone : Server}

theorem elect_ack_of_ne (different : ¬ (someone = server ∧ term = state.term server)) :
    (state.elect server).ack someone term = state.ack someone term :=
  update_update_of_ne _ _ different

theorem elected_elect :
    (state.elect server).Elected term ↔ state.Elected term ∨ term = state.term server := by
  constructor
  · rintro ⟨leader, led | ⟨same, _⟩⟩
    · exact .inl ⟨leader, led⟩
    · exact .inr same
  · rintro (⟨leader, led⟩ | same)
    · exact ⟨leader, .inl led⟩
    · exact ⟨server, .inr ⟨same, rfl⟩⟩

def append (state : Replication Server Entry) (server : Server) (entry : Entry) :
    Replication Server Entry :=
  { state with
    log := Function.update state.log server (state.log server ++ [entry])
    leaderLog := Function.update state.leaderLog (state.term server) (state.log server ++ [entry])
    ack := Function.update state.ack server (Function.update (state.ack server)
      (state.term server) ((state.log server).length + 1)) }

theorem append_log_self (state : Replication Server Entry) (server : Server) (entry : Entry) :
    (state.append server entry).log server = state.log server ++ [entry] :=
  Function.update_self _ _ _

theorem append_log_of_ne (entry : Entry) (different : someone ≠ server) :
    (state.append server entry).log someone = state.log someone :=
  Function.update_of_ne different _ _

theorem append_leaderLog_self (state : Replication Server Entry) (server : Server)
    (entry : Entry) :
    (state.append server entry).leaderLog (state.term server) = state.log server ++ [entry] :=
  Function.update_self _ _ _

theorem append_leaderLog_of_ne (entry : Entry) (different : term ≠ state.term server) :
    (state.append server entry).leaderLog term = state.leaderLog term :=
  Function.update_of_ne different _ _

theorem append_ack_self (state : Replication Server Entry) (server : Server) (entry : Entry) :
    (state.append server entry).ack server (state.term server) = (state.log server).length + 1 :=
  update_update_self _ _ _ _

theorem append_ack_of_ne (entry : Entry)
    (different : ¬ (someone = server ∧ term = state.term server)) :
    (state.append server entry).ack someone term = state.ack someone term :=
  update_update_of_ne _ _ different

/-- The logs of the leaders grow by the entry. -/
theorem prefix_append_leaderLog (current : state.log server = state.leaderLog (state.term server))
    (entry : Entry) (term : Nat) :
    state.leaderLog term <+: (state.append server entry).leaderLog term := by
  by_cases same : term = state.term server
  · subst same
    rw [append_leaderLog_self, current]
    exact List.prefix_append _ _
  · rw [append_leaderLog_of_ne entry same]

/-- A server replaces its log by a prefix of the log of its term's leader. -/
def adopt (state : Replication Server Entry) (server : Server) (length : Nat) :
    Replication Server Entry :=
  { state with
    log := Function.update state.log server ((state.leaderLog (state.term server)).take length)
    ack := Function.update state.ack server (Function.update (state.ack server)
      (state.term server) (max (state.ack server (state.term server)) length)) }

theorem adopt_log_self (state : Replication Server Entry) (server : Server) (length : Nat) :
    (state.adopt server length).log server =
      (state.leaderLog (state.term server)).take length :=
  Function.update_self _ _ _

theorem adopt_log_of_ne (length : Nat) (different : someone ≠ server) :
    (state.adopt server length).log someone = state.log someone :=
  Function.update_of_ne different _ _

theorem adopt_ack_self (state : Replication Server Entry) (server : Server) (length : Nat) :
    (state.adopt server length).ack server (state.term server) =
      max (state.ack server (state.term server)) length :=
  update_update_self _ _ _ _

theorem adopt_ack_of_ne (length : Nat)
    (different : ¬ (someone = server ∧ term = state.term server)) :
    (state.adopt server length).ack someone term = state.ack someone term :=
  update_update_of_ne _ _ different

/-- A server installs a prefix of the log of its term's leader as its snapshot,
and gives up its own log if that is not longer. -/
def install (state : Replication Server Entry) (server : Server) (length : Nat) :
    Replication Server Entry :=
  let image := (state.leaderLog (state.term server)).take length
  { state with
    snap := Function.update state.snap server image
    log := Function.update state.log server
      (if (state.log server).length ≤ length then image else state.log server) }

theorem install_snap_self (state : Replication Server Entry) (server : Server) (length : Nat) :
    (state.install server length).snap server =
      (state.leaderLog (state.term server)).take length :=
  Function.update_self _ _ _

theorem install_snap_of_ne (length : Nat) (different : someone ≠ server) :
    (state.install server length).snap someone = state.snap someone :=
  Function.update_of_ne different _ _

theorem install_log_self (state : Replication Server Entry) (server : Server) (length : Nat) :
    (state.install server length).log server =
      if (state.log server).length ≤ length then
        (state.leaderLog (state.term server)).take length
      else state.log server :=
  Function.update_self _ _ _

theorem install_log_of_ne (length : Nat) (different : someone ≠ server) :
    (state.install server length).log someone = state.log someone :=
  Function.update_of_ne different _ _

def compact (state : Replication Server Entry) (server : Server) (length : Nat) :
    Replication Server Entry :=
  { state with
    snap := Function.update state.snap server ((state.log server).take length) }

theorem compact_snap_self (state : Replication Server Entry) (server : Server) (length : Nat) :
    (state.compact server length).snap server = (state.log server).take length :=
  Function.update_self _ _ _

theorem compact_snap_of_ne (length : Nat) (different : someone ≠ server) :
    (state.compact server length).snap someone = state.snap someone :=
  Function.update_of_ne different _ _

variable [Fintype Server] [Termed Entry]

/-- The moves of the protocol.  In a guarded run no server that adopts a prefix
gives up an entry of the same term beyond it, and only settled prefixes are
compacted or installed. -/
inductive Move (guarded : Prop) (state : Replication Server Entry) :
    Replication Server Entry → Prop
  | cast (ballots : Ballots Server) (lawful : ballots.Lawful)
      (grows : state.toBallots.Grows ballots)
      (led : ∀ term server, ballots.led term server → state.led term server)
      (fresh : ∀ voter term candidate, state.vote voter term = none →
        ballots.vote voter term = some candidate →
        term = ballots.term voter ∧ (candidate = voter ∨
          state.vote candidate term = some candidate ∧
            UpToDate (state.log voter) (state.ballotLog candidate term))) :
      Move guarded state (state.cast ballots)
  | elect (server : Server) (vacant : ¬ state.Elected (state.term server))
      (majority : Majority (state.voters (state.term server) server))
      (candidate : state.log server = state.ballotLog server (state.term server)) :
      Move guarded state (state.elect server)
  | append (server : Server) (entry : Entry) (leads : state.led (state.term server) server)
      (own : termOf entry = state.term server) :
      Move guarded state (state.append server entry)
  | adopt (server leader : Server) (length : Nat)
      (leads : state.led (state.term server) leader) (other : leader ≠ server)
      (bound : length ≤ (state.leaderLog (state.term server)).length)
      (own : (state.startLog (state.term server)).length ≤ length)
      (kept : (state.snap server).length ≤ length)
      (fresh : guarded → ∀ entry ∈ (state.log server).drop length,
        termOf entry ≠ state.term server) :
      Move guarded state (state.adopt server length)
  | install (server leader : Server) (length : Nat)
      (leads : state.led (state.term server) leader) (other : leader ≠ server)
      (bound : length ≤ (state.leaderLog (state.term server)).length)
      (newer : (state.snap server).length < length)
      (settled : guarded → state.Settled (state.term server)
        ((state.leaderLog (state.term server)).take length)) :
      Move guarded state (state.install server length)
  | compact (server : Server) (length : Nat) (bound : length ≤ (state.log server).length)
      (newer : (state.snap server).length < length)
      (settled : guarded → state.Settled (state.term server)
        ((state.log server).take length)) :
      Move guarded state (state.compact server length)

end Moves

end Replication

end MultiRaft
