import MultiRaft.Lib.Majority
import Mathlib.Data.Fintype.Basic

/-!
# Elections by majority vote

The abstract election: every server has a term that only grows and casts at
most one vote in each term; a server leads a term once a majority voted for it
there.  `Ballots` keeps the whole history of votes and leaders, so that
uniqueness of the leader is a statement about all times at once.

A program enters through its `ElectionView`s, what its servers hold at present;
`observe` brings the history up to date with them, and `Tracks.observe` is the
only rule a simulation proof needs.
-/

namespace MultiRaft

/-- What one server shows of the election at one moment. -/
structure ElectionView (Server : Type*) where
  currentTerm : Nat
  votedFor : Option Server
  leading : Prop

/-- The term never falls and a vote cast in the current term is never changed. -/
def ElectionView.Evolves {Server : Type*} (old new : ElectionView Server) : Prop :=
  old.currentTerm < new.currentTerm ∨
    old.currentTerm = new.currentTerm ∧
      (old.votedFor = none ∨ new.votedFor = old.votedFor)

theorem ElectionView.Evolves.refl {Server : Type*} (view : ElectionView Server) :
    view.Evolves view :=
  .inr ⟨rfl, .inr rfl⟩

theorem ElectionView.Evolves.term_le {Server : Type*} {old new : ElectionView Server}
    (evolves : old.Evolves new) : old.currentTerm ≤ new.currentTerm := by
  rcases evolves with later | ⟨same, _⟩
  · exact later.le
  · exact same.le

/-- The history of an election. -/
structure Ballots (Server : Type*) where
  term : Server → Nat
  vote : Server → Nat → Option Server
  led : Nat → Server → Prop

namespace Ballots

variable {Server : Type*} [Fintype Server] [DecidableEq Server]

def voters (ballots : Ballots Server) (term : Nat) (candidate : Server) : Finset Server :=
  Finset.univ.filter fun voter => ballots.vote voter term = some candidate

@[simp]
theorem mem_voters (ballots : Ballots Server) (term : Nat) (candidate voter : Server) :
    voter ∈ ballots.voters term candidate ↔ ballots.vote voter term = some candidate := by
  simp [voters]

/-- Nothing of the history is ever lost, and no vote is cast in a past term. -/
structure Grows (old new : Ballots Server) : Prop where
  term_le : ∀ server, old.term server ≤ new.term server
  vote_kept : ∀ voter term candidate,
    old.vote voter term = some candidate → new.vote voter term = some candidate
  vote_past : ∀ voter term, term < old.term voter →
    new.vote voter term = old.vote voter term
  led_kept : ∀ term server, old.led term server → new.led term server

omit [Fintype Server] [DecidableEq Server] in
theorem Grows.refl (ballots : Ballots Server) : ballots.Grows ballots :=
  ⟨fun _ => le_rfl, fun _ _ _ cast => cast, fun _ _ _ => rfl, fun _ _ leads => leads⟩

omit [Fintype Server] [DecidableEq Server] in
theorem Grows.trans {first middle last : Ballots Server}
    (front : first.Grows middle) (back : middle.Grows last) : first.Grows last where
  term_le server := (front.term_le server).trans (back.term_le server)
  vote_kept voter term candidate cast :=
    back.vote_kept _ _ _ (front.vote_kept voter term candidate cast)
  vote_past voter term past := by
    rw [back.vote_past voter term (past.trans_le (front.term_le voter)),
      front.vote_past voter term past]
  led_kept term server leads := back.led_kept _ _ (front.led_kept term server leads)

/-- The history agrees with what the servers show now, and every leader was
elected by a majority. -/
structure Tracks (ballots : Ballots Server) (view : Server → ElectionView Server) : Prop where
  term_eq : ∀ server, ballots.term server = (view server).currentTerm
  vote_eq : ∀ server, ballots.vote server (view server).currentTerm = (view server).votedFor
  vote_bound : ∀ voter term candidate,
    ballots.vote voter term = some candidate → term ≤ (view voter).currentTerm
  leading : ∀ server, (view server).leading → ballots.led (view server).currentTerm server
  led_bound : ∀ term server, ballots.led term server → term ≤ (view server).currentTerm
  elected : ∀ term server, ballots.led term server → Majority (ballots.voters term server)

/-- At most one server ever leads a term. -/
theorem Tracks.led_unique {ballots : Ballots Server} {view : Server → ElectionView Server}
    (tracks : ballots.Tracks view) {term : Nat} {first second : Server}
    (left : ballots.led term first) (right : ballots.led term second) : first = second := by
  rcases (tracks.elected term first left).meet (tracks.elected term second right) with
    ⟨voter, votedFirst, votedSecond⟩
  rw [mem_voters] at votedFirst votedSecond
  rw [votedFirst] at votedSecond
  exact Option.some.inj votedSecond

/-- Two leaders of one term, at two times, are the same. -/
theorem Tracks.leader_unique {ballots later : Ballots Server}
    {view laterView : Server → ElectionView Server} (tracks : ballots.Tracks view)
    (laterTracks : later.Tracks laterView) (grows : ballots.Grows later) {first second : Server}
    (firstLeads : (view first).leading) (secondLeads : (laterView second).leading)
    (sameTerm : (view first).currentTerm = (laterView second).currentTerm) : first = second := by
  have ledBefore := grows.led_kept _ _ (tracks.leading first firstLeads)
  rw [sameTerm] at ledBefore
  exact laterTracks.led_unique ledBefore (laterTracks.leading second secondLeads)

/-- The history before anyone voted. -/
def start (view : Server → ElectionView Server) : Ballots Server where
  term server := (view server).currentTerm
  vote _ _ := none
  led _ _ := False

theorem start_tracks (view : Server → ElectionView Server)
    (unvoted : ∀ server, (view server).votedFor = none)
    (leaderless : ∀ server, ¬ (view server).leading) : (start view).Tracks view where
  term_eq _ := rfl
  vote_eq server := (unvoted server).symm
  vote_bound _ _ _ cast := nomatch cast
  leading server leads := absurd leads (leaderless server)
  led_bound _ _ leads := leads.elim
  elected _ _ leads := leads.elim

/-- Enter what the servers show now into the history. -/
def observe (ballots : Ballots Server) (view : Server → ElectionView Server) :
    Ballots Server where
  term server := (view server).currentTerm
  vote server term :=
    if term = (view server).currentTerm then (view server).votedFor
    else ballots.vote server term
  led term server :=
    ballots.led term server ∨ (view server).leading ∧ (view server).currentTerm = term

theorem Tracks.grows_observe {ballots : Ballots Server}
    {old new : Server → ElectionView Server} (tracks : ballots.Tracks old)
    (evolves : ∀ server, (old server).Evolves (new server)) :
    ballots.Grows (ballots.observe new) where
  term_le server := by
    rw [tracks.term_eq]
    exact (evolves server).term_le
  vote_kept voter term candidate cast := by
    simp only [observe]
    split
    · rename_i current
      rcases evolves voter with later | ⟨same, unvoted | kept⟩
      · have bound := tracks.vote_bound voter term candidate cast
        omega
      · rw [current, ← same, tracks.vote_eq, unvoted] at cast
        cases cast
      · rw [kept, ← tracks.vote_eq, same, ← current]
        exact cast
    · exact cast
  vote_past voter term past := by
    have risen := (evolves voter).term_le
    rw [tracks.term_eq] at past
    simp only [observe]
    rw [if_neg (by omega)]
  led_kept _ _ leads := .inl leads

/-- The simulation rule: if every server's view evolves lawfully and whoever
starts to lead has the votes of a majority, the updated history tracks the new
views and has lost nothing. -/
theorem Tracks.observe {ballots : Ballots Server}
    {old new : Server → ElectionView Server} (tracks : ballots.Tracks old)
    (evolves : ∀ server, (old server).Evolves (new server))
    (wins : ∀ server, (new server).leading →
      ballots.led (new server).currentTerm server ∨
        Majority ((ballots.observe new).voters (new server).currentTerm server)) :
    (ballots.observe new).Tracks new where
  term_eq _ := rfl
  vote_eq server := by simp [Ballots.observe]
  vote_bound voter term candidate cast := by
    simp only [Ballots.observe] at cast
    split at cast
    · rename_i current
      exact current.le
    · exact (tracks.vote_bound voter term candidate cast).trans (evolves voter).term_le
  leading server leads := .inr ⟨leads, rfl⟩
  led_bound term server leads := by
    rcases leads with led | ⟨_, current⟩
    · exact (tracks.led_bound term server led).trans (evolves server).term_le
    · exact current.ge
  elected term server leads := by
    have grows := tracks.grows_observe evolves
    have kept : ballots.led term server →
        Majority ((ballots.observe new).voters term server) := by
      intro led
      refine Majority.mono ?_ (tracks.elected term server led)
      intro voter voted
      rw [mem_voters] at voted ⊢
      exact grows.vote_kept voter term server voted
    rcases leads with led | ⟨shows, current⟩
    · exact kept led
    · subst current
      rcases wins server shows with led | majority
      · exact kept led
      · exact majority

end Ballots

end MultiRaft
