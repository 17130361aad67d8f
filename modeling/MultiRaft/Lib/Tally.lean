import MultiRaft.Lib.Ballots
import MultiRaft.Lib.Lists

/-!
# Counting votes with a counter

A candidate asks every other server once in a term and counts the votes it
gets with an integer.  The counter is sound because every vote asked for is
in flight or counted, never twice, and because a server opens an election only
in a term that is new to it.

`keys` are the votes asked for and not yet counted or given up, as candidate,
voter and term; `pending` are the elections that were opened and have not asked
for votes yet.
-/

namespace MultiRaft

variable {Server : Type*} [DecidableEq Server]

structure Tally (currentTerm : Server → Nat) (pending : List (Server × Nat))
    (keys : List (Server × Server × Nat)) (votes : Server → Nat → Nat)
    (counted : Server → Nat → Finset Server) : Prop where
  keys_nodup : keys.Nodup
  key_uncounted : ∀ candidate voter term,
    (candidate, voter, term) ∈ keys → voter ∉ counted candidate term
  key_bound : ∀ candidate voter term,
    (candidate, voter, term) ∈ keys → term ≤ currentTerm candidate
  counted_bound : ∀ candidate voter term,
    voter ∈ counted candidate term → term ≤ currentTerm candidate
  pending_nodup : pending.Nodup
  pending_bound : ∀ candidate term, (candidate, term) ∈ pending → term ≤ currentTerm candidate
  pending_uncounted : ∀ candidate term,
    (candidate, term) ∈ pending → counted candidate term = ∅
  pending_unsent : ∀ candidate term, (candidate, term) ∈ pending →
    ∀ voter, (candidate, voter, term) ∉ keys
  votes_le : ∀ candidate term, votes candidate term ≤ (counted candidate term).card

namespace Tally

variable {currentTerm laterTerm : Server → Nat} {pending fewer : List (Server × Nat)}
  {keys rest : List (Server × Server × Nat)} {votes : Server → Nat → Nat}
  {counted : Server → Nat → Finset Server}

omit [DecidableEq Server] in
theorem start (currentTerm : Server → Nat) :
    Tally currentTerm [] [] (fun _ _ => 0) (fun _ _ => ∅) := by
  constructor <;> simp

omit [DecidableEq Server] in
/-- Giving up votes and elections, while terms grow, keeps the tally. -/
theorem shrink (tally : Tally currentTerm pending keys votes counted)
    (terms : ∀ server, currentTerm server ≤ laterTerm server)
    (elections : fewer.Sublist pending) (remaining : rest.Sublist keys) :
    Tally laterTerm fewer rest votes counted where
  keys_nodup := tally.keys_nodup.sublist remaining
  key_uncounted _ _ _ key := tally.key_uncounted _ _ _ (remaining.subset key)
  key_bound _ _ _ key := (tally.key_bound _ _ _ (remaining.subset key)).trans (terms _)
  counted_bound _ _ _ member := (tally.counted_bound _ _ _ member).trans (terms _)
  pending_nodup := tally.pending_nodup.sublist elections
  pending_bound _ _ member :=
    (tally.pending_bound _ _ (elections.subset member)).trans (terms _)
  pending_uncounted _ _ member := tally.pending_uncounted _ _ (elections.subset member)
  pending_unsent _ _ member voter key :=
    tally.pending_unsent _ _ (elections.subset member) voter (remaining.subset key)
  votes_le := tally.votes_le

omit [DecidableEq Server] in
/-- A new candidate has a term of its own, in which nothing happened yet. -/
theorem openElection (tally : Tally currentTerm pending keys votes counted) (candidate : Server)
    (terms : ∀ server, currentTerm server ≤ laterTerm server)
    (fresh : currentTerm candidate < laterTerm candidate) :
    Tally laterTerm (pending ++ [(candidate, laterTerm candidate)]) keys votes counted := by
  have kept := tally.shrink terms (List.Sublist.refl _) (List.Sublist.refl _)
  refine ⟨kept.keys_nodup, kept.key_uncounted, kept.key_bound, kept.counted_bound, ?_, ?_, ?_,
    ?_, kept.votes_le⟩
  · rw [List.nodup_append]
    refine ⟨tally.pending_nodup, List.nodup_singleton _, ?_⟩
    rintro ⟨other, term⟩ old new member rfl
    cases List.mem_singleton.mp member
    exact absurd (tally.pending_bound _ _ old) (not_le.mpr fresh)
  · intro other term member
    rcases List.mem_append.mp member with old | new
    · exact kept.pending_bound _ _ old
    · cases List.mem_singleton.mp new
      exact le_rfl
  · intro other term member
    rcases List.mem_append.mp member with old | new
    · exact tally.pending_uncounted _ _ old
    · cases List.mem_singleton.mp new
      refine Finset.eq_empty_of_forall_notMem ?_
      intro voter inCount
      exact absurd (tally.counted_bound _ _ _ inCount) (not_le.mpr fresh)
  · intro other term member voter key
    rcases List.mem_append.mp member with old | new
    · exact tally.pending_unsent _ _ old voter key
    · cases List.mem_singleton.mp new
      exact absurd (tally.key_bound _ _ _ key) (not_le.mpr fresh)

/-- An election that was opened asks each of a list of other servers once, and
starts its counter with the candidate's own vote. -/
theorem ask (tally : Tally currentTerm pending keys votes counted) {index : Nat}
    {candidate : Server} {term : Nat} {voters : List Server}
    (opened : pending[index]? = some (candidate, term)) (distinct : voters.Nodup)
    (others : candidate ∉ voters) :
    Tally currentTerm (pending.eraseIdx index)
      (keys ++ voters.map fun voter => (candidate, voter, term))
      (Function.update votes candidate (Function.update (votes candidate) term 1))
      (Function.update counted candidate
        (Function.update (counted candidate) term {candidate})) := by
  have isPending := List.mem_of_getElem? opened
  have remaining := List.eraseIdx_sublist pending index
  have gone : (candidate, term) ∉ pending.eraseIdx index := by
    have distinctPending : (pending.filterMap some).Nodup := by
      rw [List.filterMap_some]
      exact tally.pending_nodup
    have erased := notMem_filterMap_eraseIdx distinctPending opened rfl
    rwa [List.filterMap_some] at erased
  have different : ∀ {other term'}, (other, term') ∈ pending.eraseIdx index →
      ¬ (other = candidate ∧ term' = term) := by
    rintro other term' member ⟨rfl, rfl⟩
    exact gone member
  refine ⟨?_, ?_, ?_, ?_, tally.pending_nodup.sublist remaining,
    fun _ _ member => tally.pending_bound _ _ (remaining.subset member), ?_, ?_, ?_⟩
  · rw [List.nodup_append]
    refine ⟨tally.keys_nodup, distinct.map ?_, ?_⟩
    · intro first second same
      simpa using same
    · rintro ⟨asker, voter, asked⟩ old _ new rfl
      rcases List.mem_map.mp new with ⟨_, _, same⟩
      cases same
      exact tally.pending_unsent _ _ isPending voter old
  · intro asker voter asked key
    rcases List.mem_append.mp key with old | new
    · rw [update_update_of_ne]
      · exact tally.key_uncounted _ _ _ old
      · rintro ⟨rfl, rfl⟩
        exact tally.pending_unsent _ _ isPending voter old
    · rcases List.mem_map.mp new with ⟨_, member, same⟩
      cases same
      rw [update_update_self, Finset.mem_singleton]
      rintro rfl
      exact others member
  · intro asker voter asked key
    rcases List.mem_append.mp key with old | new
    · exact tally.key_bound _ _ _ old
    · rcases List.mem_map.mp new with ⟨_, _, same⟩
      cases same
      exact tally.pending_bound _ _ isPending
  · intro asker voter asked member
    by_cases same : asker = candidate ∧ asked = term
    · rcases same with ⟨rfl, rfl⟩
      exact tally.pending_bound _ _ isPending
    · rw [update_update_of_ne _ _ same] at member
      exact tally.counted_bound _ _ _ member
  · intro other term' member
    rw [update_update_of_ne _ _ (different member)]
    exact tally.pending_uncounted _ _ (remaining.subset member)
  · intro other term' member voter key
    rcases List.mem_append.mp key with old | new
    · exact tally.pending_unsent _ _ (remaining.subset member) voter old
    · rcases List.mem_map.mp new with ⟨_, _, same⟩
      cases same
      exact gone member
  · intro asker asked
    by_cases same : asker = candidate ∧ asked = term
    · rcases same with ⟨rfl, rfl⟩
      simp
    · rw [update_update_of_ne _ _ same, update_update_of_ne _ _ same]
      exact tally.votes_le asker asked

/-- A vote that is counted leaves the votes in flight. -/
theorem count (tally : Tally currentTerm pending keys votes counted) {candidate voter : Server}
    {term : Nat} (asked : (candidate, voter, term) ∈ keys) (remaining : rest.Sublist keys)
    (gone : (candidate, voter, term) ∉ rest) :
    Tally currentTerm pending rest
      (Function.update votes candidate
        (Function.update (votes candidate) term (votes candidate term + 1)))
      (Function.update counted candidate (Function.update (counted candidate) term
        (insert voter (counted candidate term)))) := by
  have kept := tally.shrink (fun _ => le_rfl) (List.Sublist.refl _) remaining
  have member : ∀ {asker other asked}, other ∈ Function.update counted candidate
      (Function.update (counted candidate) term (insert voter (counted candidate term)))
        asker asked →
      (asker, other, asked) = (candidate, voter, term) ∨ other ∈ counted asker asked := by
    intro asker other asked member
    by_cases same : asker = candidate ∧ asked = term
    · rcases same with ⟨rfl, rfl⟩
      rw [update_update_self] at member
      rcases Finset.mem_insert.mp member with rfl | old
      · exact .inl rfl
      · exact .inr old
    · rw [update_update_of_ne _ _ same] at member
      exact .inr member
  refine ⟨kept.keys_nodup, ?_, kept.key_bound, ?_, kept.pending_nodup, kept.pending_bound, ?_,
    kept.pending_unsent, ?_⟩
  · intro asker other asked inFlight inCount
    rcases member inCount with same | old
    · rw [same] at inFlight
      exact gone inFlight
    · exact kept.key_uncounted _ _ _ inFlight old
  · intro asker other asked' inCount
    rcases member inCount with same | old
    · cases same
      exact tally.key_bound _ _ _ asked
    · exact kept.counted_bound _ _ _ old
  · intro other term' isPending
    refine Finset.eq_empty_of_forall_notMem ?_
    intro someone inCount
    rcases member inCount with same | old
    · cases same
      exact tally.pending_unsent _ _ isPending _ asked
    · rw [tally.pending_uncounted _ _ isPending] at old
      cases old
  · intro asker asked'
    by_cases same : asker = candidate ∧ asked' = term
    · rcases same with ⟨rfl, rfl⟩
      rw [update_update_self, update_update_self,
        Finset.card_insert_of_notMem (tally.key_uncounted _ _ _ asked)]
      exact Nat.add_le_add_right (tally.votes_le _ _) 1
    · rw [update_update_of_ne _ _ same, update_update_of_ne _ _ same]
      exact tally.votes_le asker asked'

/-- If every counted voter did vote, one more vote that brings the counter above
half of all servers makes a majority. -/
theorem majority [Fintype Server] (tally : Tally currentTerm pending keys votes counted)
    {ballots : Ballots Server} {candidate voter : Server} {term : Nat}
    (asked : (candidate, voter, term) ∈ keys)
    (voted : ballots.vote voter term = some candidate)
    (cast : ∀ voter ∈ counted candidate term, ballots.vote voter term = some candidate)
    (enough : Fintype.card Server / 2 < votes candidate term + 1) :
    Majority (ballots.voters term candidate) := by
  have included : insert voter (counted candidate term) ⊆ ballots.voters term candidate := by
    intro server member
    rw [Ballots.mem_voters]
    rcases Finset.mem_insert.mp member with rfl | old
    · exact voted
    · exact cast server old
  refine Majority.mono included ?_
  have bound := tally.votes_le candidate term
  rw [majority_iff_half_lt, Finset.card_insert_of_notMem (tally.key_uncounted _ _ _ asked)]
  omega

/-- What is counted stays votes that were cast when one count is set to such
votes. -/
theorem cast_update {ballots : Ballots Server} {counted : Server → Nat → Finset Server}
    (cast : ∀ candidate voter term, voter ∈ counted candidate term →
      ballots.vote voter term = some candidate)
    {candidate : Server} {term : Nat} {voters : Finset Server}
    (voted : ∀ voter ∈ voters, ballots.vote voter term = some candidate) :
    ∀ asker voter asked, voter ∈ Function.update counted candidate
      (Function.update (counted candidate) term voters) asker asked →
      ballots.vote voter asked = some asker := by
  intro asker voter asked member
  by_cases same : asker = candidate ∧ asked = term
  · rcases same with ⟨rfl, rfl⟩
    rw [update_update_self] at member
    exact voted voter member
  · rw [update_update_of_ne _ _ same] at member
    exact cast _ _ _ member

end Tally

end MultiRaft
