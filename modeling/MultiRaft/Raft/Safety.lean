import MultiRaft.Raft.Moves

/-!
# Log matching and state machine safety

Both follow from the refinement of the replicated log.  Log matching needs no
guard as long as nothing is compacted.  State machine safety does: a delayed
`AppendEntries` cuts off entries that its own leader already counted as
replicated, and a later leader may then lack them.
-/

namespace MultiRaft

/-- Everything but a call of `Snapshot`. -/
def Event.uncompacted {n : Nat} {Command : Type} : Event n Command → Bool
  | .snapshot _ _ _ => false
  | _ => true

theorem Cluster.permitted_of_uncompacted {n : Nat} {Command : Type} (cluster : Cluster n Command)
    {event : Event n Command} (allowed : event.uncompacted = true) :
    cluster.Permitted False event := by
  refine ⟨False.elim, ?_⟩
  rintro _ server index bytes rfl
  cases allowed

/-- Two logs with an entry of one term at one index agree up to it. -/
theorem log_matching {n : Nat} {Command : Type} {cluster : Cluster n Command}
    (reached : (raftSystem n Command).Reachable (fun _ event => event.uncompacted = true) cluster)
    (first second : Fin n) {index : Nat} {entry other : LogEntry Command}
    (inFirst : (cluster.servers first).log.entryAt index = some entry)
    (inSecond : (cluster.servers second).log.entryAt index = some other)
    (sameTerm : entry.term = other.term) :
    ∀ earlier, 1 ≤ earlier → earlier ≤ index → ∃ shared,
      (cluster.servers first).log.entryAt earlier = some shared ∧
      (cluster.servers second).log.entryAt earlier = some shared := by
  have permitted : (raftSystem n Command).Reachable
      (fun cluster event => cluster.Permitted False event) cluster := by
    obtain ⟨start, initial, run⟩ := reached
    exact ⟨start, initial, run.mono fun state _ => state.permitted_of_uncompacted⟩
  obtain ⟨history, refines⟩ := Cluster.refines_of_reachable permitted
  have matching := refines.sound.matching
  have reads : ∀ server position, 1 ≤ position →
      (cluster.servers server).log.entryAt position = (history.log server)[position - 1]? := by
    intro server position positive
    refine (refines.servers server).log.entryAt_of_lt ?_
    rw [refines.sound.whole not_false server]
    exact positive
  intro earlier positive bound
  rw [reads first index (by omega)] at inFirst
  rw [reads second index (by omega)] at inSecond
  have agree := (matching.log_backed first).take_eq (matching.log_backed second) inFirst inSecond
    sameTerm
  have within := (List.getElem?_eq_some_iff.mp inFirst).1
  have found := List.getElem?_eq_getElem (show earlier - 1 < (history.log first).length by omega)
  have shared : (history.log second)[earlier - 1]? = (history.log first)[earlier - 1]? := by
    have front := congrArg (·[earlier - 1]?) agree
    simp only [List.getElem?_take] at front
    rw [if_pos (by omega), if_pos (by omega)] at front
    exact front.symm
  refine ⟨_, (reads first earlier positive).trans found, ?_⟩
  rw [reads second earlier positive, shared]
  exact found

/-- Server 0 of three after it led term 2, replicated one command to server 1 and
took another one. -/
def replicatedCluster : Cluster 3 Nat :=
  (raftSystem 3 Nat).after (fun _ => Event.uncompacted) (Cluster.initial 3 Nat)
    [.electionTimeout 0, .startElection 0, .deliver 0, .deliver 0, .start 0 (some 10),
     .startReplication 0 2, .deliver 1, .start 0 (some 11), .startReplication 0 2, .deliver 3]

theorem log_matching_replicated :
    (replicatedCluster.servers 0).log.entryAt 2 =
      some { term := 2, commandValid := true, command := some 11 } ∧
    ∀ earlier, 1 ≤ earlier → earlier ≤ 2 → ∃ shared,
      (replicatedCluster.servers 0).log.entryAt earlier = some shared ∧
      (replicatedCluster.servers 1).log.entryAt earlier = some shared :=
  ⟨rfl, log_matching ⟨_, rfl, System.run_after (fun _ => Event.uncompacted) _ _⟩ 0 1
    (show (replicatedCluster.servers 0).log.entryAt 2 =
      some { term := 2, commandValid := true, command := some 11 } from rfl)
    (show (replicatedCluster.servers 1).log.entryAt 2 =
      some { term := 2, commandValid := true, command := some 11 } from rfl) rfl⟩

/-- If no accepted `AppendEntries` cuts off entries of its own term, all servers
apply the same command at an index. -/
theorem state_machine_safety {n : Nat} {Command : Type} {cluster : Cluster n Command}
    (reached : (raftSystem n Command).Reachable
      (fun cluster event => cluster.keepsEntries event = true) cluster)
    {first second : Fin n} {msg msg' : ApplyMsg Command}
    (sent : (first, msg) ∈ cluster.delivered) (sent' : (second, msg') ∈ cluster.delivered)
    (valid : msg.commandValid = true) (valid' : msg'.commandValid = true)
    (sameIndex : msg.commandIndex = msg'.commandIndex) : msg.command = msg'.command := by
  have permitted : (raftSystem n Command).Reachable
      (fun cluster event => cluster.Permitted True event) cluster := by
    obtain ⟨start, initial, run⟩ := reached
    refine ⟨start, initial, run.mono ?_⟩
    intro state event keeps
    exact ⟨fun _ => keeps, fun unguarded => absurd trivial unguarded⟩
  obtain ⟨history, refines⟩ := Cluster.refines_of_reachable permitted
  obtain ⟨position, entry, index, command, chosen⟩ := refines.delivered trivial _ sent valid
  obtain ⟨position', entry', index', command', chosen'⟩ :=
    refines.delivered trivial _ sent' valid'
  have samePosition : position = position' := by
    dsimp only at index index'
    omega
  subst samePosition
  have same := (refines.sound.complete trivial).chosen_unique refines.sound.matching chosen chosen'
  dsimp only at command command'
  rw [command, command', same]

/-- Server 0 commits a command and server 1 learns of it. -/
def appliedCluster : Cluster 3 Nat :=
  (raftSystem 3 Nat).after Cluster.keepsEntries (Cluster.initial 3 Nat)
    [.electionTimeout 0, .startElection 0, .deliver 0, .deliver 0, .start 0 (some 10),
     .startReplication 0 2, .deliver 1, .deliver 1, .startReplication 0 2, .deliver 2,
     .collect 0, .send 0, .collect 1, .send 1]

theorem state_machine_safety_applied :
    appliedCluster.delivered =
      [(0, { commandValid := true, command := some 10, commandIndex := 1 }),
       (1, { commandValid := true, command := some 10, commandIndex := 1 })] ∧
    (some 10 : Option Nat) = some 10 := by
  have delivered : appliedCluster.delivered =
      [(0, { commandValid := true, command := some 10, commandIndex := 1 }),
       (1, { commandValid := true, command := some 10, commandIndex := 1 })] := rfl
  refine ⟨delivered, ?_⟩
  exact state_machine_safety ⟨_, rfl, System.run_after Cluster.keepsEntries _ _⟩
    (show (0, { commandValid := true, command := some 10, commandIndex := 1 }) ∈
      appliedCluster.delivered by rw [delivered]; decide)
    (show (1, { commandValid := true, command := some 10, commandIndex := 1 }) ∈
      appliedCluster.delivered by rw [delivered]; decide) rfl rfl rfl

/-- Without the condition: server 1 acknowledges two entries, a delayed request of
the same leader then cuts off the second one, and server 1 wins the next term. -/
theorem delivered_commands_differ :
    ((raftSystem 3 Nat).execute (fun _ _ => true) (Cluster.initial 3 Nat)
      [.electionTimeout 0, .startElection 0, .deliver 0, .deliver 0, .start 0 (some 10),
       .startReplication 0 2, .start 0 (some 11), .startReplication 0 2, .deliver 3, .deliver 3,
       .collect 0, .send 0, .send 0, .deliver 1, .electionTimeout 1, .startElection 0,
       .deliver 5, .deliver 5, .start 1 (some 12), .startReplication 1 3, .deliver 6,
       .deliver 6, .startReplication 1 3, .deliver 7, .deliver 7, .collect 1, .send 1,
       .send 1]).map
      (fun cluster => cluster.delivered.map fun sent =>
        (sent.1, sent.2.commandValid, sent.2.commandIndex, sent.2.command)) =
    some [(0, true, 1, some 10), (0, true, 2, some 11), (1, true, 1, some 10),
      (1, true, 2, some 12)] := by
  rfl

end MultiRaft
