import MultiRaft.KVRaft.Clients

/-!
# Handlers and their channels

A result is routed by the index alone.  What a handler can find in its channel is
the answer to its own command as long as, whenever `applyTask` sends a result,
the handlers that wait at the index have called `Start` in the term in which the
server leads at that moment.
-/

namespace MultiRaft.KVRaft

/-- The handler has called `Start` in this term, which gave it this index, and has
no answer yet. -/
def Phase.awaits : Phase → Option (Nat × Nat)
  | .started index term => some (index, term)
  | .waiting index term _ => some (index, term)
  | _ => none

/-- The entry that the `Start` of a call made. -/
def Own (id : Nat) (args : Args) (entry : Entry) : Prop :=
  entry.rpc = id ∧ args.op = some entry.op

/-- The reply is the result of the call's own command at the index. -/
def Answers (agreed : List Entry) (id : Nat) (args : Args) (index : Nat) (reply : OpReply) :
    Prop :=
  ∃ entry, agreed[index - 1]? = some entry ∧ Own id args entry ∧
    reply = ((stateAt agreed (index - 1)).apply entry.op).2

/-- What a reply to a call says about the agreed sequence. -/
def Honest (agreed : List Entry) (id : Nat) (err : Err) (value : String) (applied : Nat) :
    Args → Prop
  | .putAppend args => ∃ position < applied, Writes agreed position args.clientId args.seqId
  | .get args => ∃ position < applied, ∃ entry, agreed[position]? = some entry ∧
      entry.op = { key := args.key, opType := .get } ∧ entry.rpc = id ∧
      (value, err) = (stateAt agreed position).stateMachine.get args.key

theorem Answers.of_grown {agreed settled : List Entry} {id index : Nat} {args : Args}
    {reply : OpReply} (grown : agreed <+: settled) (answers : Answers agreed id args index reply) :
    Answers settled id args index reply := by
  obtain ⟨entry, present, own, result⟩ := answers
  have early := (List.getElem?_eq_some_iff.mp present).1
  refine ⟨entry, getElem?_of_grown grown present, own, ?_⟩
  rw [stateAt_of_grown grown (Nat.le_of_lt early)]
  exact result

theorem Honest.of_grown {agreed settled : List Entry} {id applied : Nat} {args : Args}
    {err : Err} {value : String} (grown : agreed <+: settled)
    (honest : Honest agreed id err value applied args) :
    Honest settled id err value applied args := by
  cases args with
  | putAppend args =>
      obtain ⟨position, early, writes⟩ := honest
      exact ⟨position, early, writes.of_grown grown⟩
  | get args =>
      obtain ⟨position, early, entry, present, reads, own, result⟩ := honest
      have inside := (List.getElem?_eq_some_iff.mp present).1
      refine ⟨position, early, entry, getElem?_of_grown grown present, reads, own, ?_⟩
      rw [stateAt_of_grown grown (Nat.le_of_lt inside)]
      exact result

/-- A handler that passes on the result of its own command is honest. -/
theorem Answers.honest {agreed : List Entry} {id index applied : Nat} {args : Args}
    {reply : OpReply} {value : String} (answers : Answers agreed id args index reply)
    (positive : 1 ≤ index) (done : index ≤ applied)
    (takes : ∀ request, args = .get request → value = reply.value) :
    Honest agreed id reply.err value applied args := by
  obtain ⟨entry, present, ⟨made, asks⟩, rfl⟩ := answers
  have early : index - 1 < applied := by omega
  cases args with
  | putAppend args => exact ⟨index - 1, early, entry, present, Args.op_putAppend asks⟩
  | get args =>
      have reads : entry.op = { key := args.key, opType := .get } :=
        (Option.some.inj asks).symm
      refine ⟨index - 1, early, entry, present, reads, made, ?_⟩
      rw [takes args rfl, Replica.apply_get _ (by rw [reads]), reads]

/-- The map of channels is one to one, and a result lies only where the server
has applied. -/
structure Wired (kv : KVServer) (applied : Nat) : Prop where
  made : ∀ index channel, kv.notifyChans index = some channel → channel < kv.nextChan
  apart : ∀ index other channel, kv.notifyChans index = some channel →
    kv.notifyChans other = some channel → index = other
  filled : ∀ index channel reply, kv.notifyChans index = some channel →
    kv.buffers channel = some reply → index ≤ applied

/-- What one server knows of a call whose handler stands in a phase. -/
structure Handled (agreed : List Entry) (led : List Nat) (peer : RaftPeer) (kv : KVServer)
    (id : Nat) (args : Args) (phase : Phase) : Prop where
  positive : ∀ index term, phase.awaits = some (index, term) → 1 ≤ index ∧ term ∈ led
  own : ∀ index term, phase.awaits = some (index, term) → peer.leading = true →
    peer.term = term → ∃ entry, peer.log[index - 1]? = some entry ∧ Own id args entry
  mapped : ∀ index term, phase = .started index term → ∀ channel reply,
    kv.notifyChans index = some channel → kv.buffers channel = some reply →
    Answers agreed id args index reply
  held : ∀ index term channel, phase = .waiting index term channel →
    channel < kv.nextChan ∧ (∀ other, kv.notifyChans other = some channel → other = index) ∧
    ∀ reply, kv.buffers channel = some reply →
      index ≤ peer.applied ∧ Answers agreed id args index reply
  honest : ∀ err value applied cleanup, phase = .replied err value applied cleanup →
    err ≠ .errWrongLeader → err ≠ .errTimeout → Honest agreed id err value applied args

/-- A phase in which nothing is awaited and nothing was promised. -/
theorem Handled.idle {agreed : List Entry} {led : List Nat} {peer : RaftPeer} {kv : KVServer}
    {id : Nat} {args : Args} {phase : Phase} (silent : phase.awaits = none)
    (honest : ∀ err value applied cleanup, phase = .replied err value applied cleanup →
      err ≠ .errWrongLeader → err ≠ .errTimeout → Honest agreed id err value applied args) :
    Handled agreed led peer kv id args phase where
  positive index term awaits := by simp [silent] at awaits
  own index term awaits := by simp [silent] at awaits
  mapped index term begun := by simp [begun, Phase.awaits] at silent
  held index term channel waits := by simp [waits, Phase.awaits] at silent
  honest := honest

namespace Handled

variable {agreed settled : List Entry} {led more : List Nat} {peer peer' : RaftPeer}
  {kv kv' : KVServer} {id : Nat} {args : Args} {phase : Phase}

/-- The sequence and the set of terms grow, and Raft changes under the handlers. -/
theorem mono (handled : Handled agreed led peer kv id args phase) (grown : agreed <+: settled)
    (kept : led ⊆ more) (later : peer.applied ≤ peer'.applied)
    (own : ∀ index term, phase.awaits = some (index, term) → peer'.leading = true →
      peer'.term = term → ∃ entry, peer'.log[index - 1]? = some entry ∧ Own id args entry) :
    Handled settled more peer' kv id args phase where
  positive index term awaits := by
    obtain ⟨positive, known⟩ := handled.positive index term awaits
    exact ⟨positive, kept known⟩
  own := own
  mapped index term begun channel reply at_index buffered :=
    (handled.mapped index term begun channel reply at_index buffered).of_grown grown
  held index term channel waits := by
    obtain ⟨known, only, answered⟩ := handled.held index term channel waits
    refine ⟨known, only, ?_⟩
    intro reply buffered
    obtain ⟨done, answers⟩ := answered reply buffered
    exact ⟨Nat.le_trans done later, answers.of_grown grown⟩
  honest err value applied cleanup replied led intime :=
    (handled.honest err value applied cleanup replied led intime).of_grown grown

/-- Channels are taken out of the map or emptied. -/
theorem drain (handled : Handled agreed led peer kv id args phase)
    (chans : ∀ index channel, kv'.notifyChans index = some channel →
      kv.notifyChans index = some channel)
    (buffers : ∀ channel reply, kv'.buffers channel = some reply →
      kv.buffers channel = some reply)
    (next : kv'.nextChan = kv.nextChan) : Handled agreed led peer kv' id args phase :=
  { handled with
    mapped := fun index term begun channel reply at_index buffered =>
      handled.mapped index term begun channel reply (chans _ _ at_index) (buffers _ _ buffered)
    held := by
      intro index term channel waits
      obtain ⟨known, only, answered⟩ := handled.held index term channel waits
      exact ⟨next ▸ known, fun other at_other => only other (chans _ _ at_other),
        fun reply buffered => answered reply (buffers _ _ buffered)⟩ }

/-- Handlers do not read the replica. -/
theorem replica (handled : Handled agreed led peer kv id args phase) {lastApplied : Nat}
    {replica : Replica} :
    Handled agreed led peer { kv with lastApplied, replica } id args phase :=
  ⟨handled.positive, handled.own, handled.mapped, handled.held, handled.honest⟩

/-- A new channel is empty and nobody waits at it. -/
theorem openChannel (handled : Handled agreed led peer kv id args phase)
    {applied : Nat} (wired : Wired kv applied) (index : Nat) :
    Handled agreed led peer (kv.getNotifyChannel index).1 id args phase := by
  rcases kv.getNotifyChannel_cases index with ⟨channel, -, shape⟩ | ⟨-, shape⟩
  · rw [shape]
    exact handled
  · rw [shape]
    refine { handled with mapped := ?_, held := ?_ }
    · intro place term begun channel reply at_place buffered
      by_cases same : place = index
      · subst same
        simp only [Function.update_self, Option.some.injEq] at at_place
        subst at_place
        simp at buffered
      · simp only [Function.update_of_ne same] at at_place
        have old := wired.made place channel at_place
        simp only [Function.update_of_ne (Nat.ne_of_lt old)] at buffered
        exact handled.mapped place term begun channel reply at_place buffered
    · intro place term channel waits
      obtain ⟨known, only, answered⟩ := handled.held place term channel waits
      refine ⟨Nat.lt_succ_of_lt known, ?_, ?_⟩
      · intro other at_other
        by_cases same : other = index
        · subst same
          simp only [Function.update_self, Option.some.injEq] at at_other
          omega
        · simp only [Function.update_of_ne same] at at_other
          exact only other at_other
      · intro reply buffered
        simp only [Function.update_of_ne (Nat.ne_of_lt known)] at buffered
        exact answered reply buffered

/-- A result is put into the channel of an index. -/
theorem fill (handled : Handled agreed led peer kv id args phase)
    {applied index channel : Nat} {reply : OpReply} (wired : Wired kv applied)
    (at_index : kv.notifyChans index = some channel) (done : index ≤ peer.applied)
    (answers : ∀ term, phase.awaits = some (index, term) → Answers agreed id args index reply) :
    Handled agreed led peer
      { kv with buffers := Function.update kv.buffers channel (some reply) } id args phase := by
  refine { handled with mapped := ?_, held := ?_ }
  · intro place term begun other result at_place buffered
    by_cases same : other = channel
    · subst same
      obtain rfl := wired.apart place index other at_place at_index
      simp only [Function.update_self, Option.some.injEq] at buffered
      subst buffered
      exact answers term (by simp [begun, Phase.awaits])
    · simp only [Function.update_of_ne same] at buffered
      exact handled.mapped place term begun other result at_place buffered
  · intro place term other waits
    obtain ⟨known, only, answered⟩ := handled.held place term other waits
    refine ⟨known, only, ?_⟩
    intro result buffered
    by_cases same : other = channel
    · subst same
      obtain rfl := only index at_index
      simp only [Function.update_self, Option.some.injEq] at buffered
      subst buffered
      exact ⟨done, answers term (by simp [waits, Phase.awaits])⟩
    · simp only [Function.update_of_ne same] at buffered
      exact answered result buffered

end Handled

namespace Wired

variable {kv kv' : KVServer} {applied : Nat}

theorem drain (wired : Wired kv applied)
    (chans : ∀ index channel, kv'.notifyChans index = some channel →
      kv.notifyChans index = some channel)
    (buffers : ∀ channel reply, kv'.buffers channel = some reply →
      kv.buffers channel = some reply)
    (next : kv'.nextChan = kv.nextChan) : Wired kv' applied where
  made index channel at_index := next ▸ wired.made index channel (chans _ _ at_index)
  apart index other channel at_index at_other :=
    wired.apart index other channel (chans _ _ at_index) (chans _ _ at_other)
  filled index channel reply at_index buffered :=
    wired.filled index channel reply (chans _ _ at_index) (buffers _ _ buffered)

theorem replica (wired : Wired kv applied) {later lastApplied : Nat} {replica : Replica}
    (grows : applied ≤ later) : Wired { kv with lastApplied, replica } later where
  made := wired.made
  apart := wired.apart
  filled index channel reply at_index buffered :=
    Nat.le_trans (wired.filled index channel reply at_index buffered) grows

theorem openChannel (wired : Wired kv applied) (index : Nat) :
    Wired (kv.getNotifyChannel index).1 applied ∧
      (kv.getNotifyChannel index).1.notifyChans index =
        some (kv.getNotifyChannel index).2 := by
  rcases kv.getNotifyChannel_cases index with ⟨channel, found, shape⟩ | ⟨-, shape⟩
  · rw [shape]
    exact ⟨wired, found⟩
  · rw [shape]
    -- every place of the new map is the new channel or an old one
    have places : ∀ place channel,
        Function.update kv.notifyChans index (some kv.nextChan) place = some channel →
        (place = index ∧ channel = kv.nextChan) ∨
          (kv.notifyChans place = some channel ∧ channel < kv.nextChan) := by
      intro place channel at_place
      by_cases same : place = index
      · subst same
        simp only [Function.update_self, Option.some.injEq] at at_place
        exact .inl ⟨rfl, at_place.symm⟩
      · simp only [Function.update_of_ne same] at at_place
        exact .inr ⟨at_place, wired.made place channel at_place⟩
    refine ⟨⟨?_, ?_, ?_⟩, by simp⟩
    · intro place channel at_place
      rcases places place channel at_place with ⟨-, rfl⟩ | ⟨-, old⟩
      · exact Nat.lt_succ_self _
      · exact Nat.lt_succ_of_lt old
    · intro place other channel at_place at_other
      rcases places place channel at_place with ⟨rfl, rfl⟩ | ⟨here, old⟩ <;>
        rcases places other _ at_other with ⟨rfl, new⟩ | ⟨there, older⟩
      · rfl
      · omega
      · omega
      · exact wired.apart place other channel here there
    · intro place channel reply at_place buffered
      rcases places place channel at_place with ⟨rfl, rfl⟩ | ⟨here, old⟩
      · simp at buffered
      · simp only [Function.update_of_ne (Nat.ne_of_lt old)] at buffered
        exact wired.filled place channel reply here buffered

theorem fill (wired : Wired kv applied) {index channel : Nat} {reply : OpReply}
    (at_index : kv.notifyChans index = some channel) (done : index ≤ applied) :
    Wired { kv with buffers := Function.update kv.buffers channel (some reply) } applied := by
  refine { wired with filled := ?_ }
  intro place other result at_place buffered
  by_cases same : other = channel
  · subst same
    obtain rfl := wired.apart place index other at_place at_index
    exact done
  · simp only [Function.update_of_ne same] at buffered
    exact wired.filled place other result at_place buffered

end Wired

end MultiRaft.KVRaft
