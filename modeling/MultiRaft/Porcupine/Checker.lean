import Mathlib.Data.List.Basic
import MultiRaft.Lib.DoublyLinked
import MultiRaft.Porcupine.Bitset

/-!
# `porcupine/checker.go`: the search of one partition

The entries of a history are the cells of a doubly linked list.  The search takes out
a call together with its return when it linearizes the operation and puts both back
when it gives the operation up.  All fields of all cells are kept in one heap with a
map for each field; a nil dereference, an index out of range and a failed type
assertion give `none`.
-/

namespace MultiRaft.Porcupine

variable {State Input Output : Type}

structure Operation (Input Output : Type) where
  clientId : Int
  input : Input
  call : Int
  output : Output
  ret : Int
  deriving DecidableEq

/-- The kind of an entry with its value: an input at a call, an output at a return. -/
inductive Value (Input Output : Type) where
  | call (input : Input)
  | ret (output : Output)
  deriving DecidableEq

def Value.isCall : Value Input Output → Bool
  | .call _ => true
  | .ret _ => false

structure Entry (Input Output : Type) where
  value : Value Input Output
  id : Nat
  time : Int
  clientId : Int
  deriving DecidableEq

def noPartition (history : List (Operation Input Output)) : List (List (Operation Input Output)) :=
  [history]

def shallowEqual [DecidableEq State] (state1 state2 : State) : Bool := state1 = state2

/-- The fields that `fillDefault` sets when they are nil have its values as defaults.
`CheckOperations` does not look at `PartitionEvent`. -/
structure Model (State Input Output : Type) [DecidableEq State] where
  partition : List (Operation Input Output) → List (List (Operation Input Output)) := noPartition
  init : State
  step : State → Input → Output → Bool × State
  equal : State → State → Bool := shallowEqual

/-- The fields of the cells; `matching` is `node.match`.  The head of the list has no
value, and its id, which is never read, is 0 instead of -1. -/
structure Heap (Input Output : Type) extends Links Nat where
  value : Nat → Option (Value Input Output)
  matching : Nat → Option Nat
  id : Nat → Nat

namespace Heap

def empty : Heap Input Output := ⟨⟨fun _ => none, fun _ => none⟩, fun _ => none, fun _ => none, fun _ => 0⟩

def setNext (heap : Heap Input Output) (n : Nat) (value : Option Nat) : Heap Input Output :=
  { heap with toLinks := heap.toLinks.setNext n value }

def setPrev (heap : Heap Input Output) (n : Nat) (value : Option Nat) : Heap Input Output :=
  { heap with toLinks := heap.toLinks.setPrev n value }

/-- `&node{value: value, match: matching, id: id}` -/
def alloc (heap : Heap Input Output) (n : Nat) (value : Option (Value Input Output))
    (matching : Option Nat) (id : Nat) : Heap Input Output :=
  { toLinks := (heap.toLinks.setNext n none).setPrev n none
    value := Function.update heap.value n value
    matching := Function.update heap.matching n matching
    id := Function.update heap.id n id }

def insertBefore (heap : Heap Input Output) (n : Nat) (mark : Option Nat) : Heap Input Output :=
  match mark with
  | none => heap
  | some mark =>
      let beforeMark := heap.prev mark
      let heap := heap.setPrev mark (some n)
      let heap := heap.setNext n (some mark)
      match beforeMark with
      | some before => (heap.setPrev n (some before)).setNext before (some n)
      | none => heap

/-- The loop ends at nil; `none` if the fuel is used up before. -/
def length (heap : Heap Input Output) : Nat → Option Nat → Option Nat
  | 0, _ => none
  | _ + 1, none => some 0
  | fuel + 1, some n => (heap.length fuel (heap.next n)).map (· + 1)

def lift (heap : Heap Input Output) (entry : Nat) : Option (Heap Input Output) := do
  let before ← heap.prev entry
  let heap := heap.setNext before (heap.next entry)
  let after ← heap.next entry
  let heap := heap.setPrev after (heap.prev entry)
  let matching ← heap.matching entry
  let before ← heap.prev matching
  let heap := heap.setNext before (heap.next matching)
  match heap.next matching with
  | some after => some (heap.setPrev after (heap.prev matching))
  | none => some heap

def unlift (heap : Heap Input Output) (entry : Nat) : Option (Heap Input Output) := do
  let matching ← heap.matching entry
  let before ← heap.prev matching
  let heap := heap.setNext before (some matching)
  let heap := match heap.next matching with
    | some after => heap.setPrev after (some matching)
    | none => heap
  let before ← heap.prev entry
  let heap := heap.setNext before (some entry)
  let after ← heap.next entry
  some (heap.setPrev after (some entry))

end Heap

/-- The variables of `makeLinkedEntries`, and the next cell to be allocated. -/
structure Linking (Input Output : Type) where
  heap : Heap Input Output
  root : Option Nat
  matchOf : Nat → Option Nat
  fresh : Nat

/-- The body of the loop, which runs from the last entry to the first. -/
def Linking.link (elem : Entry Input Output) (linking : Linking Input Output) :
    Linking Input Output :=
  let entry := linking.fresh
  let (matching, matchOf) := match elem.value with
    | .ret _ => (none, Function.update linking.matchOf elem.id (some entry))
    | .call _ => (linking.matchOf elem.id, linking.matchOf)
  { heap := (linking.heap.alloc entry (some elem.value) matching elem.id).insertBefore entry
      linking.root
    root := some entry
    matchOf
    fresh := entry + 1 }

def makeLinkedEntries (entries : List (Entry Input Output)) : Linking Input Output :=
  entries.foldr Linking.link ⟨.empty, none, fun _ => none, 0⟩

structure CacheEntry (State : Type) where
  linearized : Bitset
  state : State

def cacheContains [DecidableEq State] (model : Model State Input Output)
    (cache : BitVec 64 → List (CacheEntry State)) (entry : CacheEntry State) : Bool :=
  (cache entry.linearized.hash).any fun elem =>
    entry.linearized.equals elem.linearized && model.equal entry.state elem.state

structure CallsEntry (State : Type) where
  entry : Nat
  state : State

/-- For each operation the longest sequence found with it. -/
abbrev Longest := List (Option (List Nat))

/-- The variables of `checkSingle`; the last element of `calls` comes first. -/
structure Search (State Input Output : Type) where
  heap : Heap Input Output
  headEntry : Nat
  entry : Option Nat
  calls : List (CallsEntry State)
  linearized : Bitset
  cache : BitVec 64 → List (CacheEntry State)
  state : State
  longest : Longest

/-- `if longest[id] == nil || callsLen > len(*longest[id])` -/
def noteLongest (seq : List Nat) (longest : Longest) (id : Nat) : Option Longest := do
  let known ← longest[id]?
  if known.all fun known => known.length < seq.length then some (longest.set id (some seq))
  else some longest

/-- The sequence of a failed branch is noted for each of its operations. -/
def noteSeq (computePartial : Bool) (seq : List Nat) (longest : Longest) : Option Longest :=
  if computePartial then seq.foldlM (noteLongest seq) longest else some longest

namespace Search

/-- The ids of the linearized operations in their order. -/
def seq (search : Search State Input Output) : List Nat :=
  (search.calls.map fun call => search.heap.id call.entry).reverse

variable [DecidableEq State] (model : Model State Input Output)

/-- The branch of a call entry. -/
def tryCall (search : Search State Input Output) (entry : Nat) (input : Input) (output : Output) :
    Option (Search State Input Output) := do
  let (ok, newState) := model.step search.state input output
  if ok then
    let newLinearized ← search.linearized.set (search.heap.id entry)
    let newCacheEntry : CacheEntry State := ⟨newLinearized, newState⟩
    if cacheContains model search.cache newCacheEntry then
      some { search with entry := search.heap.next entry }
    else
      let hash := newLinearized.hash
      let heap ← search.heap.lift entry
      some { search with
        cache := Function.update search.cache hash (search.cache hash ++ [newCacheEntry])
        calls := ⟨entry, search.state⟩ :: search.calls
        state := newState
        linearized := newLinearized
        heap
        entry := heap.next search.headEntry }
  else some { search with entry := search.heap.next entry }

/-- The branch of a return entry after which some operation is given up. -/
def backtrack (computePartial : Bool) (search : Search State Input Output)
    (callsTop : CallsEntry State) (calls : List (CallsEntry State)) :
    Option (Search State Input Output) := do
  let longest ← noteSeq computePartial search.seq search.longest
  let linearized ← search.linearized.clear (search.heap.id callsTop.entry)
  let heap ← search.heap.unlift callsTop.entry
  some { search with
    longest
    state := callsTop.state
    linearized
    calls
    heap
    entry := heap.next callsTop.entry }

/-- One round of the loop, which may end the search with what `checkSingle` returns. -/
def step (computePartial killed : Bool) (search : Search State Input Output) :
    Option (Search State Input Output ⊕ (Bool × Longest)) :=
  match search.heap.next search.headEntry with
  | none => some (.inr (true, search.longest.map fun _ => some search.seq))
  | some _ =>
      if killed then some (.inr (false, search.longest)) else do
      let entry ← search.entry
      match search.heap.matching entry with
      | some matching =>
          match search.heap.value entry, search.heap.value matching with
          | some (.call input), some (.ret output) =>
              (search.tryCall model entry input output).map .inl
          | _, _ => none
      | none =>
          match search.calls with
          | [] => some (.inr (false, search.longest))
          | callsTop :: calls => (search.backtrack computePartial callsTop calls).map .inl

end Search

section

variable [DecidableEq State] (model : Model State Input Output)

/-- The variables of `checkSingle` at the start of its loop. -/
def startSearch (history : List (Entry Input Output)) : Option (Search State Input Output) := do
  let linking := makeLinkedEntries history
  let headEntry := linking.fresh
  let length ← linking.heap.length (linking.fresh + 1) linking.root
  let n := length / 2
  some
    { heap := (linking.heap.alloc headEntry none none 0).insertBefore headEntry linking.root
      headEntry
      entry := linking.root
      calls := []
      linearized := newBitset n
      cache := fun _ => []
      state := model.init
      longest := List.replicate n none }

/-- The loop for at most so many rounds, with `kill` never set. -/
def checkLoop (computePartial : Bool) : Nat → Search State Input Output → Option (Bool × Longest)
  | 0, _ => none
  | fuel + 1, search =>
      match search.step model computePartial false with
      | none => none
      | some (.inl next) => checkLoop computePartial fuel next
      | some (.inr result) => some result

def checkSingle (fuel : Nat) (history : List (Entry Input Output)) (computePartial : Bool) :
    Option (Bool × Longest) :=
  (startSearch model history).bind (checkLoop model computePartial fuel)

end

end MultiRaft.Porcupine
