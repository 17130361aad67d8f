import Mathlib.Logic.Function.Basic

/-!
# Runs of a deterministic system under a condition on its steps

A system is a set of initial states and a partial step function.  All
nondeterminism (scheduling, message loss, arguments of calls) is carried by
the events.  A run may be restricted by a condition on each step, read in the
state the step starts from; `fun _ _ => True` leaves all runs.
-/

namespace MultiRaft

universe u v

structure System (State : Type u) (Event : Type v) where
  init : State → Prop
  step : State → Event → Option State

namespace System

variable {State : Type u} {Event : Type v}

/-- Every event is allowed in every state. -/
abbrev anyStep : State → Event → Prop := fun _ _ => True

/-- A finite run all of whose steps are allowed where they are taken. -/
inductive Run (sys : System State Event) (allowed : State → Event → Prop) :
    State → State → Prop
  | refl (state : State) : Run sys allowed state state
  | tail {first middle last : State} {event : Event} :
      Run sys allowed first middle → allowed middle event →
      sys.step middle event = some last → Run sys allowed first last

/-- A state that some run reaches from an initial state. -/
def Reachable (sys : System State Event) (allowed : State → Event → Prop)
    (state : State) : Prop :=
  ∃ start, sys.init start ∧ sys.Run allowed start state

variable {sys : System State Event} {allowed : State → Event → Prop}

theorem Run.trans {first middle last : State} (front : sys.Run allowed first middle)
    (back : sys.Run allowed middle last) : sys.Run allowed first last := by
  induction back with
  | refl => exact front
  | tail _ permitted stepped inductionHypothesis =>
      exact .tail inductionHypothesis permitted stepped

theorem Run.mono {weaker : State → Event → Prop}
    (weaken : ∀ state event, allowed state event → weaker state event)
    {first last : State} (run : sys.Run allowed first last) :
    sys.Run weaker first last := by
  induction run with
  | refl => exact .refl _
  | tail _ permitted stepped inductionHypothesis =>
      exact .tail inductionHypothesis (weaken _ _ permitted) stepped

theorem Reachable.run {first last : State} (reached : sys.Reachable allowed first)
    (run : sys.Run allowed first last) : sys.Reachable allowed last := by
  rcases reached with ⟨start, initial, front⟩
  exact ⟨start, initial, front.trans run⟩

/-- The run rule: what every allowed step preserves, every run preserves. -/
theorem Run.preserves {holds : State → Prop}
    (step : ∀ state event next, holds state → allowed state event →
      sys.step state event = some next → holds next)
    {first last : State} (run : sys.Run allowed first last) (initially : holds first) :
    holds last := by
  induction run with
  | refl => exact initially
  | tail _ permitted stepped inductionHypothesis =>
      exact step _ _ _ inductionHypothesis permitted stepped

theorem Reachable.preserves {holds : State → Prop}
    (initial : ∀ state, sys.init state → holds state)
    (step : ∀ state event next, holds state → allowed state event →
      sys.step state event = some next → holds next)
    {state : State} (reached : sys.Reachable allowed state) : holds state := by
  rcases reached with ⟨start, starts, run⟩
  exact run.preserves step (initial start starts)

/-- The run rule for a step that needs to know more of the state it starts from. -/
theorem Reachable.invariant {holds : State → Prop}
    (initial : ∀ state, sys.init state → holds state)
    (step : ∀ state event next, sys.Reachable allowed state → holds state →
      allowed state event → sys.step state event = some next → holds next)
    {state : State} (reached : sys.Reachable allowed state) : holds state := by
  have start : ∀ state, sys.init state → sys.Reachable allowed state ∧ holds state :=
    fun state initially => ⟨⟨state, initially, .refl _⟩, initial state initially⟩
  refine (reached.preserves start ?_).2
  rintro state event next ⟨before, held⟩ permitted stepped
  exact ⟨before.run (.tail (.refl _) permitted stepped),
    step state event next before held permitted stepped⟩

/-- The run rule for an invariant with auxiliary state: every step extends the
auxiliary value along `grows`, so the values at the two ends of a run are
related by it. -/
theorem Run.simulates {Ghost : Type*} (related : State → Ghost → Prop)
    {grows : Ghost → Ghost → Prop}
    (refl : ∀ ghost, grows ghost ghost)
    (trans : ∀ first middle last, grows first middle → grows middle last → grows first last)
    (step : ∀ state ghost event next, related state ghost → allowed state event →
      sys.step state event = some next → ∃ ghost', related next ghost' ∧ grows ghost ghost')
    {first last : State} (run : sys.Run allowed first last)
    {ghost : Ghost} (initially : related first ghost) :
    ∃ ghost', related last ghost' ∧ grows ghost ghost' := by
  induction run with
  | refl => exact ⟨ghost, initially, refl ghost⟩
  | tail _ permitted stepped inductionHypothesis =>
      rcases inductionHypothesis with ⟨middleGhost, middleRelated, grown⟩
      rcases step _ _ _ _ middleRelated permitted stepped with ⟨lastGhost, lastRelated, further⟩
      exact ⟨lastGhost, lastRelated, trans _ _ _ grown further⟩

/-- The lockstep rule: if every step is matched by one of another system from related
states, every reachable state is related to a reachable one of the other. -/
theorem Reachable.refines {State' Event' : Type*} {other : System State' Event'}
    {permits : State' → Event' → Prop} {related : State → State' → Prop}
    (initial : ∀ state, sys.init state →
      ∃ image, other.Reachable permits image ∧ related state image)
    (step : ∀ state image event next, related state image → allowed state event →
      sys.step state event = some next → ∃ event' next', permits image event' ∧
        other.step image event' = some next' ∧ related next next')
    {state : State} (reached : sys.Reachable allowed state) :
    ∃ image, other.Reachable permits image ∧ related state image := by
  refine reached.preserves initial ?_
  rintro state event next ⟨image, before, same⟩ permitted stepped
  obtain ⟨event', next', permitted', stepped', same'⟩ :=
    step state image event next same permitted stepped
  exact ⟨next', before.run (.tail (.refl _) permitted' stepped'), same'⟩

/-- A run with all it passed through: every state and the event taken there, the
last one first. -/
inductive Trace (sys : System State Event) (allowed : State → Event → Prop) :
    List (State × Event) → State → Prop
  | start {state : State} : sys.init state → Trace sys allowed [] state
  | step {past : List (State × Event)} {state next : State} {event : Event} :
      Trace sys allowed past state → allowed state event →
      sys.step state event = some next → Trace sys allowed ((state, event) :: past) next

/-- The run rule for an invariant that speaks of the states passed. -/
theorem Trace.preserves {holds : List (State × Event) → State → Prop}
    (initial : ∀ state, sys.init state → holds [] state)
    (step : ∀ past state event next, holds past state → allowed state event →
      sys.step state event = some next → holds ((state, event) :: past) next)
    {past : List (State × Event)} {state : State} (trace : sys.Trace allowed past state) :
    holds past state := by
  induction trace with
  | start initially => exact initial _ initially
  | step _ permitted stepped inductionHypothesis =>
      exact step _ _ _ _ inductionHypothesis permitted stepped

theorem Trace.mono {weaker : State → Event → Prop}
    (weaken : ∀ state event, allowed state event → weaker state event)
    {past : List (State × Event)} {state : State} (trace : sys.Trace allowed past state) :
    sys.Trace weaker past state := by
  induction trace with
  | start initially => exact .start initially
  | step _ permitted stepped inductionHypothesis =>
      exact .step inductionHypothesis (weaken _ _ permitted) stepped

theorem Reachable.trace {state : State} (reached : sys.Reachable allowed state) :
    ∃ past, sys.Trace allowed past state := by
  have start : ∀ state, sys.init state → ∃ past, sys.Trace allowed past state :=
    fun state initial => ⟨[], .start initial⟩
  refine reached.preserves start ?_
  rintro state event next ⟨past, front⟩ permitted stepped
  exact ⟨_, .step front permitted stepped⟩

theorem Trace.reachable {past : List (State × Event)} {state : State}
    (trace : sys.Trace allowed past state) : sys.Reachable allowed state := by
  induction trace with
  | start initially => exact ⟨_, initially, .refl _⟩
  | step _ permitted stepped inductionHypothesis =>
      exact inductionHypothesis.run (.tail (.refl _) permitted stepped)

/-- One of the states passed, the newest first, has the one property, and there or
before one has the other. -/
def HeldSince (began holds : State → Prop) (states : List State) : Prop :=
  ∃ newer state older, states = newer ++ state :: older ∧ holds state ∧
    ∃ first ∈ state :: older, began first

theorem HeldSince.later {began holds : State → Prop} {states : List State}
    (held : HeldSince began holds states) (state : State) :
    HeldSince began holds (state :: states) := by
  obtain ⟨newer, there, older, rfl, rest⟩ := held
  exact ⟨state :: newer, there, older, rfl, rest⟩

theorem HeldSince.exists {began holds : State → Prop} {states : List State}
    (held : HeldSince began holds states) : ∃ state ∈ states, holds state := by
  obtain ⟨newer, there, older, rfl, holds, _⟩ := held
  exact ⟨there, by simp, holds⟩

theorem HeldSince.imp {began holds weaker : State → Prop} {states : List State}
    (held : HeldSince began holds states) (weaken : ∀ state, holds state → weaker state) :
    HeldSince began weaker states := by
  obtain ⟨newer, there, older, split, holds, began⟩ := held
  exact ⟨newer, there, older, split, weaken there holds, began⟩

theorem heldSince_now {began holds : State → Prop} {state : State} {older : List State}
    (now : holds state) (before : ∃ first ∈ state :: older, began first) :
    HeldSince began holds (state :: older) :=
  ⟨[], state, older, rfl, now, before⟩

/-- Take a list of events, checking the condition on the way. -/
def execute (sys : System State Event) (allowed : State → Event → Bool) :
    State → List Event → Option State
  | state, [] => some state
  | state, event :: rest =>
      if allowed state event then
        (sys.step state event).bind fun next => sys.execute allowed next rest
      else none

theorem run_of_execute {check : State → Event → Bool} {events : List Event}
    {first last : State} (executed : sys.execute check first events = some last) :
    sys.Run (fun state event => check state event = true) first last := by
  induction events generalizing first with
  | nil =>
      cases executed
      exact .refl _
  | cons event rest inductionHypothesis =>
      simp only [execute] at executed
      split at executed
      · rename_i permitted
        rcases Option.bind_eq_some_iff.mp executed with ⟨next, stepped, remaining⟩
        exact Run.trans (.tail (.refl _) permitted stepped) (inductionHypothesis remaining)
      · cases executed

/-- Where a list of events leads, if every one of them can be taken. -/
def after (sys : System State Event) (allowed : State → Event → Bool) (state : State)
    (events : List Event) : State :=
  (sys.execute allowed state events).getD state

theorem run_after (check : State → Event → Bool) (state : State) (events : List Event) :
    sys.Run (fun state event => check state event = true) state
      (sys.after check state events) := by
  unfold after
  cases executed : sys.execute check state events with
  | none => exact .refl _
  | some last => exact run_of_execute executed

/-- The states and events on the way, the last one first, as far as the events can be
taken. -/
def record (sys : System State Event) (allowed : State → Event → Bool)
    (past : List (State × Event)) (state : State) : List Event → List (State × Event) × State
  | [] => (past, state)
  | event :: rest =>
      match allowed state event, sys.step state event with
      | true, some next => sys.record allowed ((state, event) :: past) next rest
      | _, _ => (past, state)

theorem trace_record {check : State → Event → Bool} {past : List (State × Event)} {state : State}
    (trace : sys.Trace (fun state event => check state event = true) past state)
    (events : List Event) :
    sys.Trace (fun state event => check state event = true)
      (sys.record check past state events).1 (sys.record check past state events).2 := by
  induction events generalizing state past with
  | nil => exact trace
  | cons event rest inductionHypothesis =>
      unfold record
      split
      · rename_i next permitted stepped
        exact inductionHypothesis (trace.step permitted stepped)
      · exact trace

end System

-- a concrete run names two or three parties by literals of `Fin 2` and `Fin 3`
instance instNeZeroTwo : @NeZero Nat Zero.ofOfNat0 2 := ⟨by decide⟩

instance instNeZeroThree : @NeZero Nat Zero.ofOfNat0 3 := ⟨by decide⟩

end MultiRaft
