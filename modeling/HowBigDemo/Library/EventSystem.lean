import Mathlib.Data.List.Basic

namespace Library

universe u v w

/-!
# Event systems and laws of their runs

An event system answers each event with a new state and with the facts an
outside observer may record about that step.  The choices of an environment
(a random number, a deletion that fails) belong to the event, so the step
itself is a function and a run is determined by its list of events.

Two kinds of law are used below.  A state law is carried from each step to
the next.  A step law relates the state in which an event arrives to the
event: `Along` says that it holds at every step of a run, and the rules
compare two such laws in the presence of a state law that both may use.
-/

/-- A deterministic step, together with what it lets an observer record. -/
structure EventSystem (State : Type u) (Event : Type v) (Observation : Type w) where
  step : State -> Event -> State × List Observation

namespace EventSystem

variable {State : Type u} {Event : Type v} {Observation : Type w}
variable (system : EventSystem State Event Observation)

/-- The state after one event. -/
def next (state : State) (event : Event) : State :=
  (system.step state event).1

/-- The observations of one event. -/
def emits (state : State) (event : Event) : List Observation :=
  (system.step state event).2

/-- The state after a list of events. -/
def run (state : State) : List Event -> State
  | [] => state
  | event :: rest => run (system.next state event) rest

/-- Everything observed during a list of events, in order. -/
def trace (state : State) : List Event -> List Observation
  | [] => []
  | event :: rest => system.emits state event ++ trace (system.next state event) rest

/-- A law about the state before each event and that event, at every step. -/
def Along (law : State -> Event -> Prop) (state : State) : List Event -> Prop
  | [] => True
  | event :: rest => law state event ∧ Along law (system.next state event) rest

/-- Every observation of one step is acceptable. -/
def Emits (good : Observation -> Prop) (state : State) (event : Event) : Prop :=
  forall observation, observation ∈ system.emits state event -> good observation

/-- What a step is known to emit decides whether it is acceptable. -/
theorem emits_iff_of_eq {good : Observation -> Prop} {state : State} {event : Event}
    {observations : List Observation} (emitted : system.emits state event = observations) :
    system.Emits good state event ↔
      forall observation, observation ∈ observations -> good observation := by
  rw [← emitted]
  exact Iff.rfl

@[simp] theorem run_cons (state : State) (event : Event) (rest : List Event) :
    system.run state (event :: rest) = system.run (system.next state event) rest := rfl

@[simp] theorem trace_nil (state : State) : system.trace state [] = [] := rfl

@[simp] theorem trace_cons (state : State) (event : Event) (rest : List Event) :
    system.trace state (event :: rest) =
      system.emits state event ++ system.trace (system.next state event) rest := rfl

/-- The last event of a run arrives in the state that the others leave. -/
theorem run_concat (state : State) (events : List Event) (event : Event) :
    system.run state (events ++ [event]) = system.next (system.run state events) event := by
  induction events generalizing state with
  | nil => rfl
  | cons first rest inductionHypothesis => exact inductionHypothesis (system.next state first)

/-- A run may be cut anywhere. -/
theorem run_append (state : State) (first second : List Event) :
    system.run state (first ++ second) = system.run (system.run state first) second := by
  induction first generalizing state with
  | nil => rfl
  | cons event rest inductionHypothesis => exact inductionHypothesis (system.next state event)

/-! ## Laws of a whole run -/

/-- A state law kept by every step holds after every run. -/
theorem run_invariant (invariant : State -> Prop)
    (preserved : forall state event, invariant state -> invariant (system.next state event))
    {state : State} (initial : invariant state) (events : List Event) :
    invariant (system.run state events) := by
  induction events generalizing state with
  | nil => exact initial
  | cons event rest inductionHypothesis => exact inductionHypothesis (preserved state event initial)

/-- A law relating the state to the events and the observations so far, kept
by every step, relates the final state to the run and its trace. -/
theorem run_history_invariant (invariant : List Event -> List Observation -> State -> Prop)
    (preserved : forall past history state event, invariant past history state ->
      invariant (past ++ [event]) (history ++ system.emits state event) (system.next state event))
    {past : List Event} {history : List Observation} {state : State}
    (initial : invariant past history state) (events : List Event) :
    invariant (past ++ events) (history ++ system.trace state events) (system.run state events) := by
  induction events generalizing past history state with
  | nil =>
      rw [trace_nil, List.append_nil, List.append_nil]
      exact initial
  | cons event rest inductionHypothesis =>
      rw [trace_cons, ← List.append_assoc, List.append_cons]
      exact inductionHypothesis (preserved past history state event initial)

/-- A law relating the state to everything observed so far, kept by every
step, relates the final state to the trace of the run. -/
theorem run_trace_invariant (invariant : List Observation -> State -> Prop)
    (preserved : forall history state event, invariant history state ->
      invariant (history ++ system.emits state event) (system.next state event))
    {history : List Observation} {state : State} (initial : invariant history state)
    (events : List Event) :
    invariant (history ++ system.trace state events) (system.run state events) :=
  @run_history_invariant _ _ _ system (fun _ => invariant) (fun _ => preserved) [] _ _ initial events

/-- Two step laws that agree wherever the state law holds agree along runs.
The state law need only survive steps at which the first law holds. -/
theorem along_iff_of_invariant (invariant : State -> Prop) {law law' : State -> Event -> Prop}
    (preserved : forall state event, invariant state -> law state event ->
      invariant (system.next state event))
    (agree : forall state event, invariant state -> (law state event ↔ law' state event))
    {state : State} (initial : invariant state) (events : List Event) :
    system.Along law state events ↔ system.Along law' state events := by
  induction events generalizing state with
  | nil => exact Iff.rfl
  | cons event rest inductionHypothesis =>
      constructor
      · rintro ⟨first, later⟩
        exact ⟨(agree state event initial).mp first,
          (inductionHypothesis (preserved state event initial first)).mp later⟩
      · rintro ⟨first, later⟩
        have held := (agree state event initial).mpr first
        exact ⟨held, (inductionHypothesis (preserved state event initial held)).mpr later⟩

/-- A property that a step leaves behind exactly if it was there and the step
law holds records the step law of the whole run. -/
theorem run_iff_along (invariant : State -> Prop) {recorded : State -> Prop}
    {law : State -> Event -> Prop}
    (preserved : forall state event, invariant state -> invariant (system.next state event))
    (records : forall state event, invariant state ->
      (recorded (system.next state event) ↔ recorded state ∧ law state event))
    {state : State} (initial : invariant state) (events : List Event) :
    recorded (system.run state events) ↔ recorded state ∧ system.Along law state events := by
  induction events generalizing state with
  | nil => exact (and_iff_left trivial).symm
  | cons event rest inductionHypothesis =>
      rw [run_cons, inductionHypothesis (preserved state event initial),
        records state event initial, and_assoc]
      exact Iff.rfl

/-- A judgement of state and trace that a step turns into another one, under
a flag that survives the step exactly if the step law holds: after a run the
flag says whether the law held at every step. -/
theorem run_flag_iff_along (judgement : Bool -> List Observation -> State -> Prop)
    {law : State -> Event -> Prop}
    (steps : forall flag history state event, judgement flag history state ->
      Exists fun flag' => judgement flag' (history ++ system.emits state event) (system.next state event) ∧
        (flag' = true ↔ flag = true ∧ law state event))
    {flag : Bool} {history : List Observation} {state : State}
    (initial : judgement flag history state) (events : List Event) :
    Exists fun flag' =>
      judgement flag' (history ++ system.trace state events) (system.run state events) ∧
        (flag' = true ↔ flag = true ∧ system.Along law state events) := by
  induction events generalizing flag history state with
  | nil =>
      refine ⟨flag, ?_, (and_iff_left trivial).symm⟩
      rwa [trace_nil, List.append_nil]
  | cons event rest inductionHypothesis =>
      rcases steps flag history state event initial with ⟨between, judged, here⟩
      rcases inductionHypothesis judged with ⟨flag', later, there⟩
      refine ⟨flag', ?_, ?_⟩
      · rwa [trace_cons, ← List.append_assoc]
      · rw [there, here, and_assoc]
        exact Iff.rfl

/-! ## Refinement -/

/-- An abstraction under which every step of one system is the step of
another on the same event, in the states that satisfy an invariant. -/
structure Refines {Abstract : Type u} (system : EventSystem State Event Observation)
    (specification : EventSystem Abstract Event Observation) (abstraction : State -> Abstract)
    (invariant : State -> Prop) : Prop where
  preserved : forall state event, invariant state -> invariant (system.next state event)
  commutes : forall state event, invariant state ->
    abstraction (system.next state event) = specification.next (abstraction state) event
  emits : forall state event, invariant state ->
    system.emits state event = specification.emits (abstraction state) event

variable {system} {Abstract : Type u} {specification : EventSystem Abstract Event Observation}
variable {abstraction : State -> Abstract} {invariant : State -> Prop}

/-- A run is, step by step, the run of the specification. -/
theorem Refines.run_eq (refines : Refines system specification abstraction invariant)
    {state : State} (initial : invariant state) (events : List Event) :
    abstraction (system.run state events) = specification.run (abstraction state) events := by
  induction events generalizing state with
  | nil => rfl
  | cons event rest inductionHypothesis =>
      rw [run_cons, run_cons, inductionHypothesis (refines.preserved state event initial),
        refines.commutes state event initial]

/-- An observer cannot tell the system from its specification. -/
theorem Refines.trace_eq (refines : Refines system specification abstraction invariant)
    {state : State} (initial : invariant state) (events : List Event) :
    system.trace state events = specification.trace (abstraction state) events := by
  induction events generalizing state with
  | nil => rfl
  | cons event rest inductionHypothesis =>
      rw [trace_cons, trace_cons, inductionHypothesis (refines.preserved state event initial),
        refines.commutes state event initial, refines.emits state event initial]

/-- If a step follows the specification exactly when a law holds, then a run
follows it up to every point exactly if the law holds at every step. -/
theorem prefixes_iff_along {law : State -> Event -> Prop}
    (preserved : forall state event, invariant state -> invariant (system.next state event))
    (commutes : forall state event, invariant state ->
      (abstraction (system.next state event) = specification.next (abstraction state) event ↔
        law state event))
    {state : State} (initial : invariant state) (events : List Event) :
    (forall earlier, earlier <+: events ->
      abstraction (system.run state earlier) = specification.run (abstraction state) earlier) ↔
      system.Along law state events := by
  induction events generalizing state with
  | nil =>
      refine iff_of_true ?_ trivial
      intro earlier isPrefix
      rw [List.prefix_nil.mp isPrefix]
      rfl
  | cons event rest inductionHypothesis =>
      have ofRest := inductionHypothesis (preserved state event initial)
      constructor
      · intro follows
        have first := follows [event] (List.prefix_append [event] rest)
        refine ⟨(commutes state event initial).mp first, ofRest.mp ?_⟩
        intro earlier isPrefix
        have later := follows (event :: earlier) (List.cons_prefix_cons.mpr ⟨rfl, isPrefix⟩)
        rw [run_cons, run_cons] at later
        rw [later]
        exact congrArg (fun start => specification.run start earlier) first.symm
      · rintro ⟨first, later⟩ earlier isPrefix
        cases earlier with
        | nil => rfl
        | cons head tail =>
            rcases List.cons_prefix_cons.mp isPrefix with ⟨rfl, inRest⟩
            rw [run_cons, run_cons, ofRest.mpr later tail inRest,
              (commutes state head initial).mpr first]

end EventSystem
end Library
