import Mathlib.Algebra.Ring.Int.Defs
import HowBigDemo.Library.EventSystem

namespace Library

universe u v

/-!
# Monitors with a condition variable

Threads share a state behind a mutex.  A thread that makes a request
registers it, waits until the state admits it and enters; a thread that
leaves may wake all that wait.  A woken thread checks again, and threads may
wake for no reason as well.  All that happens under the mutex is one step, so
a run is a list of such steps in any order of the threads.

The theorem is that no wakeup is lost: if nothing but leaving with a signal
can make the state admit a request, a thread is asleep only while the state
does not admit its request.
-/

/-- What a thread does at the monitor.  A waiting thread is awake if it will
check again without a further signal. -/
inductive Activity (Request : Type u)
  | outside
  | waiting (request : Request) (awake : Bool)
  | holding (request : Request)
  deriving DecidableEq

structure MonitorState (Shared : Type v) (Request : Type u) where
  shared : Shared
  threads : List (Activity Request)

/-- What each part of an operation does to the shared state. -/
structure Monitor (Shared : Type v) (Request : Type u) where
  register : Request -> Shared -> Shared
  admits : Request -> Shared -> Bool
  enter : Request -> Shared -> Shared
  tryEnter : Request -> Shared -> Shared
  leave : Request -> Shared -> Shared
  /-- Whether leaving signals, judged in the state it leaves behind. -/
  signals : Request -> Shared -> Bool

inductive MonitorEvent (Request : Type u)
  | start
  | request (thread : Nat) (request : Request)
  | wake (thread : Nat)
  | attempt (thread : Nat) (request : Request)
  | leave (thread : Nat)

/-- A thread that waits is woken. -/
def Activity.woken {Request : Type u} : Activity Request -> Activity Request
  | .waiting request _ => .waiting request true
  | activity => activity

namespace Monitor

variable {Shared : Type v} {Request : Type u} (monitor : Monitor Shared Request)

/-- A thread registers its request and is about to check. -/
def arrive (state : MonitorState Shared Request) (thread : Nat) (request : Request) :
    MonitorState Shared Request :=
  ⟨monitor.register request state.shared, state.threads.set thread (.waiting request true)⟩

/-- A waiting thread checks, and enters or falls asleep. -/
def check (state : MonitorState Shared Request) (thread : Nat) : MonitorState Shared Request :=
  match state.threads[thread]? with
  | some (.waiting request _) =>
    if monitor.admits request state.shared then
      ⟨monitor.enter request state.shared, state.threads.set thread (.holding request)⟩
    else { state with threads := state.threads.set thread (.waiting request false) }
  | _ => state

def depart (state : MonitorState Shared Request) (thread : Nat) (request : Request) :
    MonitorState Shared Request :=
  let shared := monitor.leave request state.shared
  let threads := state.threads.set thread .outside
  ⟨shared, if monitor.signals request shared then threads.map Activity.woken else threads⟩

/-- The steps of the threads, with the answers to attempts. -/
def system : EventSystem (MonitorState Shared Request) (MonitorEvent Request) (Nat × Bool) where
  step state
    | .start => ({ state with threads := state.threads ++ [.outside] }, [])
    | .request thread request =>
      match state.threads[thread]? with
      | some .outside => (monitor.check (monitor.arrive state thread request) thread, [])
      | _ => (state, [])
    | .wake thread => (monitor.check state thread, [])
    | .attempt thread request =>
      match state.threads[thread]? with
      | some .outside =>
        if monitor.admits request state.shared then
          (⟨monitor.tryEnter request state.shared, state.threads.set thread (.holding request)⟩,
            [(thread, true)])
        else (state, [(thread, false)])
      | _ => (state, [])
    | .leave thread =>
      match state.threads[thread]? with
      | some (.holding request) => (monitor.depart state thread request, [])
      | _ => (state, [])

/-- A law of the states that survives each part of each operation. -/
structure Keeps (valid : MonitorState Shared Request -> Prop) : Prop where
  start : forall state, valid state -> valid { state with threads := state.threads ++ [.outside] }
  arrive : forall state thread request, valid state -> state.threads[thread]? = some .outside ->
    valid (monitor.arrive state thread request)
  sleep : forall state thread request awake, valid state ->
    state.threads[thread]? = some (.waiting request awake) ->
    monitor.admits request state.shared = false ->
    valid { state with threads := state.threads.set thread (.waiting request false) }
  enter : forall state thread request awake, valid state ->
    state.threads[thread]? = some (.waiting request awake) ->
    monitor.admits request state.shared = true ->
    valid ⟨monitor.enter request state.shared, state.threads.set thread (.holding request)⟩
  tryEnter : forall state thread request, valid state -> state.threads[thread]? = some .outside ->
    monitor.admits request state.shared = true ->
    valid ⟨monitor.tryEnter request state.shared, state.threads.set thread (.holding request)⟩
  depart : forall state thread request, valid state ->
    state.threads[thread]? = some (.holding request) -> valid (monitor.depart state thread request)

variable {monitor}

theorem Keeps.check {valid : MonitorState Shared Request -> Prop} (keeps : monitor.Keeps valid)
    {state : MonitorState Shared Request} (holds : valid state) (thread : Nat) :
    valid (monitor.check state thread) := by
  unfold Monitor.check
  split
  · next request awake found =>
      split
      · next admitted => exact keeps.enter state thread request awake holds found admitted
      · next refused =>
          exact keeps.sleep state thread request awake holds found (Bool.eq_false_iff.mpr refused)
  · exact holds

/-- Such a law survives every step. -/
theorem Keeps.next {valid : MonitorState Shared Request -> Prop} (keeps : monitor.Keeps valid)
    (state : MonitorState Shared Request) (event : MonitorEvent Request) (holds : valid state) :
    valid (monitor.system.next state event) := by
  unfold EventSystem.next system
  cases event with
  | start => exact keeps.start state holds
  | wake thread => exact keeps.check holds thread
  | request thread request =>
      simp only
      split
      · next found => exact keeps.check (keeps.arrive state thread request holds found) thread
      · exact holds
  | attempt thread request =>
      simp only
      split
      · next found =>
          split
          · next admitted => exact keeps.tryEnter state thread request holds found admitted
          · exact holds
      · exact holds
  | leave thread =>
      simp only
      split
      · next request found => exact keeps.depart state thread request holds found
      · exact holds

/-- Nothing but leaving with a signal makes the state admit a request. -/
structure Signals (monitor : Monitor Shared Request) (valid : MonitorState Shared Request -> Prop) :
    Prop where
  keeps : monitor.Keeps valid
  register : forall (state : MonitorState Shared Request) request other, valid state ->
    monitor.admits other (monitor.register request state.shared) = true ->
    monitor.admits other state.shared = true
  enter : forall (state : MonitorState Shared Request) (thread : Nat) request awake other, valid state ->
    state.threads[thread]? = some (.waiting request awake) ->
    monitor.admits request state.shared = true ->
    monitor.admits other (monitor.enter request state.shared) = true ->
    monitor.admits other state.shared = true
  tryEnter : forall (state : MonitorState Shared Request) (thread : Nat) request other, valid state ->
    state.threads[thread]? = some .outside -> monitor.admits request state.shared = true ->
    monitor.admits other (monitor.tryEnter request state.shared) = true ->
    monitor.admits other state.shared = true
  depart : forall (state : MonitorState Shared Request) (thread : Nat) request other, valid state ->
    state.threads[thread]? = some (.holding request) ->
    monitor.signals request (monitor.leave request state.shared) = false ->
    monitor.admits other (monitor.leave request state.shared) = true ->
    monitor.admits other state.shared = true

/-- Sleeping threads are not admitted. -/
def SleepersBlocked (monitor : Monitor Shared Request) (state : MonitorState Shared Request) : Prop :=
  forall request, Activity.waiting request false ∈ state.threads ->
    monitor.admits request state.shared = false

/-- A change that admits nobody new, of a thread that does not fall asleep. -/
theorem SleepersBlocked.set {state : MonitorState Shared Request}
    (blocked : monitor.SleepersBlocked state) {shared : Shared} {thread : Nat}
    {activity : Activity Request}
    (closed : forall other, monitor.admits other shared = true ->
      monitor.admits other state.shared = true)
    (wakeful : forall request, activity ≠ .waiting request false) :
    monitor.SleepersBlocked ⟨shared, state.threads.set thread activity⟩ := by
  intro request asleep
  rcases List.mem_or_eq_of_mem_set asleep with old | isNew
  · have before := blocked request old
    cases admitted : monitor.admits request shared with
    | false => rfl
    | true =>
        rw [closed request admitted] at before
        cases before
  · exact absurd isNew.symm (wakeful request)

/-- If leaving signals where it must, sleeping threads stay blocked. -/
theorem Signals.keeps_sleepersBlocked {valid : MonitorState Shared Request -> Prop}
    (signals : monitor.Signals valid) :
    monitor.Keeps fun state => valid state ∧ monitor.SleepersBlocked state where
  start := by
    rintro state ⟨holds, blocked⟩
    refine ⟨signals.keeps.start state holds, ?_⟩
    intro request asleep
    rcases List.mem_append.mp asleep with old | isNew
    · exact blocked request old
    · cases List.mem_singleton.mp isNew
  arrive := by
    rintro state thread request ⟨holds, blocked⟩ found
    exact ⟨signals.keeps.arrive state thread request holds found,
      blocked.set (fun other => signals.register state request other holds) nofun⟩
  sleep := by
    rintro state thread request awake ⟨holds, blocked⟩ found refused
    refine ⟨signals.keeps.sleep state thread request awake holds found refused, ?_⟩
    intro other asleep
    rcases List.mem_or_eq_of_mem_set asleep with old | isNew
    · exact blocked other old
    · cases isNew
      exact refused
  enter := by
    rintro state thread request awake ⟨holds, blocked⟩ found admitted
    exact ⟨signals.keeps.enter state thread request awake holds found admitted,
      blocked.set (fun other => signals.enter state thread request awake other holds found admitted)
        nofun⟩
  tryEnter := by
    rintro state thread request ⟨holds, blocked⟩ found admitted
    exact ⟨signals.keeps.tryEnter state thread request holds found admitted,
      blocked.set (fun other => signals.tryEnter state thread request other holds found admitted)
        nofun⟩
  depart := by
    rintro state thread request ⟨holds, blocked⟩ found
    refine ⟨signals.keeps.depart state thread request holds found, ?_⟩
    unfold Monitor.depart
    cases signalled : monitor.signals request (monitor.leave request state.shared) with
    | true =>
        intro other asleep
        simp only [signalled, if_true] at asleep
        rcases List.mem_map.mp asleep with ⟨activity, _, woken⟩
        cases activity <;> cases woken
    | false =>
        simp only [signalled, Bool.false_eq_true, if_false]
        exact blocked.set
          (fun other => signals.depart state thread request other holds found signalled) nofun

/-- No wakeup is lost: after every run, whoever is asleep is not admitted. -/
theorem Signals.run {valid : MonitorState Shared Request -> Prop} (signals : monitor.Signals valid)
    {state : MonitorState Shared Request} (holds : valid state)
    (blocked : monitor.SleepersBlocked state) (events : List (MonitorEvent Request)) :
    valid (monitor.system.run state events) ∧
      monitor.SleepersBlocked (monitor.system.run state events) :=
  EventSystem.run_invariant monitor.system _ signals.keeps_sleepersBlocked.next ⟨holds, blocked⟩ events

/-- A waiting thread that the state admits is awake, and enters when it
checks. -/
theorem SleepersBlocked.wake {state : MonitorState Shared Request}
    (blocked : monitor.SleepersBlocked state) {thread : Nat} {request : Request} {awake : Bool}
    (found : state.threads[thread]? = some (.waiting request awake))
    (admitted : monitor.admits request state.shared = true) :
    awake = true ∧
      (monitor.system.next state (.wake thread)).threads[thread]? = some (.holding request) := by
  constructor
  · cases awake with
    | true => rfl
    | false =>
        rw [blocked request (List.mem_of_getElem? found)] at admitted
        cases admitted
  · change (monitor.check state thread).threads[thread]? = _
    unfold Monitor.check
    simp only [found, admitted, if_true]
    exact List.getElem?_set_self (List.getElem?_eq_some_iff.mp found).1

/-! ## What a step does to the threads -/

/-- A thread that checks gets in or falls asleep. -/
theorem threads_check {state : MonitorState Shared Request} {thread : Nat} {request : Request}
    {awake : Bool} (found : state.threads[thread]? = some (.waiting request awake)) :
    Exists fun activity => (activity = .holding request ∨ activity = .waiting request false) ∧
      (monitor.check state thread).threads = state.threads.set thread activity := by
  unfold check
  simp only [found]
  split
  · exact ⟨_, Or.inl rfl, rfl⟩
  · exact ⟨_, Or.inr rfl, rfl⟩

theorem threads_request {state : MonitorState Shared Request} {thread : Nat}
    (found : state.threads[thread]? = some .outside) (request : Request) :
    Exists fun activity => (activity = .holding request ∨ activity = .waiting request false) ∧
      (monitor.system.next state (.request thread request)).threads =
        state.threads.set thread activity := by
  have arrived : (monitor.arrive state thread request).threads[thread]? =
      some (.waiting request true) :=
    List.getElem?_set_self (List.getElem?_eq_some_iff.mp found).1
  rcases @threads_check _ _ monitor _ _ _ _ arrived with ⟨activity, either, checked⟩
  refine ⟨activity, either, ?_⟩
  unfold EventSystem.next system
  simp only [found]
  rw [checked]
  exact List.set_set _

/-- Leaving changes the others at most by waking them. -/
theorem threads_leave {state : MonitorState Shared Request} {thread : Nat} {request : Request}
    (found : state.threads[thread]? = some (.holding request)) :
    (monitor.system.next state (.leave thread)).threads.map Activity.woken =
      (state.threads.map Activity.woken).set thread .outside := by
  unfold EventSystem.next system
  simp only [found]
  unfold depart
  simp only
  split
  · have woken : (Activity.woken ∘ Activity.woken : Activity Request -> _) = Activity.woken := by
      funext activity
      cases activity <;> rfl
    rw [List.map_map, woken]
    exact List.map_set
  · exact List.map_set

/-- Changing one thread lets no thread hold that did not, but that one. -/
theorem holding_set {threads : List (Activity Request)} {thread other : Nat}
    {activity : Activity Request} {request : Request}
    (holds : (threads.set thread activity)[other]? = some (.holding request)) :
    threads[other]? = some (.holding request) ∨ activity = .holding request := by
  rw [List.getElem?_set] at holds
  split at holds
  · split at holds
    · exact Or.inr (Option.some.inj holds)
    · cases holds
  · exact Or.inl holds

theorem holding_check {state : MonitorState Shared Request} {thread other : Nat} {request : Request}
    (holds : (monitor.check state thread).threads[other]? = some (.holding request)) :
    state.threads[other]? = some (.holding request) ∨ monitor.admits request state.shared = true := by
  unfold check at holds
  split at holds
  · split at holds
    · next admitted =>
        rcases holding_set holds with held | isNew
        · exact Or.inl held
        · cases isNew
          exact Or.inr admitted
    · rcases holding_set holds with held | isNew
      · exact Or.inl held
      · cases isNew
  · exact Or.inl holds

theorem holding_depart {state : MonitorState Shared Request} {thread other : Nat}
    {left request : Request}
    (holds : (monitor.depart state thread left).threads[other]? = some (.holding request)) :
    state.threads[other]? = some (.holding request) := by
  have unwoken : (state.threads.set thread .outside)[other]? = some (.holding request) := by
    unfold depart at holds
    simp only at holds
    split at holds
    · rw [List.getElem?_map] at holds
      rcases Option.map_eq_some_iff.mp holds with ⟨activity, there, woken⟩
      cases activity <;> cases woken
      exact there
    · exact holds
  rcases holding_set unwoken with held | isNew
  · exact held
  · cases isNew

/-- A thread that holds after a step held before it or was admitted in it. -/
theorem holding_next {state : MonitorState Shared Request} {event : MonitorEvent Request} {other : Nat}
    {request : Request}
    (holds : (monitor.system.next state event).threads[other]? = some (.holding request)) :
    state.threads[other]? = some (.holding request) ∨ monitor.admits request state.shared = true ∨
      Exists fun registered =>
        monitor.admits request (monitor.register registered state.shared) = true := by
  unfold EventSystem.next system at holds
  cases event with
  | start =>
      change (state.threads ++ [Activity.outside])[other]? = _ at holds
      rw [List.getElem?_append] at holds
      split at holds
      · exact Or.inl holds
      · cases List.mem_singleton.mp (List.mem_of_getElem? holds)
  | wake thread => exact (holding_check holds).imp_right Or.inl
  | request thread registered =>
      simp only at holds
      split at holds
      · rcases holding_check holds with held | admitted
        · rcases holding_set held with before | isNew
          · exact Or.inl before
          · cases isNew
        · exact Or.inr (Or.inr ⟨registered, admitted⟩)
      · exact Or.inl holds
  | attempt thread tried =>
      simp only at holds
      split at holds
      · split at holds
        · next admitted =>
            rcases holding_set holds with held | isNew
            · exact Or.inl held
            · cases isNew
              exact Or.inr (Or.inl admitted)
        · exact Or.inl holds
      · exact Or.inl holds
  | leave thread =>
      simp only at holds
      split at holds
      · exact Or.inl (holding_depart holds)
      · exact Or.inl holds

end Monitor

/-! ## Counting threads -/

section Counting

variable {Item : Type u} {count : Item -> Bool}

/-- Replacing an item changes a count by the two items. -/
theorem countP_set_add {items : List Item} {index : Nat} {old new : Item}
    (found : items[index]? = some old) :
    (items.set index new).countP count + (if count old then 1 else 0) =
      items.countP count + (if count new then 1 else 0) := by
  induction items generalizing index with
  | nil => cases found
  | cons item rest inductionHypothesis =>
      cases index with
      | zero =>
          cases found
          rw [List.set_cons_zero, List.countP_cons, List.countP_cons]
          omega
      | succ index =>
          have later := inductionHypothesis found
          rw [List.set_cons_succ, List.countP_cons, List.countP_cons]
          omega

/-- Replacing an item changes a sum of weights by the two weights. -/
theorem sum_map_set_add {weight : Item -> Int} {items : List Item} {index : Nat} {old new : Item}
    (found : items[index]? = some old) :
    ((items.set index new).map weight).sum + weight old = (items.map weight).sum + weight new := by
  induction items generalizing index with
  | nil => cases found
  | cons item rest inductionHypothesis =>
      cases index with
      | zero =>
          cases found
          simp only [List.set_cons_zero, List.map_cons, List.sum_cons]
          omega
      | succ index =>
          have later := inductionHypothesis found
          simp only [List.set_cons_succ, List.map_cons, List.sum_cons]
          omega

/-- Two places that count are one, if only one counts. -/
theorem eq_of_countP_le_one {items : List Item} (single : items.countP count ≤ 1) {first second : Nat}
    {one other : Item} (atFirst : items[first]? = some one) (atSecond : items[second]? = some other)
    (countsOne : count one = true) (countsOther : count other = true) : first = second := by
  induction items generalizing first second with
  | nil => cases atFirst
  | cons item rest inductionHypothesis =>
      have noneLater : forall {index found}, rest[index]? = some found -> count found = true ->
          0 < rest.countP count := fun there counts =>
        List.countP_pos_iff.mpr ⟨_, List.mem_of_getElem? there, counts⟩
      rw [List.countP_cons] at single
      cases first with
      | zero =>
          cases second with
          | zero => rfl
          | succ second =>
              cases atFirst
              have more := noneLater atSecond countsOther
              rw [if_pos countsOne] at single
              omega
      | succ first =>
          cases second with
          | zero =>
              cases atSecond
              have more := noneLater atFirst countsOne
              rw [if_pos countsOther] at single
              omega
          | succ second =>
              exact congrArg Nat.succ (inductionHypothesis (by omega) atFirst atSecond)

end Counting

end Library
