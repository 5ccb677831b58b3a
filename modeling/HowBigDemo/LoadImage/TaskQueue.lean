import HowBigDemo.Library.EventSystem
import HowBigDemo.Library.BoundedQueue

namespace HowBigDemo
namespace LoadImage

open Library

universe u

/-!
# The run-loop task queue of `LoadImageViewController`

The table view does not draw its images when a cell is requested.  It hands
one block for each image to `addTask:`, and a run-loop observer takes blocks
from the front of the array before the run loop waits.  Both sides remove
entry zero of one array: `addTask:` when the array has grown past
`maxQueueLength`, the observer after each block it has run.

The definitions follow the source with blocks of an arbitrary type.  What a
block does when it is invoked is a parameter: the `addTask:` calls it makes
while it runs and the BOOL it returns.  Every function also reports the
facts about blocks that the laws below are about; the source keeps no such
record and no definition reads it.
-/

/-- What invoking a queued block does: the `addTask:` calls it makes while
it runs, in their order, and its result. -/
structure Invocation (Block : Type u) where
  submissions : List Block
  result : Bool

/-- How a run of the observer can fail to return.  Foundation raises a range
exception for `removeObjectAtIndex:` on an empty array; `outOfFuel` marks a
loop that has not ended within the given number of iterations. -/
inductive Failure
  | rangeException
  | outOfFuel
  deriving DecidableEq

/-- A fact about one block, or a failed observer call. -/
inductive TaskFact (Block : Type u)
  | submitted (block : Block)
  | evicted (block : Block)
  | executed (block : Block)
  | removed (block : Block)
  | failed (reason : Failure)
  deriving DecidableEq

/-- The two properties of the controller that the queue uses. -/
@[ext] structure LoadImageViewController (Block : Type u) where
  tasks : List Block
  maxQueueLength : Nat
  deriving DecidableEq

variable {Block : Type u}

/-- The queue as `viewDidLoad` leaves it. -/
def viewDidLoad : LoadImageViewController Block where
  tasks := []
  maxQueueLength := 18

/-- Append the block, then drop entry zero if the array is now too long. -/
def addTask (vc : LoadImageViewController Block) (unit : Block) :
    LoadImageViewController Block × List (TaskFact Block) :=
  let tasks := vc.tasks ++ [unit]
  if vc.maxQueueLength < tasks.length then
    ({ vc with tasks := tasks.tail }, .submitted unit :: tasks.head?.toList.map .evicted)
  else
    ({ vc with tasks := tasks }, [.submitted unit])

/-- The `addTask:` calls a block makes while it runs. -/
def addTasks (vc : LoadImageViewController Block) :
    List Block -> LoadImageViewController Block × List (TaskFact Block)
  | [] => (vc, [])
  | unit :: rest =>
      let added := addTask vc unit
      let later := addTasks added.1 rest
      (later.1, added.2 ++ later.2)

/-- The `while` loop of `Callback`, entered with `result == NO`.  The first
entry is read before it is invoked and entry zero is removed afterwards. -/
def callbackLoop (invoke : Block -> Invocation Block) :
    Nat -> LoadImageViewController Block ->
      Except Failure (LoadImageViewController Block × List (TaskFact Block))
  | fuel, vc =>
    match vc.tasks with
    | [] => .ok (vc, [])
    | unit :: _ =>
      match fuel with
      | 0 => .error .outOfFuel
      | fuel + 1 =>
        let added := addTasks vc (invoke unit).submissions
        match added.1.tasks with
        | [] => .error .rangeException
        | first :: remaining =>
          let vc := { added.1 with tasks := remaining }
          let facts := .executed unit :: added.2 ++ [.removed first]
          if (invoke unit).result then
            .ok (vc, facts)
          else
            match callbackLoop invoke fuel vc with
            | .ok (vc, later) => .ok (vc, facts ++ later)
            | .error reason => .error reason

/-- The observer's `Callback`. -/
def callback (invoke : Block -> Invocation Block) (fuel : Nat)
    (vc : LoadImageViewController Block) :
    Except Failure (LoadImageViewController Block × List (TaskFact Block)) :=
  if vc.tasks.length = 0 then .ok (vc, []) else callbackLoop invoke fuel vc

/-! ## What the observer and the producers do together -/

/-- A producer submits a block, or the run loop is about to wait. -/
inductive QueueEvent (Block : Type u)
  | addTask (unit : Block)
  | callback

/-- The block that an event submits. -/
def QueueEvent.unit : QueueEvent Block -> Option Block
  | .addTask unit => some unit
  | .callback => none

/-- Producers and observer in any order.  The observer gets one iteration
for each waiting block; `callback_plain` shows that more are never needed
by blocks that submit nothing. -/
def queueSystem (invoke : Block -> Invocation Block) :
    EventSystem (LoadImageViewController Block) (QueueEvent Block) (TaskFact Block) where
  step vc
    | .addTask unit => addTask vc unit
    | .callback =>
      match callback invoke vc.tasks.length vc with
      | .ok returned => returned
      | .error reason => (vc, [.failed reason])

/-- A block that only reports its result. -/
def plain (result : Block -> Bool) (unit : Block) : Invocation Block :=
  ⟨[], result unit⟩

/-- The facts of a run of blocks that submit nothing. -/
def ranFacts (ran : List Block) : List (TaskFact Block) :=
  ran.flatMap fun unit => [.executed unit, .removed unit]

namespace TaskFact

/-- The submission sequence. -/
def submissions (facts : List (TaskFact Block)) : List Block :=
  facts.filterMap fun
    | .submitted unit => some unit
    | _ => none

/-- The executed blocks in the order of their execution. -/
def executions (facts : List (TaskFact Block)) : List Block :=
  facts.filterMap fun
    | .executed unit => some unit
    | _ => none

/-- The blocks dropped by the overflow rule. -/
def evictions (facts : List (TaskFact Block)) : List Block :=
  facts.filterMap fun
    | .evicted unit => some unit
    | _ => none

/-- The blocks that are no longer waiting, executed or evicted, in the order
in which that happened to them. -/
def retirements (facts : List (TaskFact Block)) : List Block :=
  facts.filterMap fun
    | .executed unit => some unit
    | .evicted unit => some unit
    | _ => none

theorem submissions_append (first second : List (TaskFact Block)) :
    submissions (first ++ second) = submissions first ++ submissions second :=
  List.filterMap_append

theorem evictions_append (first second : List (TaskFact Block)) :
    evictions (first ++ second) = evictions first ++ evictions second :=
  List.filterMap_append

theorem retirements_append (first second : List (TaskFact Block)) :
    retirements (first ++ second) = retirements first ++ retirements second :=
  List.filterMap_append

theorem submissions_cons_submitted (unit : Block) (facts : List (TaskFact Block)) :
    submissions (.submitted unit :: facts) = unit :: submissions facts := rfl

theorem retirements_cons_submitted (unit : Block) (facts : List (TaskFact Block)) :
    retirements (.submitted unit :: facts) = retirements facts := rfl

/-- Every retirement is one execution or one eviction. -/
theorem retirements_perm (facts : List (TaskFact Block)) :
    (retirements facts).Perm (executions facts ++ evictions facts) := by
  induction facts with
  | nil => exact List.Perm.refl _
  | cons fact rest inductionHypothesis =>
      cases fact with
      | executed unit => exact List.Perm.cons unit inductionHypothesis
      | evicted unit =>
          exact (List.Perm.cons unit inductionHypothesis).trans List.perm_middle.symm
      | submitted unit => exact inductionHypothesis
      | removed unit => exact inductionHypothesis
      | failed reason => exact inductionHypothesis

/-- Executions keep the order of retirements. -/
theorem executions_sublist (facts : List (TaskFact Block)) :
    (executions facts).Sublist (retirements facts) := by
  induction facts with
  | nil => exact List.Sublist.slnil
  | cons fact rest inductionHypothesis =>
      cases fact with
      | executed unit => exact List.Sublist.cons_cons unit inductionHypothesis
      | evicted unit => exact List.Sublist.cons unit inductionHypothesis
      | submitted unit => exact inductionHypothesis
      | removed unit => exact inductionHypothesis
      | failed reason => exact inductionHypothesis

theorem submissions_evicted (units : List Block) :
    submissions (units.map TaskFact.evicted) = [] := by
  induction units with
  | nil => rfl
  | cons unit rest inductionHypothesis => exact inductionHypothesis

theorem retirements_evicted (units : List Block) :
    retirements (units.map TaskFact.evicted) = units := by
  induction units with
  | nil => rfl
  | cons unit rest inductionHypothesis => exact congrArg (List.cons unit) inductionHypothesis

theorem evictions_evicted (units : List Block) :
    evictions (units.map TaskFact.evicted) = units := by
  induction units with
  | nil => rfl
  | cons unit rest inductionHypothesis => exact congrArg (List.cons unit) inductionHypothesis

theorem submissions_ranFacts (ran : List Block) : submissions (ranFacts ran) = [] := by
  induction ran with
  | nil => rfl
  | cons unit rest inductionHypothesis => exact inductionHypothesis

theorem retirements_ranFacts (ran : List Block) : retirements (ranFacts ran) = ran := by
  induction ran with
  | nil => rfl
  | cons unit rest inductionHypothesis => exact congrArg (List.cons unit) inductionHypothesis

end TaskFact

open TaskFact

/-! ## One call at a time -/

/-- On a queue within its bound, `addTask:` keeps the newest blocks and
evicts the rest. -/
theorem addTask_eq {vc : LoadImageViewController Block}
    (fits : vc.tasks.length ≤ vc.maxQueueLength) (unit : Block) :
    addTask vc unit =
      ({ vc with tasks := keepNewest vc.maxQueueLength (vc.tasks ++ [unit]) },
        .submitted unit :: (discarded vc.maxQueueLength (vc.tasks ++ [unit])).map .evicted) := by
  have length : (vc.tasks ++ [unit]).length = vc.tasks.length + 1 := by simp
  by_cases full : vc.tasks.length = vc.maxQueueLength
  · have long : vc.maxQueueLength < (vc.tasks ++ [unit]).length := by omega
    have one : (vc.tasks ++ [unit]).length - vc.maxQueueLength = 1 := by omega
    simp only [addTask, if_pos long, keepNewest, discarded, one, List.drop_one, List.take_one]
  · have short : (vc.tasks ++ [unit]).length ≤ vc.maxQueueLength := by omega
    simp only [addTask, if_neg (Nat.not_lt.mpr short), keepNewest_of_length_le short,
      discarded_of_length_le short, List.map_nil]

theorem addTask_bounded {vc : LoadImageViewController Block}
    (fits : vc.tasks.length ≤ vc.maxQueueLength) (unit : Block) :
    (addTask vc unit).1.tasks.length ≤ vc.maxQueueLength := by
  rw [addTask_eq fits]
  exact length_keepNewest_le _ _

/-- The overflow rule drops nothing below the bound, and the oldest waiting
block at the bound. -/
theorem addTask_evictions {vc : LoadImageViewController Block}
    (fits : vc.tasks.length ≤ vc.maxQueueLength) (positive : 0 < vc.maxQueueLength)
    (unit : Block) :
    evictions (addTask vc unit).2 =
      if vc.tasks.length = vc.maxQueueLength then vc.tasks.head?.toList else [] := by
  rw [addTask_eq fits]
  change evictions ((discarded vc.maxQueueLength (vc.tasks ++ [unit])).map TaskFact.evicted) = _
  rw [evictions_evicted, discarded, List.length_append, List.length_singleton]
  by_cases full : vc.tasks.length = vc.maxQueueLength
  · rw [if_pos full, full, Nat.add_sub_cancel_left, List.take_one]
    cases tasks : vc.tasks with
    | nil =>
        rw [tasks, List.length_nil] at full
        omega
    | cons first rest => rfl
  · rw [if_neg full]
    have none : vc.tasks.length + 1 - vc.maxQueueLength = 0 := by omega
    rw [none, List.take_zero]

/-- A series of `addTask:` calls keeps the newest blocks of all it was
given, and evicts the others once each. -/
theorem addTasks_eq {vc : LoadImageViewController Block}
    (fits : vc.tasks.length ≤ vc.maxQueueLength) (units : List Block) :
    (addTasks vc units).1 =
        { vc with tasks := keepNewest vc.maxQueueLength (vc.tasks ++ units) } ∧
      evictions (addTasks vc units).2 = discarded vc.maxQueueLength (vc.tasks ++ units) := by
  induction units generalizing vc with
  | nil =>
      rw [List.append_nil, keepNewest_of_length_le fits, discarded_of_length_le fits]
      exact ⟨rfl, rfl⟩
  | cons unit rest inductionHypothesis =>
      have stillFits : (addTask vc unit).1.tasks.length ≤ (addTask vc unit).1.maxQueueLength := by
        rw [addTask_eq fits]
        exact length_keepNewest_le _ _
      have later := inductionHypothesis stillFits
      have joined : vc.tasks ++ unit :: rest = vc.tasks ++ [unit] ++ rest := by
        rw [List.append_assoc, List.singleton_append]
      have now : evictions (addTask vc unit).2 =
          discarded vc.maxQueueLength (vc.tasks ++ [unit]) := by
        rw [addTask_eq fits]
        exact evictions_evicted _
      rw [addTasks, evictions_append, later.1, later.2, now, joined]
      constructor
      · simp only [addTask_eq fits, keepNewest_append_keepNewest]
      · simp only [addTask_eq fits, discarded_append_discarded]

/-- With blocks that submit nothing, the loop runs and removes what `serve`
serves, however much more fuel it has than blocks are waiting. -/
theorem callbackLoop_plain (result : Block -> Bool) (maxQueueLength fuel : Nat)
    (tasks : List Block) (enough : tasks.length ≤ fuel) :
    callbackLoop (plain result) fuel ⟨tasks, maxQueueLength⟩ =
      .ok (⟨(serve result tasks).2, maxQueueLength⟩, ranFacts (serve result tasks).1) := by
  induction tasks generalizing fuel with
  | nil => cases fuel <;> rfl
  | cons unit rest inductionHypothesis =>
      cases fuel with
      | zero => exact absurd enough (Nat.not_succ_le_zero _)
      | succ fuel =>
          have tail := inductionHypothesis fuel (Nat.le_of_succ_le_succ enough)
          rw [callbackLoop]
          simp only [plain, addTasks]
          cases stopped : result unit with
          | true =>
              simp only [if_true, serve, stopped]
              rfl
          | false =>
              simp only [Bool.false_eq_true, if_false, serve, stopped, tail]
              rfl

theorem callback_plain (result : Block -> Bool) (fuel : Nat)
    (vc : LoadImageViewController Block) (enough : vc.tasks.length ≤ fuel) :
    callback (plain result) fuel vc =
      .ok ({ vc with tasks := (serve result vc.tasks).2 }, ranFacts (serve result vc.tasks).1) := by
  unfold callback
  by_cases empty : vc.tasks.length = 0
  · rw [if_pos empty]
    cases vc with
    | mk tasks maxQueueLength =>
        cases List.length_eq_zero_iff.mp empty
        rfl
  · rw [if_neg empty]
    exact callbackLoop_plain result vc.maxQueueLength fuel vc.tasks enough

/-! ## Every interleaving of submissions and observer calls -/

/-- What holds of the queue, of the events and of everything recorded so far. -/
structure Books (events : List (QueueEvent Block)) (facts : List (TaskFact Block))
    (vc : LoadImageViewController Block) : Prop where
  fits : vc.tasks.length ≤ vc.maxQueueLength
  submitted : submissions facts = events.filterMap QueueEvent.unit
  conserved : retirements facts ++ vc.tasks = submissions facts
  returned : forall reason, .failed reason ∉ facts

theorem books_empty (maxQueueLength : Nat) :
    Books [] [] (⟨[], maxQueueLength⟩ : LoadImageViewController Block) where
  fits := Nat.zero_le _
  submitted := rfl
  conserved := rfl
  returned := by
    intro reason member
    cases member

theorem Books.addTask {events : List (QueueEvent Block)} {facts : List (TaskFact Block)}
    {vc : LoadImageViewController Block} (books : Books events facts vc) (unit : Block) :
    Books (events ++ [.addTask unit]) (facts ++ (addTask vc unit).2) (addTask vc unit).1 := by
  rw [addTask_eq books.fits]
  refine ⟨length_keepNewest_le _ _, ?_, ?_, ?_⟩
  · rw [submissions_append, submissions_cons_submitted, submissions_evicted, books.submitted,
      List.filterMap_append]
    rfl
  · have kept := discarded_append_keepNewest vc.maxQueueLength (vc.tasks ++ [unit])
    rw [retirements_append, submissions_append, retirements_cons_submitted,
      submissions_cons_submitted, retirements_evicted, submissions_evicted, List.append_assoc, kept,
      ← List.append_assoc, books.conserved]
  · intro reason member
    rcases List.mem_append.mp member with earlier | now
    · exact books.returned reason earlier
    · rcases List.mem_cons.mp now with impossible | dropped
      · cases impossible
      · rcases List.mem_map.mp dropped with ⟨other, _, impossible⟩
        cases impossible

theorem Books.callback {events : List (QueueEvent Block)} {facts : List (TaskFact Block)}
    {vc : LoadImageViewController Block} (books : Books events facts vc) (result : Block -> Bool) :
    Books (events ++ [.callback]) (facts ++ ranFacts (serve result vc.tasks).1)
      { vc with tasks := (serve result vc.tasks).2 } := by
  have split := (serve_shortestStop result vc.tasks).split
  refine ⟨?_, ?_, ?_, ?_⟩
  · have length := congrArg List.length split
    rw [List.length_append] at length
    have fits := books.fits
    change (serve result vc.tasks).2.length ≤ vc.maxQueueLength
    omega
  · rw [submissions_append, submissions_ranFacts, List.append_nil, books.submitted,
      List.filterMap_append]
    exact (List.append_nil _).symm
  · rw [retirements_append, submissions_append, retirements_ranFacts, submissions_ranFacts,
      List.append_nil, List.append_assoc, split]
    exact books.conserved
  · intro reason member
    rcases List.mem_append.mp member with earlier | now
    · exact books.returned reason earlier
    · rcases List.mem_flatMap.mp now with ⟨unit, _, listed⟩
      rcases List.mem_cons.mp listed with impossible | listed
      · cases impossible
      · cases List.mem_singleton.mp listed

/-- The observer serves the queue. -/
theorem step_callback (result : Block -> Bool) (vc : LoadImageViewController Block) :
    (queueSystem (plain result)).step vc .callback =
      ({ vc with tasks := (serve result vc.tasks).2 }, ranFacts (serve result vc.tasks).1) := by
  have returned := callback_plain result vc.tasks.length vc (Nat.le_refl _)
  simp only [queueSystem, returned]

theorem Books.step {events : List (QueueEvent Block)} {facts : List (TaskFact Block)}
    {vc : LoadImageViewController Block} (books : Books events facts vc) (result : Block -> Bool)
    (event : QueueEvent Block) :
    Books (events ++ [event]) (facts ++ (queueSystem (plain result)).emits vc event)
      ((queueSystem (plain result)).next vc event) := by
  cases event with
  | addTask unit => exact books.addTask unit
  | callback =>
      unfold EventSystem.next EventSystem.emits
      rw [step_callback]
      exact books.callback result

/-- The law of the queue after any interleaving.  The submission sequence is
what the producers have handed over, and `conserved` is the whole account of
the run: the retired blocks, in the order of their retirement, followed by
the waiting ones are the submission sequence.  The other fields read it off
and say what the next event does. -/
structure QueueLaw (maxQueueLength : Nat) (result : Block -> Bool)
    (events : List (QueueEvent Block)) (vc : LoadImageViewController Block)
    (facts : List (TaskFact Block)) : Prop where
  submitted : submissions facts = events.filterMap QueueEvent.unit
  conserved : retirements facts ++ vc.tasks = submissions facts
  suffix : vc.tasks <:+ submissions facts
  partition : (submissions facts).Perm (executions facts ++ evictions facts ++ vc.tasks)
  executed_in_order : (executions facts).Sublist (submissions facts)
  returned : forall reason, .failed reason ∉ facts
  bounded : forall unit,
    ((queueSystem (plain result)).next vc (.addTask unit)).tasks.length ≤ maxQueueLength
  evicts : forall unit, evictions ((queueSystem (plain result)).emits vc (.addTask unit)) =
    if vc.tasks.length = maxQueueLength then vc.tasks.head?.toList else []
  runs : vc.tasks ≠ [] -> Exists fun ran => Exists fun left =>
    ShortestStop result vc.tasks ran left ∧ ran ≠ [] ∧
      (queueSystem (plain result)).step vc .callback = (⟨left, maxQueueLength⟩, ranFacts ran) ∧
      forall fuel, vc.tasks.length ≤ fuel ->
        callback (plain result) fuel vc = .ok (⟨left, maxQueueLength⟩, ranFacts ran)
  rests : vc.tasks = [] -> (queueSystem (plain result)).step vc .callback = (vc, [])

theorem Books.queueLaw {events : List (QueueEvent Block)} {facts : List (TaskFact Block)}
    {vc : LoadImageViewController Block} (books : Books events facts vc) (result : Block -> Bool)
    (positive : 0 < vc.maxQueueLength) : QueueLaw vc.maxQueueLength result events vc facts where
  submitted := books.submitted
  conserved := books.conserved
  suffix := ⟨retirements facts, books.conserved⟩
  partition := by
    rw [← books.conserved]
    exact (retirements_perm facts).append_right vc.tasks
  executed_in_order := by
    rw [← books.conserved]
    exact (executions_sublist facts).trans (List.sublist_append_left _ _)
  returned := books.returned
  bounded := addTask_bounded books.fits
  evicts := addTask_evictions books.fits positive
  runs := by
    intro nonempty
    exact ⟨_, _, serve_shortestStop result vc.tasks, serve_ne_nil result nonempty,
      step_callback result vc, fun fuel enough => callback_plain result fuel vc enough⟩
  rests := by
    intro empty
    rcases vc with ⟨tasks, bound⟩
    cases empty
    exact step_callback result ⟨[], bound⟩

theorem run_maxQueueLength (result : Block -> Bool) (vc : LoadImageViewController Block)
    (events : List (QueueEvent Block)) :
    ((queueSystem (plain result)).run vc events).maxQueueLength = vc.maxQueueLength := by
  apply (queueSystem (plain result)).run_invariant
    (fun reached => reached.maxQueueLength = vc.maxQueueLength)
  · intro reached event same
    cases event with
    | addTask unit =>
        rw [← same]
        simp only [EventSystem.next, queueSystem, addTask]
        split <;> rfl
    | callback =>
        unfold EventSystem.next
        rw [step_callback]
        exact same
  · rfl

/-- Whatever the producers submit, whatever the blocks answer and whenever
the observer fires, the queue keeps its law, for every positive bound. -/
theorem queue_conserves_tasks (maxQueueLength : Nat) (positive : 0 < maxQueueLength)
    (result : Block -> Bool) (events : List (QueueEvent Block)) :
    QueueLaw maxQueueLength result events
      ((queueSystem (plain result)).run ⟨[], maxQueueLength⟩ events)
      ((queueSystem (plain result)).trace ⟨[], maxQueueLength⟩ events) := by
  have books := (queueSystem (plain result)).run_history_invariant Books
    (fun _ _ _ event books => books.step result event) (books_empty maxQueueLength) events
  have bound := run_maxQueueLength result ⟨[], maxQueueLength⟩ events
  have law := books.queueLaw result (by rw [bound]; exact positive)
  rw [bound] at law
  exact law

/-- A queue of bound two receives three blocks and the observer fires once. -/
theorem queue_conserves_tasks_three :
    0 < 2 ∧ QueueLaw 2 (fun unit : Nat => unit == 3)
      [.addTask 1, .addTask 2, .addTask 3, .callback]
      ((queueSystem (plain fun unit : Nat => unit == 3)).run ⟨[], 2⟩
        [.addTask 1, .addTask 2, .addTask 3, .callback])
      ((queueSystem (plain fun unit : Nat => unit == 3)).trace ⟨[], 2⟩
        [.addTask 1, .addTask 2, .addTask 3, .callback]) :=
  ⟨by decide, queue_conserves_tasks 2 (by decide) _ _⟩

end LoadImage
end HowBigDemo
