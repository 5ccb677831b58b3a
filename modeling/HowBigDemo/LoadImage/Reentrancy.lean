import HowBigDemo.LoadImage.TaskQueue

namespace HowBigDemo
namespace LoadImage

open Library
open TaskFact

universe u

/-!
# Tasks that submit tasks

A task may call `addTask:` while `Callback` runs it.  The running task is
still at the front of the queue then, so on a full queue `addTask:` drops it,
and `Callback` afterwards drops entry zero once more: a task that nobody ran.

The loop need not end when tasks keep submitting tasks, so it is looked at
after any number of passes.  `passes` cuts the loop there, and `callback`
returns what `passes` says.  Nothing gets lost exactly as long as the queue
has room for all that the running task submits.
-/

variable {Block : Type u}

/-- Whether the loop has passes left, has ended, or has raised. -/
inductive Status
  | running
  | returned
  | raised
  deriving DecidableEq

/-- The loop after some passes. -/
structure Progress (Block : Type u) where
  vc : LoadImageViewController Block
  facts : List (TaskFact Block)
  status : Status
  deriving DecidableEq

/-- The `while` loop of `Callback`, cut after the given number of passes. -/
def passes (invoke : Block -> Invocation Block) :
    Nat -> LoadImageViewController Block -> Progress Block
  | fuel, vc =>
    match vc.tasks with
    | [] => ⟨vc, [], .returned⟩
    | unit :: _ =>
      match fuel with
      | 0 => ⟨vc, [], .running⟩
      | fuel + 1 =>
        let added := addTasks vc (invoke unit).submissions
        match added.1.tasks with
        | [] => ⟨added.1, .executed unit :: added.2, .raised⟩
        | first :: remaining =>
          let vc := { added.1 with tasks := remaining }
          let facts := .executed unit :: added.2 ++ [.removed first]
          if (invoke unit).result then ⟨vc, facts, .returned⟩
          else
            let later := passes invoke fuel vc
            ⟨later.vc, facts ++ later.facts, later.status⟩

/-- What the cut loop returns if the cut is the limit of the fuel. -/
def Progress.outcome (progress : Progress Block) :
    Except Failure (LoadImageViewController Block × List (TaskFact Block)) :=
  match progress.status with
  | .running => .error .outOfFuel
  | .returned => .ok (progress.vc, progress.facts)
  | .raised => .error .rangeException

/-- The tasks that are settled: executed, or evicted while they waited.  The
running task stands at the front until something removes it, and its own
eviction is none of a waiting task. -/
def settled : Bool -> List (TaskFact Block) -> List Block
  | _, [] => []
  | _, .executed unit :: rest => unit :: settled true rest
  | true, .evicted _ :: rest => settled false rest
  | false, .evicted unit :: rest => unit :: settled false rest
  | _, .removed _ :: rest => settled false rest
  | runs, .submitted _ :: rest => settled runs rest
  | runs, .failed _ :: rest => settled runs rest

/-- The tasks that `Callback` removes after it ran a task. -/
def removals (facts : List (TaskFact Block)) : List Block :=
  facts.filterMap fun
    | .removed unit => some unit
    | _ => none

/-- After some passes, every task that was queued or submitted is settled or
still queued, in order, and `Callback` removed what it executed. -/
structure KeepsAccount (before : LoadImageViewController Block)
    (after : LoadImageViewController Block) (facts : List (TaskFact Block)) : Prop where
  conserved : settled false facts ++ after.tasks = before.tasks ++ submissions facts
  removedExecuted : removals facts = executions facts

/-- In each of the given number of passes, the queue has room for what the
running task submits. -/
def HasRoom (invoke : Block -> Invocation Block) (bound : Nat) : Nat -> List Block -> Prop
  | 0, _ => True
  | _ + 1, [] => True
  | fuel + 1, unit :: rest =>
      rest.length + 1 + (invoke unit).submissions.length ≤ bound ∧
        ((invoke unit).result = false ->
          HasRoom invoke bound fuel (rest ++ (invoke unit).submissions))

/-- The passes of the observer as the law of the queue wants them: no
removal from an empty queue, and no task goes missing, after the passes and
when `Callback` returns. -/
structure PassesKeepAccount (invoke : Block -> Invocation Block) (fuel : Nat)
    (vc : LoadImageViewController Block) : Prop where
  noRangeException : callback invoke fuel vc ≠ .error .rangeException
  afterPasses : KeepsAccount vc (passes invoke fuel vc).vc (passes invoke fuel vc).facts
  afterReturn : forall after facts, callback invoke fuel vc = .ok (after, facts) ->
    KeepsAccount vc after facts

/-! ## The cut loop and the loop -/

/-- The loop with fuel is the loop cut there. -/
theorem callbackLoop_eq_outcome (invoke : Block -> Invocation Block) (fuel : Nat)
    (vc : LoadImageViewController Block) :
    callbackLoop invoke fuel vc = (passes invoke fuel vc).outcome := by
  induction fuel generalizing vc with
  | zero =>
      rw [callbackLoop, passes]
      cases vc.tasks <;> rfl
  | succ fuel inductionHypothesis =>
      rw [callbackLoop, passes]
      cases vc.tasks with
      | nil => rfl
      | cons unit rest =>
          cases added : (addTasks vc (invoke unit).submissions).1.tasks with
          | nil =>
              simp only [added]
              rfl
          | cons first remaining =>
              simp only [added, inductionHypothesis]
              cases (invoke unit).result with
              | true => rfl
              | false =>
                  cases passes invoke fuel _ with
                  | mk later facts status => cases status <;> rfl

theorem callback_eq_outcome (invoke : Block -> Invocation Block) (fuel : Nat)
    (vc : LoadImageViewController Block) :
    callback invoke fuel vc = (passes invoke fuel vc).outcome := by
  unfold callback
  by_cases empty : vc.tasks.length = 0
  · rw [if_pos empty]
    unfold passes
    rw [List.length_eq_zero_iff.mp empty]
    rfl
  · rw [if_neg empty, callbackLoop_eq_outcome]

theorem Progress.outcome_ne_rangeException {progress : Progress Block}
    (notRaised : progress.status ≠ .raised) : progress.outcome ≠ .error .rangeException := by
  intro raises
  unfold Progress.outcome at raises
  cases status : progress.status with
  | running =>
      rw [status] at raises
      cases raises
  | returned =>
      rw [status] at raises
      cases raises
  | raised => exact notRaised status

theorem Progress.eq_of_outcome_ok {progress : Progress Block}
    {after : LoadImageViewController Block} {facts : List (TaskFact Block)}
    (returned : progress.outcome = .ok (after, facts)) :
    after = progress.vc ∧ facts = progress.facts := by
  unfold Progress.outcome at returned
  cases status : progress.status with
  | running =>
      rw [status] at returned
      cases returned
  | returned =>
      rw [status] at returned
      cases returned
      exact ⟨rfl, rfl⟩
  | raised =>
      rw [status] at returned
      cases returned

/-! ## The facts of a pass -/

/-- Facts as `addTask:` reports them. -/
def OnlyAdds (facts : List (TaskFact Block)) : Prop :=
  forall fact, fact ∈ facts ->
    Exists fun unit => fact = .submitted unit ∨ fact = .evicted unit

theorem addTask_facts (vc : LoadImageViewController Block) (unit : Block) :
    Exists fun dropped : List Block =>
      (addTask vc unit).2 = .submitted unit :: dropped.map .evicted := by
  by_cases long : vc.maxQueueLength < (vc.tasks ++ [unit]).length
  · exact ⟨(vc.tasks ++ [unit]).head?.toList, by simp only [addTask, if_pos long]⟩
  · exact ⟨[], by simp only [addTask, if_neg long, List.map_nil]⟩

theorem onlyAdds_addTask (vc : LoadImageViewController Block) (unit : Block) :
    OnlyAdds (addTask vc unit).2 := by
  intro fact listed
  rcases addTask_facts vc unit with ⟨dropped, facts⟩
  rw [facts] at listed
  rcases List.mem_cons.mp listed with same | evicted
  · exact ⟨unit, Or.inl same⟩
  · rcases List.mem_map.mp evicted with ⟨other, _, same⟩
    exact ⟨other, Or.inr same.symm⟩

theorem onlyAdds_addTasks (vc : LoadImageViewController Block) (units : List Block) :
    OnlyAdds (addTasks vc units).2 := by
  induction units generalizing vc with
  | nil =>
      intro fact listed
      cases listed
  | cons unit rest inductionHypothesis =>
      intro fact listed
      rcases List.mem_append.mp listed with now | later
      · exact onlyAdds_addTask vc unit fact now
      · exact inductionHypothesis _ fact later

theorem submissions_addTasks (vc : LoadImageViewController Block) (units : List Block) :
    submissions (addTasks vc units).2 = units := by
  induction units generalizing vc with
  | nil => rfl
  | cons unit rest inductionHypothesis =>
      rcases addTask_facts vc unit with ⟨dropped, facts⟩
      rw [addTasks, submissions_append, inductionHypothesis, facts, submissions_cons_submitted,
        submissions_evicted]
      rfl

/-- When a task is removed after some `addTask:` calls, all that was evicted
is settled, but for the running task if it still stood at the front. -/
theorem settled_adds {adds : List (TaskFact Block)} (onlyAdds : OnlyAdds adds) (first : Block)
    (later : List (TaskFact Block)) :
    settled false (adds ++ .removed first :: later) = evictions adds ++ settled false later ∧
      settled true (adds ++ .removed first :: later) =
        (evictions adds).tail ++ settled false later := by
  induction adds with
  | nil => exact ⟨rfl, rfl⟩
  | cons fact rest inductionHypothesis =>
      have atRest := inductionHypothesis fun other listed =>
        onlyAdds other (List.mem_cons_of_mem _ listed)
      rcases onlyAdds fact List.mem_cons_self with ⟨unit, rfl | rfl⟩
      · exact atRest
      · exact ⟨congrArg (List.cons unit) atRest.1, atRest.1⟩

theorem removals_append (first second : List (TaskFact Block)) :
    removals (first ++ second) = removals first ++ removals second :=
  List.filterMap_append

theorem executions_append (first second : List (TaskFact Block)) :
    executions (first ++ second) = executions first ++ executions second :=
  List.filterMap_append

/-- Where there is room, `addTask:` only appends. -/
theorem addTasks_of_room {vc : LoadImageViewController Block} {units : List Block}
    (room : vc.tasks.length + units.length ≤ vc.maxQueueLength) :
    addTasks vc units = ({ vc with tasks := vc.tasks ++ units }, units.map .submitted) := by
  induction units generalizing vc with
  | nil =>
      rw [List.append_nil]
      rfl
  | cons unit rest inductionHypothesis =>
      rw [List.length_cons] at room
      have short : ¬ vc.maxQueueLength < (vc.tasks ++ [unit]).length := by
        rw [List.length_append, List.length_singleton]
        omega
      have now : addTask vc unit = ({ vc with tasks := vc.tasks ++ [unit] }, [.submitted unit]) := by
        unfold addTask
        exact if_neg short
      have roomLater : (vc.tasks ++ [unit]).length + rest.length ≤ vc.maxQueueLength := by
        rw [List.length_append, List.length_singleton]
        omega
      have later : addTasks { vc with tasks := vc.tasks ++ [unit] } rest = _ :=
        inductionHypothesis roomLater
      rw [addTasks, now, later, List.append_assoc]
      rfl

theorem settled_submitted (runs : Bool) (units : List Block) (later : List (TaskFact Block)) :
    settled runs (units.map .submitted ++ later) = settled runs later := by
  induction units with
  | nil => rfl
  | cons unit rest inductionHypothesis =>
      cases runs <;> exact inductionHypothesis

theorem submissions_submitted (units : List Block) :
    submissions (units.map TaskFact.submitted) = units := by
  induction units with
  | nil => rfl
  | cons unit rest inductionHypothesis => exact congrArg (List.cons unit) inductionHypothesis

theorem removals_submitted (units : List Block) :
    removals (units.map TaskFact.submitted) = [] := by
  induction units with
  | nil => rfl
  | cons unit rest inductionHypothesis => exact inductionHypothesis

theorem executions_submitted (units : List Block) :
    executions (units.map TaskFact.submitted) = [] := by
  induction units with
  | nil => rfl
  | cons unit rest inductionHypothesis => exact inductionHypothesis

/-! ## Passes with room and passes without -/

/-- The progress of later passes, after a pass with the given facts. -/
def Progress.after (facts : List (TaskFact Block)) (later : Progress Block) : Progress Block :=
  ⟨later.vc, facts ++ later.facts, later.status⟩

/-- What follows a pass that leaves the queue as it is: nothing if the task
returned YES, and the remaining passes otherwise. -/
def laterPasses (invoke : Block -> Invocation Block) (fuel : Nat) (unit : Block)
    (left : LoadImageViewController Block) : Progress Block :=
  if (invoke unit).result then ⟨left, [], .returned⟩ else passes invoke fuel left

/-- A pass, given what its `addTask:` calls leave. -/
theorem passes_succ {invoke : Block -> Invocation Block} (fuel : Nat)
    {vc : LoadImageViewController Block} {unit first : Block} {rest remaining : List Block}
    (tasks : vc.tasks = unit :: rest)
    (added : (addTasks vc (invoke unit).submissions).1.tasks = first :: remaining) :
    passes invoke (fuel + 1) vc =
      (laterPasses invoke fuel unit
        { (addTasks vc (invoke unit).submissions).1 with tasks := remaining }).after
        (.executed unit :: (addTasks vc (invoke unit).submissions).2 ++ [.removed first]) := by
  rw [passes, tasks]
  simp only [added, laterPasses]
  cases (invoke unit).result with
  | true =>
      rw [if_pos rfl, if_pos rfl, Progress.after, List.append_nil]
  | false => rfl

/-- A pass with room runs the first task, removes it and appends what it
submitted. -/
theorem passes_of_room {invoke : Block -> Invocation Block} {bound : Nat} (fuel : Nat)
    {unit : Block} {rest : List Block}
    (room : rest.length + 1 + (invoke unit).submissions.length ≤ bound) :
    passes invoke (fuel + 1) ⟨unit :: rest, bound⟩ =
      (laterPasses invoke fuel unit ⟨rest ++ (invoke unit).submissions, bound⟩).after
        (.executed unit :: (invoke unit).submissions.map .submitted ++ [.removed unit]) := by
  have appended : addTasks ⟨unit :: rest, bound⟩ (invoke unit).submissions = _ :=
    addTasks_of_room room
  have added : (addTasks ⟨unit :: rest, bound⟩ (invoke unit).submissions).1.tasks =
      unit :: (rest ++ (invoke unit).submissions) := by
    rw [appended]
    rfl
  rw [passes_succ fuel rfl added, appended]

/-- A pass without room leaves a full queue short of one task. -/
theorem addTasks_of_no_room {vc : LoadImageViewController Block} {units : List Block}
    (fits : vc.tasks.length ≤ vc.maxQueueLength)
    (noRoom : vc.maxQueueLength < vc.tasks.length + units.length) (nonempty : vc.tasks ≠ []) :
    Exists fun first => Exists fun remaining =>
      (addTasks vc units).1.tasks = first :: remaining ∧
        (addTasks vc units).1.maxQueueLength = vc.maxQueueLength ∧
        remaining.length + 1 = vc.maxQueueLength ∧
        (evictions (addTasks vc units).2).length + vc.maxQueueLength =
          vc.tasks.length + units.length := by
  have after := addTasks_eq fits units
  have positive : 0 < vc.tasks.length := List.length_pos_of_ne_nil nonempty
  have kept : (addTasks vc units).1.tasks.length = vc.maxQueueLength := by
    rw [after.1, length_keepNewest, List.length_append]
    omega
  have lost : (evictions (addTasks vc units).2).length + vc.maxQueueLength =
      vc.tasks.length + units.length := by
    rw [after.2, discarded, List.length_take, List.length_append]
    omega
  have sameBound : (addTasks vc units).1.maxQueueLength = vc.maxQueueLength := by
    rw [after.1]
  cases tasks : (addTasks vc units).1.tasks with
  | nil =>
      rw [tasks, List.length_nil] at kept
      omega
  | cons first remaining =>
      rw [tasks, List.length_cons] at kept
      exact ⟨first, remaining, rfl, sameBound, kept, lost⟩

/-- After the facts, at least the given number of tasks are neither settled
nor queued. -/
def Loses (before after : LoadImageViewController Block) (facts : List (TaskFact Block))
    (count : Nat) : Prop :=
  (settled false facts).length + after.tasks.length + count ≤
    before.tasks.length + (submissions facts).length

/-- A pass with room neither loses nor gains a task. -/
theorem settled_of_room (unit : Block) (units : List Block) (later : List (TaskFact Block)) :
    settled false (.executed unit :: units.map .submitted ++ [.removed unit] ++ later) =
      unit :: settled false later := by
  rw [List.cons_append, List.cons_append, List.append_assoc]
  change unit :: settled true (units.map .submitted ++ (.removed unit :: later)) = _
  rw [settled_submitted]
  rfl

theorem submissions_of_room (unit : Block) (units : List Block) (later : List (TaskFact Block)) :
    submissions (.executed unit :: units.map .submitted ++ [.removed unit] ++ later) =
      units ++ submissions later := by
  rw [submissions_append, submissions_append]
  change submissions (units.map TaskFact.submitted) ++ [] ++ submissions later = _
  rw [submissions_submitted, List.append_nil]

theorem loses_of_room {bound : Nat} (unit : Block) (rest units : List Block)
    {after : LoadImageViewController Block} {later : List (TaskFact Block)}
    (laterLoses : Loses ⟨rest ++ units, bound⟩ after later 0) :
    Loses ⟨unit :: rest, bound⟩ after
      (.executed unit :: units.map .submitted ++ [.removed unit] ++ later) 0 := by
  unfold Loses at laterLoses ⊢
  rw [settled_of_room, submissions_of_room]
  simp only [List.length_append, List.length_cons] at laterLoses ⊢
  omega

/-- A pass without room loses a task, whatever follows. -/
theorem loses_of_no_room {vc : LoadImageViewController Block} {units : List Block}
    {unit first : Block} {remaining : List Block} {bound : Nat}
    (short : remaining.length + 1 = vc.maxQueueLength)
    (lost : (evictions (addTasks vc units).2).length + vc.maxQueueLength =
      vc.tasks.length + units.length)
    (noRoom : vc.maxQueueLength < vc.tasks.length + units.length)
    {after : LoadImageViewController Block} {later : List (TaskFact Block)}
    (laterLoses : Loses ⟨remaining, bound⟩ after later 0) :
    Loses vc after (.executed unit :: (addTasks vc units).2 ++ [.removed first] ++ later) 1 := by
  have settledHere : settled false
      (.executed unit :: (addTasks vc units).2 ++ [.removed first] ++ later) =
        unit :: ((evictions (addTasks vc units).2).tail ++ settled false later) := by
    rw [List.cons_append, List.cons_append, List.append_assoc]
    exact congrArg (List.cons unit) (settled_adds (onlyAdds_addTasks vc units) first later).2
  have submittedHere : submissions
      (.executed unit :: (addTasks vc units).2 ++ [.removed first] ++ later) =
        units ++ submissions later := by
    rw [submissions_append, submissions_append]
    change submissions (addTasks vc units).2 ++ [] ++ submissions later = _
    rw [submissions_addTasks, List.append_nil]
  unfold Loses at laterLoses ⊢
  rw [settledHere, submittedHere]
  simp only [List.length_append, List.length_cons, List.length_tail] at laterLoses ⊢
  omega

/-- A pass without room leaves the later passes a queue that fits, and loses a
task whatever they do. -/
theorem passes_of_no_room (invoke : Block -> Invocation Block) (fuel : Nat) {bound : Nat}
    {unit : Block} {rest : List Block} (fits : rest.length + 1 ≤ bound)
    (noRoom : ¬ rest.length + 1 + (invoke unit).submissions.length ≤ bound) :
    Exists fun remaining => Exists fun facts =>
      remaining.length ≤ bound ∧
        passes invoke (fuel + 1) ⟨unit :: rest, bound⟩ =
          (laterPasses invoke fuel unit ⟨remaining, bound⟩).after facts ∧
        forall after later, Loses ⟨remaining, bound⟩ after later 0 ->
          Loses ⟨unit :: rest, bound⟩ after (facts ++ later) 1 := by
  have noRoom := Nat.lt_of_not_le noRoom
  rcases @addTasks_of_no_room _ ⟨unit :: rest, bound⟩ (invoke unit).submissions fits noRoom
      (List.cons_ne_nil unit rest) with ⟨first, remaining, added, sameBound, short, lost⟩
  have pass := passes_succ fuel rfl added
  change _ = (laterPasses invoke fuel unit ⟨remaining,
    (addTasks ⟨unit :: rest, bound⟩ (invoke unit).submissions).1.maxQueueLength⟩).after _ at pass
  rw [sameBound] at pass
  refine ⟨remaining, _, Nat.le_of_succ_le (Nat.le_of_eq short), pass, ?_⟩
  intro after later laterLoses
  exact loses_of_no_room short lost noRoom laterLoses

/-- Nothing is lost before the first pass. -/
theorem loses_nothing (vc : LoadImageViewController Block) : Loses vc vc [] 0 :=
  Nat.le_of_eq (Nat.zero_add _)

theorem passes_zero (invoke : Block -> Invocation Block) (vc : LoadImageViewController Block) :
    Exists fun status => status ≠ .raised ∧ passes invoke 0 vc = ⟨vc, [], status⟩ := by
  rw [passes]
  cases vc.tasks with
  | nil => exact ⟨.returned, by decide, rfl⟩
  | cons unit rest => exact ⟨.running, by decide, rfl⟩

/-- The loop has not raised, and it has no more tasks than there were. -/
structure Sound (before : LoadImageViewController Block) (progress : Progress Block) : Prop where
  notRaised : progress.status ≠ .raised
  noGain : Loses before progress.vc progress.facts 0

theorem Sound.laterPasses {invoke : Block -> Invocation Block} {fuel : Nat}
    {left : LoadImageViewController Block} (sound : Sound left (passes invoke fuel left))
    (unit : Block) : Sound left (laterPasses invoke fuel unit left) := by
  unfold LoadImage.laterPasses
  cases (invoke unit).result with
  | true => exact ⟨fun impossible => (nomatch impossible), loses_nothing left⟩
  | false => exact sound

/-- Whatever the tasks submit, the passes never remove from an empty queue
and never settle or keep more tasks than there were. -/
theorem passes_sound (invoke : Block -> Invocation Block) (fuel : Nat)
    {vc : LoadImageViewController Block} (fits : vc.tasks.length ≤ vc.maxQueueLength) :
    Sound vc (passes invoke fuel vc) := by
  induction fuel generalizing vc with
  | zero =>
      rcases passes_zero invoke vc with ⟨status, notRaised, same⟩
      rw [same]
      exact ⟨notRaised, loses_nothing vc⟩
  | succ fuel inductionHypothesis =>
      rcases vc with ⟨tasks, bound⟩
      cases tasks with
      | nil => exact ⟨fun impossible => (nomatch impossible), loses_nothing ⟨[], bound⟩⟩
      | cons unit rest =>
          by_cases room : rest.length + 1 + (invoke unit).submissions.length ≤ bound
          · have leftFits : (rest ++ (invoke unit).submissions).length ≤ bound := by
              rw [List.length_append]
              omega
            have sound := Sound.laterPasses
              (@inductionHypothesis ⟨rest ++ (invoke unit).submissions, bound⟩ leftFits) unit
            rw [passes_of_room fuel room]
            exact ⟨sound.notRaised, loses_of_room unit rest _ sound.noGain⟩
          · rcases passes_of_no_room invoke fuel fits room with
              ⟨remaining, facts, leftFits, pass, loses⟩
            have sound := Sound.laterPasses (@inductionHypothesis ⟨remaining, bound⟩ leftFits) unit
            rw [pass]
            exact ⟨sound.notRaised, Nat.le_of_succ_le (loses _ _ sound.noGain)⟩

/-- An account in which no task goes missing loses none. -/
theorem KeepsAccount.not_loses {before after : LoadImageViewController Block}
    {facts : List (TaskFact Block)} (keeps : KeepsAccount before after facts) :
    ¬ Loses before after facts 1 := by
  have lengths := congrArg List.length keeps.conserved
  rw [List.length_append, List.length_append] at lengths
  unfold Loses
  omega

/-- A pass with room keeps the account exactly if what follows does. -/
theorem keepsAccount_of_room_iff {bound : Nat} (unit : Block) (rest units : List Block)
    (after : LoadImageViewController Block) (later : List (TaskFact Block)) :
    KeepsAccount ⟨unit :: rest, bound⟩ after
        (.executed unit :: units.map .submitted ++ [.removed unit] ++ later) ↔
      KeepsAccount ⟨rest ++ units, bound⟩ after later := by
  have removed : removals (.executed unit :: units.map .submitted ++ [.removed unit] ++ later) =
      unit :: removals later := by
    rw [removals_append, removals_append]
    change removals (units.map TaskFact.submitted) ++ [unit] ++ removals later = _
    rw [removals_submitted]
    rfl
  have executed : executions (.executed unit :: units.map .submitted ++ [.removed unit] ++ later) =
      unit :: executions later := by
    rw [executions_append, executions_append]
    change unit :: executions (units.map TaskFact.submitted) ++ [] ++ executions later = _
    rw [executions_submitted]
    rfl
  constructor
  · intro keeps
    have conserved := keeps.conserved
    have removedExecuted := keeps.removedExecuted
    rw [settled_of_room, submissions_of_room] at conserved
    rw [removed, executed] at removedExecuted
    refine ⟨?_, (List.cons.inj removedExecuted).2⟩
    exact (List.cons.inj conserved).2.trans (List.append_assoc rest units _).symm
  · intro keeps
    refine ⟨?_, ?_⟩
    · have conserved := keeps.conserved
      rw [List.append_assoc] at conserved
      rw [settled_of_room, submissions_of_room]
      exact congrArg (List.cons unit) conserved
    · rw [removed, executed, keeps.removedExecuted]

/-- After any number of passes no task is missing exactly if each of these
passes had room. -/
theorem keepsAccount_iff_hasRoom (invoke : Block -> Invocation Block) (fuel : Nat)
    {vc : LoadImageViewController Block} (fits : vc.tasks.length ≤ vc.maxQueueLength) :
    KeepsAccount vc (passes invoke fuel vc).vc (passes invoke fuel vc).facts ↔
      HasRoom invoke vc.maxQueueLength fuel vc.tasks := by
  have unchanged (left : LoadImageViewController Block) : KeepsAccount left left [] :=
    ⟨(List.append_nil left.tasks).symm, rfl⟩
  induction fuel generalizing vc with
  | zero =>
      rcases passes_zero invoke vc with ⟨status, _, same⟩
      rw [same]
      exact ⟨fun _ => trivial, fun _ => unchanged vc⟩
  | succ fuel inductionHypothesis =>
      rcases vc with ⟨tasks, bound⟩
      cases tasks with
      | nil => exact ⟨fun _ => trivial, fun _ => unchanged ⟨[], bound⟩⟩
      | cons unit rest =>
          by_cases room : rest.length + 1 + (invoke unit).submissions.length ≤ bound
          · have leftFits : (rest ++ (invoke unit).submissions).length ≤ bound := by
              rw [List.length_append]
              omega
            have later := @inductionHypothesis ⟨rest ++ (invoke unit).submissions, bound⟩ leftFits
            rw [passes_of_room fuel room]
            refine (keepsAccount_of_room_iff unit rest _ _ _).trans ?_
            rw [HasRoom, laterPasses]
            cases (invoke unit).result with
            | true =>
                refine ⟨fun _ => ⟨room, fun impossible => (nomatch impossible)⟩, fun _ => ?_⟩
                exact unchanged ⟨rest ++ (invoke unit).submissions, bound⟩
            | false =>
                refine later.trans ?_
                exact ⟨fun hasRoom => ⟨room, fun _ => hasRoom⟩, fun both => both.2 rfl⟩
          · rcases passes_of_no_room invoke fuel fits room with
              ⟨remaining, facts, leftFits, pass, loses⟩
            have sound := (@passes_sound _ invoke fuel ⟨remaining, bound⟩ leftFits).laterPasses unit
            constructor
            · intro keeps
              rw [pass] at keeps
              exact absurd (loses _ _ sound.noGain) keeps.not_loses
            · intro hasRoom
              exact absurd hasRoom.1 room

/-- For every queue within its bound, all that tasks may submit and any number
of passes, `Callback` loses no task and removes what it executed exactly if
the queue has room in each of these passes for what the running task
submits. -/
theorem passesKeepAccount_iff (invoke : Block -> Invocation Block) (fuel : Nat)
    (vc : LoadImageViewController Block) (fits : vc.tasks.length ≤ vc.maxQueueLength) :
    PassesKeepAccount invoke fuel vc ↔ HasRoom invoke vc.maxQueueLength fuel vc.tasks := by
  have keeps := keepsAccount_iff_hasRoom invoke fuel fits
  constructor
  · intro account
    exact keeps.mp account.afterPasses
  · intro hasRoom
    have afterPasses := keeps.mpr hasRoom
    refine ⟨?_, afterPasses, ?_⟩
    · rw [callback_eq_outcome]
      exact Progress.outcome_ne_rangeException (passes_sound invoke fuel fits).notRaised
    · intro after facts returned
      rw [callback_eq_outcome] at returned
      rcases Progress.eq_of_outcome_ok returned with ⟨rfl, rfl⟩
      exact afterPasses

/-- Task zero submits task eighteen while it runs; no task answers YES. -/
def submitsOnce (unit : Nat) : Invocation Nat :=
  ⟨if unit = 0 then [18] else [], false⟩

/-- A queue with room for the submission. -/
theorem passesKeepAccount_with_room :
    PassesKeepAccount submitsOnce 4 ⟨[0, 1, 2], 18⟩ := by
  refine (passesKeepAccount_iff submitsOnce 4 ⟨[0, 1, 2], 18⟩ (by decide)).mpr ?_
  refine ⟨by decide, fun _ => ⟨by decide, fun _ => ⟨by decide, fun _ => ⟨by decide, fun _ => ?_⟩⟩⟩⟩
  trivial

/-- On a full queue of eighteen tasks, the first one submits a task and the
second one is removed without having run. -/
theorem full_queue_loses_task :
    ¬ PassesKeepAccount submitsOnce 1 ⟨List.range 18, 18⟩ := by
  intro account
  have conserved := account.afterPasses.conserved
  have missing : settled false (passes submitsOnce 1 ⟨List.range 18, 18⟩).facts ++
      (passes submitsOnce 1 ⟨List.range 18, 18⟩).vc.tasks ≠
        List.range 18 ++ submissions (passes submitsOnce 1 ⟨List.range 18, 18⟩).facts := by
    decide +kernel
  exact missing conserved

end LoadImage
end HowBigDemo
