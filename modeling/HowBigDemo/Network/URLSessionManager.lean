import Mathlib.Logic.Function.Basic
import HowBigDemo.Library.EventSystem
import HowBigDemo.Network.ResponseValidation

namespace HowBigDemo
namespace Network
namespace AFNetworking

open Library

/-!
# Requests in flight

One session manager serves all requests of `LumiRequest`.  It keeps a
delegate for each task in a dictionary, collects data there as it arrives,
and hands a finished task over to a processing queue that works
concurrently, and from there to the main queue.  Callers create tasks in two
steps, and the manager, after its creation, once asks the session for the
tasks there are and gives each of them a new delegate without a handler.

All of this happens in any order.  The theorems say that the requests do not
disturb each other: what an observer sees of a task is a call of its own
handler with its own data followed by a notification, and the handler is
called exactly if its delegate is still there at the end of the task.
-/

/-! ## The session and the manager -/

section Manager

variable (Handler : Type)

/-- A task as the session and its caller know it: the handler it was created
for, whether the caller has added its delegate, whether it runs, the data
delivered, and the response and the error of its completion. -/
structure NSURLSessionTask where
  completionHandler : Handler
  isRegistered : Bool
  isRunning : Bool
  received : List NSData
  completion : Option (Option NSHTTPURLResponse × Option NSError)

structure AFURLSessionManagerTaskDelegate where
  mutableData : Option NSData
  completionHandler : Option Handler

/-- A block on the processing queue, with what it captures. -/
structure ProcessingBlock where
  task : Nat
  completionHandler : Option Handler
  response : Option NSHTTPURLResponse
  data : Option NSData

inductive MainBlock
  | completion (task : Nat) (completionHandler : Option Handler)
      (result : Option JSONObject × Option NSError)
  | notification (task : Nat)

/-- What an observer sees: calls of handlers and
`AFNetworkingTaskDidCompleteNotification`. -/
inductive TaskObservation
  | called (task : Nat) (completionHandler : Handler) (result : Option JSONObject × Option NSError)
  | posted (task : Nat)

structure AFURLSessionManager where
  tasks : Nat -> Option (NSURLSessionTask Handler)
  nextIdentifier : Nat
  mutableTaskDelegatesKeyedByTaskIdentifier : Nat -> Option (AFURLSessionManagerTaskDelegate Handler)
  processingQueue : List (ProcessingBlock Handler)
  mainQueue : List (MainBlock Handler)

/-- The two steps of `dataTaskWithRequest:`, what the session does, and the
blocks that the queues run. -/
inductive SessionEvent
  | dataTaskWithRequest (completionHandler : Handler)
  | addDelegateForDataTask (task : Nat)
  | resume (task : Nat)
  | getTasks (tasks : List Nat)
  | didReceiveData (task : Nat) (data : NSData)
  | didCompleteWithError (task : Nat) (response : Option NSHTTPURLResponse) (error : Option NSError)
  | process (index : Nat)
  | runMainQueue

end Manager

variable {Handler : Type}

@[simp] def MainBlock.task : MainBlock Handler -> Nat
  | .completion task _ _ => task
  | .notification task => task

def TaskObservation.task : TaskObservation Handler -> Nat
  | .called task _ _ => task
  | .posted task => task

namespace AFURLSessionManager

/-- `initWithSessionConfiguration:`, before the session answers. -/
def initial : AFURLSessionManager Handler :=
  ⟨fun _ => none, 1, fun _ => none, [], []⟩

variable (manager : AFURLSessionManager Handler)

def delegateForTask (task : Nat) : Option (AFURLSessionManagerTaskDelegate Handler) :=
  manager.mutableTaskDelegatesKeyedByTaskIdentifier task

def setDelegate (delegate : AFURLSessionManagerTaskDelegate Handler) (task : Nat) :
    AFURLSessionManager Handler :=
  { manager with
    mutableTaskDelegatesKeyedByTaskIdentifier :=
      Function.update manager.mutableTaskDelegatesKeyedByTaskIdentifier task (some delegate) }

def removeDelegateForTask (task : Nat) : AFURLSessionManager Handler :=
  { manager with
    mutableTaskDelegatesKeyedByTaskIdentifier :=
      Function.update manager.mutableTaskDelegatesKeyedByTaskIdentifier task none }

/-- `addDelegateForDataTask:uploadProgress:downloadProgress:completionHandler:`. -/
def addDelegateForDataTask (task : Nat) (completionHandler : Option Handler) :
    AFURLSessionManager Handler :=
  manager.setDelegate ⟨some [], completionHandler⟩ task

def setTask (task : Nat) (record : NSURLSessionTask Handler) : AFURLSessionManager Handler :=
  { manager with tasks := Function.update manager.tasks task (some record) }

/-- The first step of `dataTaskWithRequest:`, in the session. -/
def dataTaskWithRequest (completionHandler : Handler) : AFURLSessionManager Handler :=
  { manager.setTask manager.nextIdentifier ⟨completionHandler, false, false, [], none⟩ with
    nextIdentifier := manager.nextIdentifier + 1 }

/-- The second step, which a caller makes once. -/
def registerTask (task : Nat) : AFURLSessionManager Handler :=
  match manager.tasks task with
  | none => manager
  | some record =>
    if record.isRegistered then manager
    else
      (manager.setTask task { record with isRegistered := true }).addDelegateForDataTask task
        (some record.completionHandler)

/-- A caller can resume the task that it has got. -/
def resume (task : Nat) : AFURLSessionManager Handler :=
  match manager.tasks task with
  | none => manager
  | some record =>
    if record.isRegistered && record.completion.isNone then
      manager.setTask task { record with isRunning := true }
    else manager

/-- The completion handler of `getTasksWithCompletionHandler:`. -/
def addDelegates (tasks : List Nat) : AFURLSessionManager Handler :=
  tasks.foldl
    (fun manager task =>
      if (manager.tasks task).isSome then manager.addDelegateForDataTask task none else manager)
    manager

/-- `URLSession:dataTask:didReceiveData:`, for a task that runs. -/
def didReceiveData (task : Nat) (data : NSData) : AFURLSessionManager Handler :=
  match manager.tasks task with
  | none => manager
  | some record =>
    if record.isRunning && record.completion.isNone then
      let manager := manager.setTask task { record with received := record.received ++ [data] }
      match manager.delegateForTask task with
      | none => manager
      | some delegate =>
        manager.setDelegate { delegate with mutableData := delegate.mutableData.map (· ++ data) } task
    else manager

/-- `didCompleteWithError:` of a delegate. -/
def enqueueCompletion (delegate : AFURLSessionManagerTaskDelegate Handler) (task : Nat)
    (response : Option NSHTTPURLResponse) (error : Option NSError) : AFURLSessionManager Handler :=
  match error with
  | some error =>
    { manager with
      mainQueue := manager.mainQueue ++
        [.completion task delegate.completionHandler (none, some error)] }
  | none =>
    { manager with
      processingQueue := manager.processingQueue ++
        [⟨task, delegate.completionHandler, response, delegate.mutableData⟩] }

/-- `URLSession:task:didCompleteWithError:`, once for each task. -/
def didCompleteWithError (task : Nat) (response : Option NSHTTPURLResponse)
    (error : Option NSError) : AFURLSessionManager Handler :=
  match manager.tasks task with
  | none => manager
  | some record =>
    if record.completion.isNone then
      let manager := manager.setTask task { record with completion := some (response, error) }
      match manager.delegateForTask task with
      | none => manager
      | some delegate =>
        (manager.enqueueCompletion delegate task response error).removeDelegateForTask task
    else manager

/-- A block of the concurrent processing queue, any of those in it. -/
def process (serializer : AFHTTPResponseSerializer) (serialization : JSONSerialization)
    (index : Nat) : AFURLSessionManager Handler :=
  match manager.processingQueue[index]? with
  | none => manager
  | some block =>
    { manager with
      processingQueue := manager.processingQueue.eraseIdx index
      mainQueue := manager.mainQueue ++
        [.completion block.task block.completionHandler
          (serializer.responseObjectForResponse serialization block.response block.data)] }

/-- The first block of the main queue. -/
def runMainQueue : AFURLSessionManager Handler × List (TaskObservation Handler) :=
  match manager.mainQueue with
  | [] => (manager, [])
  | .completion task completionHandler result :: rest =>
    ({ manager with mainQueue := rest ++ [.notification task] },
      completionHandler.toList.map fun handler => .called task handler result)
  | .notification task :: rest => ({ manager with mainQueue := rest }, [.posted task])

/-- The manager with its session and its queues. -/
def system (serializer : AFHTTPResponseSerializer) (serialization : JSONSerialization) :
    EventSystem (AFURLSessionManager Handler) (SessionEvent Handler) (TaskObservation Handler) where
  step manager
    | .dataTaskWithRequest completionHandler => (manager.dataTaskWithRequest completionHandler, [])
    | .addDelegateForDataTask task => (manager.registerTask task, [])
    | .resume task => (manager.resume task, [])
    | .getTasks tasks => (manager.addDelegates tasks, [])
    | .didReceiveData task data => (manager.didReceiveData task data, [])
    | .didCompleteWithError task response error =>
      (manager.didCompleteWithError task response error, [])
    | .process index => (manager.process serializer serialization index, [])
    | .runMainQueue => manager.runMainQueue

end AFURLSessionManager

/-! ## One task among the others -/

/-- What the manager and its queues hold of one task. -/
structure TaskView (Handler : Type) where
  record : Option (NSURLSessionTask Handler)
  delegate : Option (AFURLSessionManagerTaskDelegate Handler)
  processing : List (ProcessingBlock Handler)
  main : List (MainBlock Handler)

/-- What has been observed of one task. -/
def told (task : Nat) (history : List (TaskObservation Handler)) : List (TaskObservation Handler) :=
  history.filter fun observation => observation.task == task

namespace AFURLSessionManager

variable (manager : AFURLSessionManager Handler)

def view (task : Nat) : TaskView Handler where
  record := manager.tasks task
  delegate := manager.mutableTaskDelegatesKeyedByTaskIdentifier task
  processing := manager.processingQueue.filter fun block => block.task == task
  main := manager.mainQueue.filter fun block => block.task == task

theorem view_setTask (task : Nat) (record : NSURLSessionTask Handler) :
    (manager.setTask task record).view task = { manager.view task with record := some record } := by
  unfold setTask view
  simp only [Function.update_self]

theorem view_setTask_of_ne {task other : Nat} (different : task ≠ other)
    (record : NSURLSessionTask Handler) :
    (manager.setTask other record).view task = manager.view task := by
  unfold setTask view
  simp only [Function.update_of_ne different]

theorem view_setDelegate (task : Nat) (delegate : AFURLSessionManagerTaskDelegate Handler) :
    (manager.setDelegate delegate task).view task =
      { manager.view task with delegate := some delegate } := by
  unfold setDelegate view
  simp only [Function.update_self]

theorem view_setDelegate_of_ne {task other : Nat} (different : task ≠ other)
    (delegate : AFURLSessionManagerTaskDelegate Handler) :
    (manager.setDelegate delegate other).view task = manager.view task := by
  unfold setDelegate view
  simp only [Function.update_of_ne different]

theorem view_removeDelegate (task : Nat) :
    (manager.removeDelegateForTask task).view task = { manager.view task with delegate := none } := by
  unfold removeDelegateForTask view
  simp only [Function.update_self]

theorem view_removeDelegate_of_ne {task other : Nat} (different : task ≠ other) :
    (manager.removeDelegateForTask other).view task = manager.view task := by
  unfold removeDelegateForTask view
  simp only [Function.update_of_ne different]

theorem view_enqueueCompletion_of_ne {task other : Nat} (different : task ≠ other)
    (delegate : AFURLSessionManagerTaskDelegate Handler) (response : Option NSHTTPURLResponse)
    (error : Option NSError) :
    (manager.enqueueCompletion delegate other response error).view task = manager.view task := by
  have absent : (other == task) = false := beq_false_of_ne different.symm
  unfold enqueueCompletion view
  cases error with
  | none => simp [List.filter_append, absent]
  | some error => simp [List.filter_append, absent]

/-- A task is not touched by what happens to another. -/
theorem view_of_ne {task other : Nat} (different : task ≠ other) :
    (manager.registerTask other).view task = manager.view task ∧
      (manager.resume other).view task = manager.view task ∧
        (forall data, (manager.didReceiveData other data).view task = manager.view task) ∧
          forall response error,
            (manager.didCompleteWithError other response error).view task = manager.view task := by
  refine ⟨?_, ?_, ?_, ?_⟩
  · unfold registerTask
    split
    · rfl
    · split
      · rfl
      · rw [addDelegateForDataTask, view_setDelegate_of_ne _ different, view_setTask_of_ne _ different]
  · unfold resume
    split
    · rfl
    · split
      · rw [view_setTask_of_ne _ different]
      · rfl
  · intro data
    unfold didReceiveData
    split
    · rfl
    · split
      · simp only
        split
        · rw [view_setTask_of_ne _ different]
        · rw [view_setDelegate_of_ne _ different, view_setTask_of_ne _ different]
      · rfl
  · intro response error
    unfold didCompleteWithError
    split
    · rfl
    · split
      · simp only
        split
        · rw [view_setTask_of_ne _ different]
        · rw [view_removeDelegate_of_ne _ different, view_enqueueCompletion_of_ne _ different,
            view_setTask_of_ne _ different]
      · rfl

/-- The enumeration replaces the delegate of each task that it lists. -/
theorem view_addDelegates (tasks : List Nat) (task : Nat) :
    (manager.addDelegates tasks).view task =
      if task ∈ tasks ∧ (manager.tasks task).isSome then
        { manager.view task with delegate := some ⟨some [], none⟩ }
      else manager.view task := by
  unfold addDelegates
  induction tasks generalizing manager with
  | nil => simp
  | cons other rest inductionHypothesis =>
      rw [List.foldl_cons, inductionHypothesis]
      by_cases isThere : (manager.tasks other).isSome = true
      · rw [if_pos isThere]
        have tasks : (manager.addDelegateForDataTask other none).tasks = manager.tasks := rfl
        rw [tasks]
        by_cases same : task = other
        · subst same
          rw [addDelegateForDataTask, view_setDelegate]
          simp [isThere]
        · rw [addDelegateForDataTask, view_setDelegate_of_ne _ same]
          simp [same]
      · rw [if_neg isThere]
        by_cases same : task = other
        · subst same
          simp [isThere]
        · simp [same]

end AFURLSessionManager

/-! ## Stages of a task -/

section Stages

variable (serializer : AFHTTPResponseSerializer) (serialization : JSONSerialization)

/-- What the handler of a completed task should be called with. -/
def outcome (record : NSURLSessionTask Handler) : Option JSONObject × Option NSError :=
  match record.completion with
  | none => (none, none)
  | some (_, some error) => (none, some error)
  | some (response, none) =>
    serializer.responseObjectForResponse serialization response (some record.received.flatten)

/-- The handler of a delegate that is the one of its caller, or of one that
is not. -/
def handlerOf (heard : Bool) (completionHandler : Handler) : Option Handler :=
  if heard then some completionHandler else none

/-- The calls that a completed task leads to. -/
def callsOf (task : Nat) (heard : Bool) (completionHandler : Handler)
    (result : Option JSONObject × Option NSError) : List (TaskObservation Handler) :=
  (handlerOf heard completionHandler).toList.map fun handler => .called task handler result

variable (task : Nat) (heard : Bool)

/-- How far a completed task has come: the blocks on the two queues and what
has been observed. -/
inductive Progress (completionHandler : Handler) (result : Option JSONObject × Option NSError) :
    List (ProcessingBlock Handler) -> List (MainBlock Handler) ->
    List (TaskObservation Handler) -> Prop
  | orphaned (unheard : heard = false) : Progress completionHandler result [] [] []
  | processing (response : Option NSHTTPURLResponse) (data : Option NSData)
      (own : heard = true ->
        serializer.responseObjectForResponse serialization response data = result) :
      Progress completionHandler result
        [⟨task, handlerOf heard completionHandler, response, data⟩] [] []
  | completing (reported : Option JSONObject × Option NSError)
      (own : heard = true -> reported = result) :
      Progress completionHandler result []
        [.completion task (handlerOf heard completionHandler) reported] []
  | notifying :
      Progress completionHandler result [] [.notification task]
        (callsOf task heard completionHandler result)
  | finished :
      Progress completionHandler result [] []
        (callsOf task heard completionHandler result ++ [.posted task])

/-- The delegate of a task that is being loaded: the one of the caller with
all data delivered, or one without a handler. -/
def Loads (record : NSURLSessionTask Handler) (delegate : AFURLSessionManagerTaskDelegate Handler) :
    Prop :=
  if heard then delegate = ⟨some record.received.flatten, some record.completionHandler⟩
  else delegate.completionHandler = none

/-- The stages of a task among the others. -/
inductive Stage : TaskView Handler -> List (TaskObservation Handler) -> Prop
  | absent (isHeard : heard = true) : Stage ⟨none, none, [], []⟩ []
  | created (record : NSURLSessionTask Handler)
      (delegate : Option (AFURLSessionManagerTaskDelegate Handler)) (isHeard : heard = true)
      (unregistered : record.isRegistered = false) (still : record.isRunning = false)
      (empty : record.received = []) (incomplete : record.completion = none)
      (silent : forall found, delegate = some found -> found.completionHandler = none) :
      Stage ⟨some record, delegate, [], []⟩ []
  | loading (record : NSURLSessionTask Handler) (delegate : AFURLSessionManagerTaskDelegate Handler)
      (registered : record.isRegistered = true) (incomplete : record.completion = none)
      (loads : Loads heard record delegate) : Stage ⟨some record, some delegate, [], []⟩ []
  | completed (record : NSURLSessionTask Handler)
      (delegate : Option (AFURLSessionManagerTaskDelegate Handler))
      (processing : List (ProcessingBlock Handler)) (main : List (MainBlock Handler))
      (observed : List (TaskObservation Handler)) (complete : record.completion ≠ none)
      (progress : Progress serializer serialization task heard record.completionHandler
        (outcome serializer serialization record) processing main observed) :
      Stage ⟨some record, delegate, processing, main⟩ observed

end Stages

namespace AFURLSessionManager

/-- The caller has got the task, and it is not complete. -/
def Loading (manager : AFURLSessionManager Handler) (task : Nat) : Prop :=
  Exists fun record => manager.tasks task = some record ∧ record.isRegistered = true ∧
    record.completion = none

/-- The event leaves the task the delegate of its caller up to its end. -/
def KeepsDelegate (task : Nat) (manager : AFURLSessionManager Handler) :
    SessionEvent Handler -> Prop
  | .getTasks tasks => task ∈ tasks -> ¬ manager.Loading task
  | .didCompleteWithError other _ _ => other = task ->
      forall record, manager.tasks task = some record -> record.completion = none ->
        record.isRegistered = true
  | _ => True

/-- Identifiers that have not been given have no task. -/
def Unused (manager : AFURLSessionManager Handler) : Prop :=
  forall task, manager.nextIdentifier ≤ task -> manager.tasks task = none

section Steps

variable {serializer : AFHTTPResponseSerializer} {serialization : JSONSerialization}
variable {task : Nat} {heard : Bool} {manager : AFURLSessionManager Handler}
variable {history : List (TaskObservation Handler)}

/-- The stage of the task after a step that keeps its flag. -/
theorem stage_registerTask
    (stage : Stage serializer serialization task heard (manager.view task) history) :
    Stage serializer serialization task heard ((manager.registerTask task).view task) history := by
  generalize same : manager.view task = before at stage
  cases stage with
  | absent isHeard =>
      have record : manager.tasks task = none := congrArg TaskView.record same
      rw [registerTask, record]
      rw [same]
      exact .absent isHeard
  | created record delegate isHeard unregistered still empty incomplete silent =>
      have found : manager.tasks task = some record := congrArg TaskView.record same
      unfold registerTask
      simp only [found, unregistered, Bool.false_eq_true, if_false]
      rw [addDelegateForDataTask, view_setDelegate, view_setTask, same]
      have loads : Loads heard { record with isRegistered := true }
          ⟨some [], some record.completionHandler⟩ := by
        rw [Loads, if_pos isHeard, empty]
        rfl
      exact .loading { record with isRegistered := true } _ rfl incomplete loads
  | loading record delegate registered incomplete loads =>
      have found : manager.tasks task = some record := congrArg TaskView.record same
      unfold registerTask
      simp only [found, registered, if_true]
      rw [same]
      exact .loading record delegate registered incomplete loads
  | completed record delegate processing main observed complete progress =>
      have found : manager.tasks task = some record := congrArg TaskView.record same
      unfold registerTask
      simp only [found]
      split
      · rw [same]
        exact .completed record delegate processing main _ complete progress
      · rw [addDelegateForDataTask, view_setDelegate, view_setTask, same]
        exact .completed { record with isRegistered := true } _ processing main _ complete progress

theorem stage_resume
    (stage : Stage serializer serialization task heard (manager.view task) history) :
    Stage serializer serialization task heard ((manager.resume task).view task) history := by
  generalize same : manager.view task = before at stage
  cases stage with
  | absent isHeard =>
      have record : manager.tasks task = none := congrArg TaskView.record same
      rw [resume, record]
      rw [same]
      exact .absent isHeard
  | created record delegate isHeard unregistered still empty incomplete silent =>
      have found : manager.tasks task = some record := congrArg TaskView.record same
      unfold resume
      simp only [found, unregistered, Bool.false_and, Bool.false_eq_true, if_false]
      rw [same]
      exact .created record delegate isHeard unregistered still empty incomplete silent
  | loading record delegate registered incomplete loads =>
      have found : manager.tasks task = some record := congrArg TaskView.record same
      have allowed : (record.isRegistered && record.completion.isNone) = true := by
        rw [registered, incomplete]
        rfl
      unfold resume
      simp only [found, allowed, if_true]
      rw [view_setTask, same]
      exact .loading { record with isRunning := true } delegate registered incomplete loads
  | completed record delegate processing main observed complete progress =>
      have found : manager.tasks task = some record := congrArg TaskView.record same
      unfold resume
      simp only [found]
      split
      · rw [view_setTask, same]
        exact .completed { record with isRunning := true } delegate processing main _ complete progress
      · rw [same]
        exact .completed record delegate processing main _ complete progress

theorem stage_didReceiveData (data : NSData)
    (stage : Stage serializer serialization task heard (manager.view task) history) :
    Stage serializer serialization task heard ((manager.didReceiveData task data).view task)
      history := by
  generalize same : manager.view task = before at stage
  cases stage with
  | absent isHeard =>
      have record : manager.tasks task = none := congrArg TaskView.record same
      rw [didReceiveData, record]
      rw [same]
      exact .absent isHeard
  | created record delegate isHeard unregistered still empty incomplete silent =>
      have found : manager.tasks task = some record := congrArg TaskView.record same
      unfold didReceiveData
      simp only [found, still, Bool.false_and, Bool.false_eq_true, if_false]
      rw [same]
      exact .created record delegate isHeard unregistered still empty incomplete silent
  | loading record delegate registered incomplete loads =>
      have found : manager.tasks task = some record := congrArg TaskView.record same
      have there : manager.mutableTaskDelegatesKeyedByTaskIdentifier task = some delegate :=
        congrArg TaskView.delegate same
      unfold didReceiveData
      simp only [found]
      split
      · have kept : (manager.setTask task { record with received := record.received ++ [data] }
            ).delegateForTask task = some delegate := there
        simp only [kept]
        rw [view_setDelegate, view_setTask, same]
        have loadsMore : Loads heard { record with received := record.received ++ [data] }
            { delegate with mutableData := delegate.mutableData.map (· ++ data) } := by
          unfold Loads at loads ⊢
          cases heard with
          | true =>
              rw [if_pos rfl] at loads ⊢
              rw [loads, List.flatten_append, List.flatten_singleton]
              rfl
          | false => exact loads
        exact .loading { record with received := record.received ++ [data] } _ registered incomplete
          loadsMore
      · rw [same]
        exact .loading record delegate registered incomplete loads
  | completed record delegate processing main observed complete progress =>
      have found : manager.tasks task = some record := congrArg TaskView.record same
      have stays : record.completion.isNone = false := by
        cases completion : record.completion with
        | none => exact absurd completion complete
        | some _ => rfl
      unfold didReceiveData
      simp only [found, stays, Bool.and_false, Bool.false_eq_true, if_false]
      rw [same]
      exact .completed record delegate processing main _ complete progress

/-- A delegate hands a task that ends over to one of the queues. -/
theorem stage_enqueueCompletion {record : NSURLSessionTask Handler}
    {delegate : AFURLSessionManagerTaskDelegate Handler} {response : Option NSHTTPURLResponse}
    {error : Option NSError}
    (handler : delegate.completionHandler = handlerOf heard record.completionHandler)
    (data : heard = true -> delegate.mutableData = some record.received.flatten)
    (same : manager.view task =
      ⟨some { record with completion := some (response, error) }, some delegate, [], []⟩) :
    Stage serializer serialization task heard
      (((manager.enqueueCompletion delegate task response error).removeDelegateForTask task).view task)
      [] := by
  have processing : manager.processingQueue.filter (fun block => block.task == task) = [] :=
    congrArg TaskView.processing same
  have main : manager.mainQueue.filter (fun block => block.task == task) = [] :=
    congrArg TaskView.main same
  have found : manager.tasks task = some { record with completion := some (response, error) } :=
    congrArg TaskView.record same
  have there : manager.mutableTaskDelegatesKeyedByTaskIdentifier task = some delegate :=
    congrArg TaskView.delegate same
  rw [view_removeDelegate]
  cases error with
  | none =>
      have after : (manager.enqueueCompletion delegate task response none).view task =
          ⟨some { record with completion := some (response, none) }, some delegate,
            [⟨task, handlerOf heard record.completionHandler, response, delegate.mutableData⟩], []⟩ := by
        unfold enqueueCompletion view
        simp only [List.filter_append, processing, main, handler, found, there, List.nil_append,
          List.filter_cons, beq_self_eq_true, if_true, List.filter_nil]
      rw [after]
      refine .completed { record with completion := some (response, none) } none _ [] [] nofun ?_
      refine .processing response delegate.mutableData fun isHeard => ?_
      rw [data isHeard]
      rfl
  | some error =>
      have after : (manager.enqueueCompletion delegate task response (some error)).view task =
          ⟨some { record with completion := some (response, some error) }, some delegate, [],
            [.completion task (handlerOf heard record.completionHandler) (none, some error)]⟩ := by
        have own : (MainBlock.completion task (handlerOf heard record.completionHandler)
            (none, some error)).task = task := rfl
        unfold enqueueCompletion view
        simp only [List.filter_append, processing, main, handler, found, there, List.nil_append,
          List.filter_cons, own, beq_self_eq_true, if_true, List.filter_nil]
      rw [after]
      exact .completed { record with completion := some (response, some error) } none [] _ [] nofun
        (.completing (none, some error) fun _ => rfl)

theorem stage_didCompleteWithError (response : Option NSHTTPURLResponse) (error : Option NSError)
    (stage : Stage serializer serialization task heard (manager.view task) history) :
    Exists fun heard' =>
      Stage serializer serialization task heard'
          ((manager.didCompleteWithError task response error).view task) history ∧
        (heard' = true ↔ heard = true ∧ forall record, manager.tasks task = some record ->
          record.completion = none -> record.isRegistered = true) := by
  generalize same : manager.view task = before at stage
  cases stage with
  | absent isHeard =>
      have record : manager.tasks task = none := congrArg TaskView.record same
      refine ⟨heard, ?_, ?_⟩
      · rw [didCompleteWithError, record]
        rw [same]
        exact .absent isHeard
      · rw [record]
        exact (and_iff_left nofun).symm
  | created record delegate isHeard unregistered still empty incomplete silent =>
      have found : manager.tasks task = some record := congrArg TaskView.record same
      have there : manager.mutableTaskDelegatesKeyedByTaskIdentifier task = delegate :=
        congrArg TaskView.delegate same
      have allowed : record.completion.isNone = true := by
        rw [incomplete]
        rfl
      refine ⟨false, ?_, iff_of_false Bool.false_ne_true ?_⟩
      · have between : (manager.setTask task { record with completion := some (response, error) }).view
            task = ⟨some { record with completion := some (response, error) }, delegate, [], []⟩ := by
          rw [view_setTask, same]
        have kept : (manager.setTask task { record with completion := some (response, error) }
            ).delegateForTask task = delegate := there
        unfold didCompleteWithError
        simp only [found, allowed, if_true, kept]
        cases delegate with
        | none =>
            simp only
            rw [between]
            exact .completed { record with completion := some (response, error) } none [] [] [] nofun
              (.orphaned rfl)
        | some delegate =>
            exact stage_enqueueCompletion (silent delegate rfl) nofun between
      · rintro ⟨_, law⟩
        have registered := law record found incomplete
        rw [unregistered] at registered
        cases registered
  | loading record delegate registered incomplete loads =>
      have found : manager.tasks task = some record := congrArg TaskView.record same
      have there : manager.mutableTaskDelegatesKeyedByTaskIdentifier task = some delegate :=
        congrArg TaskView.delegate same
      have allowed : record.completion.isNone = true := by
        rw [incomplete]
        rfl
      refine ⟨heard, ?_, ?_⟩
      · have between : (manager.setTask task { record with completion := some (response, error) }).view
            task = ⟨some { record with completion := some (response, error) }, some delegate, [], []⟩ := by
          rw [view_setTask, same]
        have kept : (manager.setTask task { record with completion := some (response, error) }
            ).delegateForTask task = some delegate := there
        unfold didCompleteWithError
        simp only [found, allowed, if_true, kept]
        unfold Loads at loads
        cases heard with
        | true =>
            rw [if_pos rfl] at loads
            subst loads
            exact stage_enqueueCompletion rfl (fun _ => rfl) between
        | false => exact stage_enqueueCompletion loads nofun between
      · refine (and_iff_left ?_).symm
        intro other sameRecord _
        rw [found] at sameRecord
        cases sameRecord
        exact registered
  | completed record delegate processing main observed complete progress =>
      have found : manager.tasks task = some record := congrArg TaskView.record same
      have stays : record.completion.isNone = false := by
        cases completion : record.completion with
        | none => exact absurd completion complete
        | some _ => rfl
      refine ⟨heard, ?_, ?_⟩
      · unfold didCompleteWithError
        simp only [found, stays, Bool.false_eq_true, if_false]
        rw [same]
        exact .completed record delegate processing main _ complete progress
      · refine (and_iff_left ?_).symm
        intro other sameRecord incomplete
        rw [found] at sameRecord
        cases sameRecord
        exact absurd incomplete complete

theorem stage_addDelegates (tasks : List Nat)
    (stage : Stage serializer serialization task heard (manager.view task) history) :
    Exists fun heard' =>
      Stage serializer serialization task heard' ((manager.addDelegates tasks).view task) history ∧
        (heard' = true ↔ heard = true ∧ (task ∈ tasks -> ¬ manager.Loading task)) := by
  rw [view_addDelegates]
  by_cases listed : task ∈ tasks ∧ (manager.tasks task).isSome = true
  · rw [if_pos listed]
    generalize same : manager.view task = before at stage
    cases stage with
    | absent isHeard =>
        have record : manager.tasks task = none := congrArg TaskView.record same
        rw [record] at listed
        cases listed.2
    | created record delegate isHeard unregistered still empty incomplete silent =>
        have found : manager.tasks task = some record := congrArg TaskView.record same
        refine ⟨heard, .created record _ isHeard unregistered still empty incomplete ?_, ?_⟩
        · intro new sameDelegate
          cases sameDelegate
          rfl
        · refine (and_iff_left ?_).symm
          rintro _ ⟨other, sameRecord, registered, _⟩
          rw [found] at sameRecord
          cases sameRecord
          rw [unregistered] at registered
          cases registered
    | loading record delegate registered incomplete loads =>
        have found : manager.tasks task = some record := congrArg TaskView.record same
        exact ⟨false, .loading record _ registered incomplete rfl, iff_of_false Bool.false_ne_true
          fun both => both.2 listed.1 ⟨record, found, registered, incomplete⟩⟩
    | completed record delegate processing main observed complete progress =>
        have found : manager.tasks task = some record := congrArg TaskView.record same
        refine ⟨heard, .completed record _ processing main _ complete progress, ?_⟩
        refine (and_iff_left ?_).symm
        rintro _ ⟨other, sameRecord, _, incomplete⟩
        rw [found] at sameRecord
        cases sameRecord
        exact complete incomplete
  · rw [if_neg listed]
    refine ⟨heard, stage, (and_iff_left ?_).symm⟩
    rintro inTasks ⟨record, found, _⟩
    apply listed
    rw [found]
    exact ⟨inTasks, rfl⟩

/-- A new task takes an identifier that nobody has. -/
theorem stage_dataTaskWithRequest (unused : manager.Unused) (completionHandler : Handler)
    (stage : Stage serializer serialization task heard (manager.view task) history) :
    Stage serializer serialization task heard
      ((manager.dataTaskWithRequest completionHandler).view task) history := by
  by_cases isNew : task = manager.nextIdentifier
  · subst isNew
    have after : (manager.dataTaskWithRequest completionHandler).view manager.nextIdentifier =
        { manager.view manager.nextIdentifier with
          record := some ⟨completionHandler, false, false, [], none⟩ } :=
      view_setTask manager _ _
    have absent : manager.tasks manager.nextIdentifier = none := unused _ (Nat.le_refl _)
    rw [after]
    generalize same : manager.view manager.nextIdentifier = before at stage
    have noRecord : before.record = none := by
      rw [← same]
      exact absent
    cases stage with
    | absent isHeard => exact .created _ none isHeard rfl rfl rfl rfl nofun
    | created => cases noRecord
    | loading => cases noRecord
    | completed => cases noRecord
  · have after : (manager.dataTaskWithRequest completionHandler).view task = manager.view task :=
      view_setTask_of_ne manager isNew _
    rwa [after]

theorem exists_eraseIdx {Item : Type} {items : List Item} {index : Nat} {item : Item}
    (found : items[index]? = some item) :
    Exists fun before => Exists fun after =>
      items = before ++ item :: after ∧ items.eraseIdx index = before ++ after := by
  induction items generalizing index with
  | nil => cases found
  | cons first rest inductionHypothesis =>
      cases index with
      | zero =>
          cases found
          exact ⟨[], rest, rfl, rfl⟩
      | succ index =>
          rcases inductionHypothesis found with ⟨before, after, same, erased⟩
          refine ⟨first :: before, after, congrArg (first :: ·) same, ?_⟩
          rw [List.eraseIdx_cons_succ, erased]
          rfl

theorem stage_process (index : Nat)
    (stage : Stage serializer serialization task heard (manager.view task) history) :
    Stage serializer serialization task heard
      ((manager.process serializer serialization index).view task) history := by
  unfold process
  cases found : manager.processingQueue[index]? with
  | none => exact stage
  | some block =>
      rcases exists_eraseIdx found with ⟨before, after, split, erased⟩
      simp only [erased]
      by_cases own : block.task = task
      · have isOwn : (block.task == task) = true := beq_iff_eq.mpr own
        generalize same : manager.view task = between at stage
        have processing : before.filter (fun block => block.task == task) ++
            block :: after.filter (fun block => block.task == task) = between.processing := by
          rw [← same, view, split, List.filter_append]
          simp only [List.filter_cons, isOwn, if_true]
        have main : manager.mainQueue.filter (fun block => block.task == task) = between.main := by
          rw [← same]
          rfl
        have sameRecord : manager.tasks task = between.record := congrArg TaskView.record same
        have sameDelegate : manager.mutableTaskDelegatesKeyedByTaskIdentifier task = between.delegate :=
          congrArg TaskView.delegate same
        have viewed : forall result,
            ({ manager with
                processingQueue := before ++ after
                mainQueue := manager.mainQueue ++
                  [.completion block.task block.completionHandler result] } :
              AFURLSessionManager Handler).view task =
              ⟨between.record, between.delegate,
                before.filter (fun block => block.task == task) ++
                  after.filter (fun block => block.task == task),
                between.main ++ [.completion block.task block.completionHandler result]⟩ := by
          intro result
          have own : (MainBlock.completion block.task block.completionHandler result).task =
              block.task := rfl
          unfold view
          simp only [List.filter_append, sameRecord, sameDelegate, main, List.filter_cons,
            own, isOwn, if_true, List.filter_nil]
        rw [viewed]
        cases stage with
        | absent => exact absurd (List.append_eq_nil_iff.mp processing).2 nofun
        | created => exact absurd (List.append_eq_nil_iff.mp processing).2 nofun
        | loading => exact absurd (List.append_eq_nil_iff.mp processing).2 nofun
        | completed record delegate processing main observed complete progress =>
            cases progress with
            | orphaned => exact absurd (List.append_eq_nil_iff.mp processing).2 nofun
            | completing => exact absurd (List.append_eq_nil_iff.mp processing).2 nofun
            | notifying => exact absurd (List.append_eq_nil_iff.mp processing).2 nofun
            | finished => exact absurd (List.append_eq_nil_iff.mp processing).2 nofun
            | processing response data isResult =>
                rcases List.append_eq_singleton_iff.mp processing with ⟨noneBefore, rest⟩ | ⟨_, rest⟩
                · injection rest with sameBlock noneAfter
                  subst sameBlock
                  rw [noneBefore, noneAfter]
                  exact .completed record delegate [] _ [] complete (.completing _ isResult)
                · cases rest
      · have notOwn : (block.task == task) = false := beq_false_of_ne own
        have viewed : forall result,
            ({ manager with
                processingQueue := before ++ after
                mainQueue := manager.mainQueue ++
                  [.completion block.task block.completionHandler result] } :
              AFURLSessionManager Handler).view task = manager.view task := by
          intro result
          unfold view
          simp [split, List.filter_append, notOwn]
        rw [viewed]
        exact stage

theorem told_append (first second : List (TaskObservation Handler)) :
    told task (first ++ second) = told task first ++ told task second :=
  List.filter_append ..

theorem told_of_own {observations : List (TaskObservation Handler)}
    (own : forall observation, observation ∈ observations -> observation.task = task) :
    told task observations = observations :=
  List.filter_eq_self.mpr fun observation listed => beq_iff_eq.mpr (own observation listed)

theorem told_of_others {observations : List (TaskObservation Handler)}
    (others : forall observation, observation ∈ observations -> observation.task ≠ task) :
    told task observations = [] :=
  List.filter_eq_nil_iff.mpr fun observation listed same =>
    others observation listed (beq_iff_eq.mp same)

theorem view_mainQueue (later : List (MainBlock Handler)) :
    ({ manager with mainQueue := later } : AFURLSessionManager Handler).view task =
      { manager.view task with main := later.filter fun block => block.task == task } := rfl

/-- What the main queue observes and adds belongs to the task of its block. -/
theorem runMainQueue_tasks {block : MainBlock Handler} {rest : List (MainBlock Handler)}
    (queue : manager.mainQueue = block :: rest) :
    (forall observation, observation ∈ manager.runMainQueue.2 -> observation.task = block.task) ∧
      Exists fun added => (forall later, later ∈ added -> later.task = block.task) ∧
        manager.runMainQueue.1 = { manager with mainQueue := rest ++ added } := by
  unfold runMainQueue
  rw [queue]
  cases block with
  | completion other completionHandler result =>
      refine ⟨?_, [.notification other], ?_, rfl⟩
      · intro observation listed
        rcases List.mem_map.mp listed with ⟨handler, _, rfl⟩
        rfl
      · intro later listed
        rw [List.mem_singleton.mp listed]
        rfl
  | notification other =>
      refine ⟨?_, [], nofun, ?_⟩
      · intro observation listed
        rw [List.mem_singleton.mp listed]
        rfl
      · rw [List.append_nil]

/-- A block of the task takes it one step further. -/
theorem stage_ownBlock {block : MainBlock Handler} {rest : List (MainBlock Handler)}
    (queue : manager.mainQueue = block :: rest) (own : block.task = task)
    {observed : List (TaskObservation Handler)}
    (stage : Stage serializer serialization task heard (manager.view task) observed) :
    Stage serializer serialization task heard (manager.runMainQueue.1.view task)
      (observed ++ manager.runMainQueue.2) := by
  have isOwn : (block.task == task) = true := beq_iff_eq.mpr own
  generalize same : manager.view task = between at stage
  have main : block :: rest.filter (fun block => block.task == task) = between.main := by
    rw [← same, view, queue]
    simp only [List.filter_cons, isOwn, if_true]
  unfold runMainQueue
  rw [queue]
  cases stage with
  | absent => cases main
  | created => cases main
  | loading => cases main
  | completed record delegate processing main' observed complete progress =>
      cases progress with
      | orphaned => cases main
      | processing => cases main
      | finished => cases main
      | completing reported isResult =>
          injection main with sameBlock noneAfter
          subst sameBlock
          have calls : (handlerOf heard record.completionHandler).toList.map
              (fun handler => TaskObservation.called task handler reported) =
                callsOf task heard record.completionHandler
                  (outcome serializer serialization record) := by
            cases heard with
            | false => rfl
            | true => exact congrArg (fun result => [TaskObservation.called task _ result]) (isResult rfl)
          have notified : [MainBlock.notification task].filter
              (fun block : MainBlock Handler => block.task == task) = [.notification task] := by
            simp
          simp only
          rw [view_mainQueue, same, List.filter_append, noneAfter, calls, notified]
          exact .completed record delegate [] _ _ complete .notifying
      | notifying =>
          injection main with sameBlock noneAfter
          subst sameBlock
          simp only
          rw [view_mainQueue, same, noneAfter]
          exact .completed record delegate [] [] _ complete .finished

theorem stage_runMainQueue
    (stage : Stage serializer serialization task heard (manager.view task) (told task history)) :
    Stage serializer serialization task heard (manager.runMainQueue.1.view task)
      (told task (history ++ manager.runMainQueue.2)) := by
  rw [told_append]
  cases queue : manager.mainQueue with
  | nil =>
      unfold runMainQueue
      rw [queue]
      change Stage _ _ _ _ _ (_ ++ [])
      rwa [List.append_nil]
  | cons block rest =>
      rcases runMainQueue_tasks queue with ⟨observes, added, adds, after⟩
      by_cases own : block.task = task
      · rw [told_of_own fun observation listed => (observes observation listed).trans own]
        exact stage_ownBlock queue own stage
      · have unseen : manager.runMainQueue.1.view task = manager.view task := by
          have before : (manager.view task).main = rest.filter fun block => block.task == task := by
            rw [view, queue]
            simp only [List.filter_cons, beq_false_of_ne own, Bool.false_eq_true, if_false]
          have none : added.filter (fun later => later.task == task) = [] :=
            List.filter_eq_nil_iff.mpr fun later listed same =>
              own ((adds later listed).symm.trans (beq_iff_eq.mp same))
          rw [after, view_mainQueue, List.filter_append, none, List.append_nil, ← before]
        rw [told_of_others fun observation listed same =>
          own ((observes observation listed).symm.trans same), List.append_nil, unseen]
        exact stage

end Steps

/-! ## Whole runs -/

section Runs

variable (serializer : AFHTTPResponseSerializer) (serialization : JSONSerialization)

theorem unused_next {manager : AFURLSessionManager Handler} (unused : manager.Unused)
    (event : SessionEvent Handler) : ((system serializer serialization).next manager event).Unused := by
  have updated : forall task record, manager.tasks task ≠ none ->
      forall other, manager.nextIdentifier ≤ other ->
        Function.update manager.tasks task record other = none := by
    intro task record there other late
    rw [Function.update_of_ne, unused other late]
    rintro rfl
    exact there (unused _ late)
  cases event with
  | dataTaskWithRequest completionHandler =>
      intro task late
      change manager.nextIdentifier + 1 ≤ task at late
      change Function.update manager.tasks manager.nextIdentifier _ task = none
      rw [Function.update_of_ne (by omega), unused task (by omega)]
  | addDelegateForDataTask task =>
      change (manager.registerTask task).Unused
      unfold registerTask
      split
      · exact unused
      · next record found =>
          split
          · exact unused
          · exact updated task _ (by rw [found]; exact nofun)
  | resume task =>
      change (manager.resume task).Unused
      unfold resume
      split
      · exact unused
      · next record found =>
          split
          · exact updated task _ (by rw [found]; exact nofun)
          · exact unused
  | getTasks tasks =>
      change (manager.addDelegates tasks).Unused
      unfold addDelegates
      induction tasks generalizing manager with
      | nil => exact unused
      | cons task rest inductionHypothesis =>
          rw [List.foldl_cons]
          split
          · exact @inductionHypothesis (manager.addDelegateForDataTask task none) unused updated
          · exact inductionHypothesis unused updated
  | didReceiveData task data =>
      change (manager.didReceiveData task data).Unused
      unfold didReceiveData
      split
      · exact unused
      · next record found =>
          split
          · simp only
            split <;> exact updated task _ (by rw [found]; exact nofun)
          · exact unused
  | didCompleteWithError task response error =>
      change (manager.didCompleteWithError task response error).Unused
      unfold didCompleteWithError
      split
      · exact unused
      · next record found =>
          split
          · simp only
            split
            · exact updated task _ (by rw [found]; exact nofun)
            · cases error <;> exact updated task _ (by rw [found]; exact nofun)
          · exact unused
  | process index =>
      change (manager.process serializer serialization index).Unused
      unfold process
      split <;> exact unused
  | runMainQueue =>
      change manager.runMainQueue.1.Unused
      unfold runMainQueue
      split <;> exact unused

/-- One step carries the stage of a task on, and its delegate stays that of
the caller exactly if the event leaves it. -/
theorem stage_step (task : Nat) (heard : Bool) (history : List (TaskObservation Handler))
    (manager : AFURLSessionManager Handler) (event : SessionEvent Handler) (unused : manager.Unused)
    (stage : Stage serializer serialization task heard (manager.view task) (told task history)) :
    Exists fun heard' =>
      Stage serializer serialization task heard'
          (((system serializer serialization).next manager event).view task)
          (told task (history ++ (system serializer serialization).emits manager event)) ∧
        (heard' = true ↔ heard = true ∧ KeepsDelegate task manager event) := by
  have kept : forall {after : AFURLSessionManager Handler},
      Stage serializer serialization task heard (after.view task) (told task history) ->
      Exists fun heard' =>
        Stage serializer serialization task heard' (after.view task) (told task (history ++ [])) ∧
          (heard' = true ↔ heard = true ∧ True) := by
    intro after later
    rw [List.append_nil]
    exact ⟨heard, later, (and_iff_left trivial).symm⟩
  cases event with
  | dataTaskWithRequest completionHandler => exact kept (stage_dataTaskWithRequest unused _ stage)
  | addDelegateForDataTask other =>
      apply kept
      by_cases same : task = other
      · subst same
        exact stage_registerTask stage
      · change Stage _ _ _ _ ((manager.registerTask other).view task) _
        rwa [(manager.view_of_ne same).1]
  | resume other =>
      apply kept
      by_cases same : task = other
      · subst same
        exact stage_resume stage
      · change Stage _ _ _ _ ((manager.resume other).view task) _
        rwa [(manager.view_of_ne same).2.1]
  | getTasks tasks =>
      have step := stage_addDelegates tasks stage
      rw [← List.append_nil history] at step
      exact step
  | didReceiveData other data =>
      apply kept
      by_cases same : task = other
      · subst same
        exact stage_didReceiveData data stage
      · change Stage _ _ _ _ ((manager.didReceiveData other data).view task) _
        rwa [(manager.view_of_ne same).2.2.1]
  | didCompleteWithError other response error =>
      by_cases same : task = other
      · subst same
        rcases stage_didCompleteWithError response error stage with ⟨heard', later, law⟩
        refine ⟨heard', ?_, law.trans (and_congr_right fun _ => ?_)⟩
        · change Stage _ _ _ _ _ (told task (history ++ []))
          rwa [List.append_nil]
        · exact ⟨fun registered _ => registered, fun registered => registered rfl⟩
      · refine ⟨heard, ?_, (and_iff_left fun isOther => absurd isOther.symm same).symm⟩
        change Stage _ _ _ _ ((manager.didCompleteWithError other response error).view task)
          (told task (history ++ []))
        rw [List.append_nil]
        rwa [(manager.view_of_ne same).2.2.2]
  | process index => exact kept (stage_process index stage)
  | runMainQueue => exact ⟨heard, stage_runMainQueue stage, (and_iff_left trivial).symm⟩

/-- After any run the task is in one of its stages, and its handler is heard
exactly if every event left its delegate. -/
theorem stage_run (task : Nat) (events : List (SessionEvent Handler)) :
    Exists fun heard =>
      Stage serializer serialization task heard
          (((system serializer serialization).run initial events).view task)
          (told task ((system serializer serialization).trace initial events)) ∧
        (heard = true ↔ (system serializer serialization).Along (KeepsDelegate task) initial events) := by
  have start : (initial : AFURLSessionManager Handler).Unused ∧
      Stage serializer serialization task true ((initial : AFURLSessionManager Handler).view task)
        (told task []) :=
    ⟨fun _ _ => rfl, .absent rfl⟩
  rcases EventSystem.run_flag_iff_along (system serializer serialization)
    (fun heard history manager => manager.Unused ∧
      Stage serializer serialization task heard (manager.view task) (told task history))
    (fun heard history manager event judged => by
      rcases stage_step serializer serialization task heard history manager event judged.1 judged.2
        with ⟨heard', later, law⟩
      exact ⟨heard', ⟨unused_next serializer serialization judged.1 event, later⟩, law⟩)
    start events with ⟨heard, judged, law⟩
  rw [List.nil_append] at judged
  exact ⟨heard, judged.2, law.trans (and_iff_right rfl)⟩

/-- In every run, whatever other tasks do, all that is seen of a task is the
beginning of one call of its own handler, with what its own data and its own
completion give, and one notification behind it; or the notification alone. -/
theorem told_of_run (task : Nat) (events : List (SessionEvent Handler)) :
    told task ((system serializer serialization).trace initial events) = [] ∨
      Exists fun record =>
        ((system serializer serialization).run initial events).tasks task = some record ∧
          record.completion ≠ none ∧
          (told task ((system serializer serialization).trace initial events) <+:
              [.called task record.completionHandler (outcome serializer serialization record),
                .posted task] ∨
            told task ((system serializer serialization).trace initial events) = [.posted task]) := by
  rcases stage_run serializer serialization task events with ⟨heard, stage, _⟩
  generalize same : ((system serializer serialization).run initial events).view task = after at stage
  have found : ((system serializer serialization).run initial events).tasks task = after.record :=
    congrArg TaskView.record same
  generalize told task ((system serializer serialization).trace initial events) = observed at stage
  cases stage with
  | absent => exact Or.inl rfl
  | created => exact Or.inl rfl
  | loading => exact Or.inl rfl
  | completed record delegate processing main observed complete progress =>
      cases progress with
      | orphaned => exact Or.inl rfl
      | processing => exact Or.inl rfl
      | completing => exact Or.inl rfl
      | notifying =>
          cases heard with
          | false => exact Or.inl rfl
          | true => exact Or.inr ⟨record, found, complete, Or.inl ⟨[.posted task], rfl⟩⟩
      | finished =>
          refine Or.inr ⟨record, found, complete, ?_⟩
          cases heard with
          | false => exact Or.inr rfl
          | true => exact Or.inl (List.prefix_refl _)

/-- What an exchange was for the handlers of `LumiRequest`. -/
def transport (record : NSURLSessionTask Handler) : Transport :=
  match record.completion with
  | none => .completed none none
  | some (_, some error) => .failed error
  | some (response, none) => exchange serializer response (some record.received.flatten)

/-- The completion handler that `AFHTTPSessionManager` makes of two blocks. -/
def dataTaskAnswer (result : Option JSONObject × Option NSError) : Answer :=
  match result with
  | (_, some error) => .failure error
  | (responseObject, none) => .success responseObject

theorem dataTaskAnswer_outcome {record : NSURLSessionTask Handler} (complete : record.completion ≠ none) :
    dataTaskAnswer (outcome serializer serialization record) =
      answer serialization (transport serializer record) := by
  unfold outcome transport
  rcases completion : record.completion with _ | ⟨response, _ | error⟩
  · exact absurd completion complete
  · simp only [exchange, answer]
    rw [AFHTTPResponseSerializer.responseObjectForResponse_eq]
    unfold dataTaskAnswer
    rfl
  · rfl

/-- The answers that the blocks of a task give. -/
def answers (task : Nat) (history : List (TaskObservation Handler)) : List Answer :=
  (told task history).filterMap fun
    | .called _ _ result => some (dataTaskAnswer result)
    | .posted _ => none

/-- When a task is complete and the queues are empty, the answers it has
given are the one that its exchange deserves, exactly if no event of the run
took the delegate of its caller away. -/
theorem answers_of_quiet_run_iff (task : Nat) (events : List (SessionEvent Handler))
    {record : NSURLSessionTask Handler}
    (found : ((system serializer serialization).run initial events).tasks task = some record)
    (complete : record.completion ≠ none)
    (processed : ((system serializer serialization).run initial events).processingQueue = [])
    (quiet : ((system serializer serialization).run initial events).mainQueue = []) :
    answers task ((system serializer serialization).trace initial events) =
        [answer serialization (transport serializer record)] ↔
      (system serializer serialization).Along (KeepsDelegate task) initial events := by
  rcases stage_run serializer serialization task events with ⟨heard, stage, law⟩
  rw [← law, ← dataTaskAnswer_outcome serializer serialization complete]
  clear law
  unfold answers
  have view : ((system serializer serialization).run initial events).view task =
      ⟨some record, ((system serializer serialization).run initial events
        ).mutableTaskDelegatesKeyedByTaskIdentifier task, [], []⟩ := by
    unfold AFURLSessionManager.view
    rw [found, processed, quiet]
    rfl
  rw [view] at stage
  generalize told task ((system serializer serialization).trace initial events) = observed at stage
  generalize ((system serializer serialization).run initial events
    ).mutableTaskDelegatesKeyedByTaskIdentifier task = delegate at stage
  cases stage with
  | created _ _ _ _ _ _ incomplete => exact absurd incomplete complete
  | loading _ _ _ incomplete => exact absurd incomplete complete
  | completed _ _ _ _ _ _ progress =>
      cases progress with
      | orphaned unheard =>
          rw [unheard]
          exact iff_of_false nofun Bool.false_ne_true
      | finished =>
          cases heard with
          | true => exact iff_of_true rfl rfl
          | false => exact iff_of_false nofun Bool.false_ne_true

end Runs

/-- Two requests at once; the second, of which the session already knows when
it answers, is not registered yet, and the first one fails. -/
def twoRequests : List (SessionEvent Unit) :=
  [.dataTaskWithRequest (), .addDelegateForDataTask 1, .dataTaskWithRequest (), .getTasks [2],
    .addDelegateForDataTask 2, .resume 1, .resume 2, .didReceiveData 2 [123],
    .didCompleteWithError 1 none (some (.plain "NSURLErrorDomain" (-1004))), .didReceiveData 2 [125],
    .didCompleteWithError 2 (some ⟨some "text/json", 200, true⟩) none, .process 0, .runMainQueue,
    .runMainQueue, .runMainQueue, .runMainQueue]

/-- A parser that finds an empty dictionary in `{}`. -/
def emptyDictionary : JSONSerialization := fun isMutable data =>
  if data = [123, 125] then .ok (.dictionary isMutable []) else .error (.plain "NSCocoaErrorDomain" 3840)

theorem answers_of_second_request :
    answers 2 ((system lumiSerializer emptyDictionary).trace initial twoRequests) =
      [.success (some (.dictionary false []))] := by
  have given : answers 2 ((system lumiSerializer emptyDictionary).trace initial twoRequests) = _ :=
    (answers_of_quiet_run_iff lumiSerializer emptyDictionary 2 twoRequests
      (show ((system lumiSerializer emptyDictionary).run initial twoRequests).tasks 2 =
        some ⟨(), true, true, [[123], [125]], some (some ⟨some "text/json", 200, true⟩, none)⟩ from rfl)
      nofun rfl rfl).mpr (by
        refine ⟨trivial, trivial, trivial, ?_, trivial, trivial, trivial, trivial, ?_, trivial, ?_,
          trivial, trivial, trivial, trivial, trivial, trivial⟩
        · rintro _ ⟨record, found, registered, _⟩
          cases found
          cases registered
        · exact fun impossible => absurd impossible (by decide)
        · intro _ record found _
          cases found
          rfl)
  exact given


end AFURLSessionManager

end AFNetworking
end Network
end HowBigDemo
