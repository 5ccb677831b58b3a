import HowBigDemo.Library.TransactionalStore

namespace HowBigDemo
namespace WCDB

open Library

/-!
# Transactions of one thread on a database

While a thread is in a transaction, `s_threadedHandle` keeps the handle that
the transaction runs on, and every operation of the thread uses this handle
instead of one from the pool.  `runTransaction` begins a transaction, runs a
block of code and commits or rolls back by the block's answer; blocks may run
further transactions.

A block is modelled as the tree of the operations it performs, each followed
by what the block does on the answer.  The database library is a transactional
store with any answers that such a store may give, and the pool any source of
handles.  What a transaction asks of the pool is seen by a pool that records
its calls.
-/

/-- A block of code between `runTransaction` and its answer. -/
inductive Block (Statement : Type)
  | done (accepts : Bool)
  | exec (command : Command Statement) (next : Bool -> Block Statement)
  | begin (next : Bool -> Block Statement)
  | commit (next : Bool -> Block Statement)
  | rollback (next : Bool -> Block Statement)
  | runTransaction (body : Block Statement) (next : Bool -> Block Statement)
  | runEmbeddedTransaction (body : Block Statement) (next : Bool -> Block Statement)

/-- `TransactionEventType`, and what the database library has done. -/
inductive Note (Statement : Type)
  | executed (statement : Statement)
  /-- An error has ended the transaction. -/
  | lost
  | misuse
  | beginFailed
  | commitFailed
  | rollback
  | rollbackFailed
  deriving DecidableEq

/-- The pool as a thread sees it. -/
structure Handles (World Handle : Type) where
  flowOut : World -> World × Option Handle
  flowBack : Handle -> World -> World
  /-- What `pushBack` answers in `flowBack`. -/
  inserts : Handle -> World -> Bool

/-- The thread's entry for the path of the database. -/
structure Session (World Handle : Type) where
  world : World
  s_threadedHandle : Option Handle

/-- What an operation leaves behind. -/
structure Outcome (World Handle Statement : Type) where
  session : Session World Handle
  result : Bool
  notes : List (Note Statement)

namespace Outcome

variable {World Handle Statement : Type}

/-- One operation after another. -/
def andThen (first : Outcome World Handle Statement)
    (next : Bool -> Session World Handle -> Outcome World Handle Statement) :
    Outcome World Handle Statement :=
  let second := next first.result first.session
  ⟨second.session, second.result, first.notes ++ second.notes⟩

/-- A callback of the kind of an event. -/
def note (event : Note Statement) (outcome : Outcome World Handle Statement) :
    Outcome World Handle Statement :=
  { outcome with notes := event :: outcome.notes }

end Outcome

namespace Database

variable {World Handle Statement : Type} [DecidableEq Handle]
variable (store : TransactionalStore World Handle Statement) (pool : Handles World Handle)

/-- The thread's handle, or one from the pool. -/
def flowOut (session : Session World Handle) : Session World Handle × Option Handle :=
  match session.s_threadedHandle with
  | some handle => (session, some handle)
  | none =>
    ({ session with world := (pool.flowOut session.world).1 }, (pool.flowOut session.world).2)

/-- The end of a function that has used a handle: it goes back unless the
thread keeps it. -/
def release (session : Session World Handle) (handle : Handle) : Session World Handle :=
  if session.s_threadedHandle = some handle then session
  else { session with world := pool.flowBack handle session.world }

/-- What the library has done with a command. -/
def noted (command : Command Statement) (handle : Handle) (world : World) : List (Note Statement) :=
  if store.loses command handle world then [.lost]
  else
    match command, (store.perform command handle world).2 with
    | .execute statement, true => [.executed statement]
    | _, _ => []

/-- `CoreBase::exec` on a handle from `flowOut`, and what the caller does with
the thread's entry. -/
def perform (command : Command Statement) (keeps : Bool -> Handle -> Option Handle -> Option Handle)
    (session : Session World Handle) : Outcome World Handle Statement :=
  match flowOut pool session with
  | (session, none) => ⟨session, false, []⟩
  | (session, some handle) =>
    let answer := store.perform command handle session.world
    let session' : Session World Handle :=
      { session with
        world := answer.1
        s_threadedHandle := keeps answer.2 handle session.s_threadedHandle }
    ⟨release pool session' handle, answer.2, noted store command handle session.world⟩

def exec (command : Command Statement) (session : Session World Handle) :
    Outcome World Handle Statement :=
  match command with
  | .execute _ => perform store pool command (fun _ _ threaded => threaded) session
  | _ => ⟨session, false, [.misuse]⟩

/-- A successful begin enters its handle, unless the thread has one. -/
def begin (session : Session World Handle) : Outcome World Handle Statement :=
  perform store pool .begin
    (fun begun handle threaded => if begun then threaded.or (some handle) else threaded) session

def commit (session : Session World Handle) : Outcome World Handle Statement :=
  perform store pool .commit (fun committed _ threaded => if committed then none else threaded) session

def rollback (session : Session World Handle) : Outcome World Handle Statement :=
  perform store pool .rollback (fun _ _ _ => none) session

/-- The end of `runTransaction` after anything but a commit. -/
def giveUp (session : Session World Handle) : Outcome World Handle Statement :=
  .note .rollback ((rollback store pool session).andThen fun rolledBack session =>
    ⟨session, false, if rolledBack then [] else [.rollbackFailed]⟩)

def runTransaction (transaction : Session World Handle -> Outcome World Handle Statement)
    (session : Session World Handle) : Outcome World Handle Statement :=
  (begin store pool session).andThen fun begun session =>
    if begun then
      (transaction session).andThen fun accepted session =>
        if accepted then
          (commit store pool session).andThen fun committed session =>
            if committed then ⟨session, true, []⟩
            else .note .commitFailed (giveUp store pool session)
        else giveUp store pool session
    else ⟨session, false, [.beginFailed]⟩

def runEmbeddedTransaction (transaction : Session World Handle -> Outcome World Handle Statement)
    (session : Session World Handle) : Outcome World Handle Statement :=
  if session.s_threadedHandle.isSome then transaction session
  else runTransaction store pool transaction session

/-- A block at work. -/
def run : Block Statement -> Session World Handle -> Outcome World Handle Statement
  | .done accepts, session => ⟨session, accepts, []⟩
  | .exec command next, session =>
    (exec store pool command session).andThen fun answer => run (next answer)
  | .begin next, session => (begin store pool session).andThen fun answer => run (next answer)
  | .commit next, session => (commit store pool session).andThen fun answer => run (next answer)
  | .rollback next, session => (rollback store pool session).andThen fun answer => run (next answer)
  | .runTransaction body next, session =>
    (runTransaction store pool (run body) session).andThen fun answer => run (next answer)
  | .runEmbeddedTransaction body next, session =>
    (runEmbeddedTransaction store pool (run body) session).andThen fun answer => run (next answer)

end Database

/-! ## Recorded calls -/

/-- A call of the pool that has given out a handle or got one back. -/
inductive PoolCall (Handle : Type)
  | flowedOut (handle : Handle)
  | flowedBack (handle : Handle) (inserted : Bool)
  deriving DecidableEq

/-- A world with the calls that the pool has answered in it. -/
structure Recorded (World Handle : Type) where
  world : World
  calls : List (PoolCall Handle)

section Recording

variable {World Handle Statement : Type}

/-- A pool that records its calls. -/
def Handles.recorded (pool : Handles World Handle) : Handles (Recorded World Handle) Handle where
  flowOut recorded :=
    match pool.flowOut recorded.world with
    | (world, some handle) => (⟨world, recorded.calls ++ [.flowedOut handle]⟩, some handle)
    | (world, none) => (⟨world, recorded.calls⟩, none)
  flowBack handle recorded :=
    ⟨pool.flowBack handle recorded.world,
      recorded.calls ++ [.flowedBack handle (pool.inserts handle recorded.world)]⟩
  inserts handle recorded := pool.inserts handle recorded.world

/-- The database library does not see the record. -/
def recordedStore (store : TransactionalStore World Handle Statement) :
    TransactionalStore (Recorded World Handle) Handle Statement where
  perform command handle recorded :=
    ({ recorded with world := (store.perform command handle recorded.world).1 },
      (store.perform command handle recorded.world).2)
  journal recorded := store.journal recorded.world
  pending recorded := store.pending recorded.world

theorem recordedStore_lawful {store : TransactionalStore World Handle Statement}
    (lawful : store.Lawful) : (recordedStore store).Lawful where
  answers command handle recorded := lawful.answers command handle recorded.world
  others command handle recorded := lawful.others command handle recorded.world

/-- The handles flow out and back by turns, each back before the next one;
the last may still be out. -/
inductive Paired : List (PoolCall Handle) -> Option Handle -> Prop
  | nothing : Paired [] none
  | flowedOut {calls : List (PoolCall Handle)} (earlier : Paired calls none) (handle : Handle) :
      Paired (calls ++ [.flowedOut handle]) (some handle)
  | flowedBack {calls : List (PoolCall Handle)} {handle : Handle} (earlier : Paired calls (some handle))
      (inserted : Bool) : Paired (calls ++ [.flowedBack handle inserted]) none

/-- A session is the recorded one without its record, which is paired but for
the handle of the thread's entry. -/
structure Records (recorded : Session (Recorded World Handle) Handle)
    (session : Session World Handle) : Prop where
  world : recorded.world.world = session.world
  threaded : recorded.s_threadedHandle = session.s_threadedHandle
  paired : Paired recorded.world.calls recorded.s_threadedHandle

/-- Recording changes nothing of an outcome. -/
structure SameOutcome (recorded : Outcome (Recorded World Handle) Handle Statement)
    (outcome : Outcome World Handle Statement) : Prop where
  session : Records recorded.session outcome.session
  result : recorded.result = outcome.result
  notes : recorded.notes = outcome.notes

/-- An operation on recorded sessions does what the other does. -/
def Simulates (recordedOperation : Session (Recorded World Handle) Handle ->
      Outcome (Recorded World Handle) Handle Statement)
    (operation : Session World Handle -> Outcome World Handle Statement) : Prop :=
  forall recorded session, Records recorded session ->
    SameOutcome (recordedOperation recorded) (operation session)

theorem simulates_of_silent (result : Bool) (notes : List (Note Statement)) :
    Simulates (fun recorded : Session (Recorded World Handle) Handle => ⟨recorded, result, notes⟩)
      fun session => ⟨session, result, notes⟩ :=
  fun _ _ records => ⟨records, rfl, rfl⟩

theorem Simulates.andThen {firstRecorded : Session (Recorded World Handle) Handle ->
      Outcome (Recorded World Handle) Handle Statement}
    {first : Session World Handle -> Outcome World Handle Statement}
    (simulates : Simulates firstRecorded first)
    {nextRecorded : Bool -> Session (Recorded World Handle) Handle ->
      Outcome (Recorded World Handle) Handle Statement}
    {next : Bool -> Session World Handle -> Outcome World Handle Statement}
    (later : forall answer, Simulates (nextRecorded answer) (next answer)) :
    Simulates (fun recorded => (firstRecorded recorded).andThen nextRecorded)
      fun session => (first session).andThen next := by
  intro recorded session records
  have here := simulates recorded session records
  have there := later (firstRecorded recorded).result _ _ here.session
  unfold Outcome.andThen
  simp only
  rw [← here.result]
  exact ⟨there.session, there.result, congrArg₂ List.append here.notes there.notes⟩

theorem Simulates.note {recordedOperation : Session (Recorded World Handle) Handle ->
      Outcome (Recorded World Handle) Handle Statement}
    {operation : Session World Handle -> Outcome World Handle Statement}
    (simulates : Simulates recordedOperation operation) (event : Note Statement) :
    Simulates (fun recorded => (recordedOperation recorded).note event)
      fun session => (operation session).note event := by
  intro recorded session records
  have same := simulates recorded session records
  exact ⟨same.session, same.result, congrArg (List.cons event) same.notes⟩

end Recording

namespace Database

variable {World Handle Statement : Type} [DecidableEq Handle]

/-- A transaction on the recording pool, from an empty record on. -/
def recordedTransaction (store : TransactionalStore World Handle Statement)
    (pool : Handles World Handle) (block : Block Statement) (session : Session World Handle) :
    Outcome (Recorded World Handle) Handle Statement :=
  runTransaction (recordedStore store) pool.recorded (run (recordedStore store) pool.recorded block)
    ⟨⟨session.world, []⟩, session.s_threadedHandle⟩

/-- The calls that a transaction makes of the pool. -/
def poolCalls (store : TransactionalStore World Handle Statement) (pool : Handles World Handle)
    (block : Block Statement) (session : Session World Handle) : List (PoolCall Handle) :=
  (recordedTransaction store pool block session).session.world.calls

variable {store : TransactionalStore World Handle Statement} {pool : Handles World Handle}

/-- The end of a function that has the handle of the entry or the one that it
has just taken. -/
theorem records_release {recorded : Session (Recorded World Handle) Handle}
    {session : Session World Handle} {handle : Handle}
    (world : recorded.world.world = session.world)
    (threaded : recorded.s_threadedHandle = session.s_threadedHandle)
    (isOut : Paired recorded.world.calls (some handle))
    (entry : recorded.s_threadedHandle = none ∨ recorded.s_threadedHandle = some handle) :
    Records (release pool.recorded recorded handle) (release pool session handle) := by
  unfold release
  rw [← threaded]
  rcases entry with gone | kept
  · rw [gone, if_neg nofun, if_neg nofun]
    exact ⟨congrArg (pool.flowBack handle) world, rfl, isOut.flowedBack _⟩
  · rw [kept, if_pos rfl, if_pos rfl]
    refine ⟨world, threaded, ?_⟩
    rw [kept]
    exact isOut

theorem perform_simulates {command : Command Statement}
    {keeps : Bool -> Handle -> Option Handle -> Option Handle}
    (keeps_handle : forall answer handle threaded, threaded = none ∨ threaded = some handle ->
      keeps answer handle threaded = none ∨ keeps answer handle threaded = some handle) :
    Simulates (perform (recordedStore store) pool.recorded command keeps)
      (perform store pool command keeps) := by
  rintro ⟨⟨world, calls⟩, threaded⟩ ⟨world', threaded'⟩ ⟨rfl, rfl, paired⟩
  unfold perform flowOut
  cases threaded with
  | some handle => exact ⟨records_release rfl rfl paired (keeps_handle _ _ _ (Or.inr rfl)), rfl, rfl⟩
  | none =>
      unfold Handles.recorded
      simp only
      rcases pool.flowOut world with ⟨after, _ | handle⟩
      · exact ⟨⟨rfl, rfl, paired⟩, rfl, rfl⟩
      · exact ⟨records_release rfl rfl (paired.flowedOut handle) (keeps_handle _ _ _ (Or.inl rfl)),
          rfl, rfl⟩

theorem exec_simulates (command : Command Statement) :
    Simulates (exec (recordedStore store) pool.recorded command) (exec store pool command) := by
  cases command with
  | execute statement => exact perform_simulates fun _ _ _ either => either
  | _ => exact simulates_of_silent false [.misuse]

theorem begin_simulates :
    Simulates (begin (recordedStore store) pool.recorded) (begin store pool) := by
  apply perform_simulates
  rintro answer handle threaded (rfl | rfl)
  · cases answer
    · exact Or.inl rfl
    · exact Or.inr rfl
  · cases answer <;> exact Or.inr rfl

theorem commit_simulates :
    Simulates (commit (recordedStore store) pool.recorded) (commit store pool) := by
  apply perform_simulates
  intro answer handle threaded either
  cases answer
  · exact either
  · exact Or.inl rfl

theorem rollback_simulates :
    Simulates (rollback (recordedStore store) pool.recorded) (rollback store pool) :=
  perform_simulates fun _ _ _ _ => Or.inl rfl

theorem giveUp_simulates :
    Simulates (giveUp (recordedStore store) pool.recorded) (giveUp store pool) :=
  (rollback_simulates.andThen fun rolledBack =>
    simulates_of_silent false (if rolledBack then [] else [.rollbackFailed])).note .rollback

theorem runTransaction_simulates {recordedOperation : Session (Recorded World Handle) Handle ->
      Outcome (Recorded World Handle) Handle Statement}
    {transaction : Session World Handle -> Outcome World Handle Statement}
    (simulates : Simulates recordedOperation transaction) :
    Simulates (runTransaction (recordedStore store) pool.recorded recordedOperation)
      (runTransaction store pool transaction) := by
  refine begin_simulates.andThen fun begun => ?_
  cases begun with
  | false => exact simulates_of_silent false [.beginFailed]
  | true =>
      simp only [if_true]
      refine simulates.andThen fun accepted => ?_
      cases accepted with
      | false => exact giveUp_simulates
      | true =>
          simp only [if_true]
          refine commit_simulates.andThen fun committed => ?_
          cases committed with
          | false => exact giveUp_simulates.note .commitFailed
          | true => exact simulates_of_silent true []

/-- Whatever a block does, recording changes nothing, and the thread has taken
the handle of its entry and no other. -/
theorem run_simulates (block : Block Statement) :
    Simulates (run (recordedStore store) pool.recorded block) (run store pool block) := by
  induction block with
  | done accepts => exact simulates_of_silent accepts []
  | exec command next inductionHypothesis => exact (exec_simulates command).andThen inductionHypothesis
  | begin next inductionHypothesis => exact begin_simulates.andThen inductionHypothesis
  | commit next inductionHypothesis => exact commit_simulates.andThen inductionHypothesis
  | rollback next inductionHypothesis => exact rollback_simulates.andThen inductionHypothesis
  | runTransaction body next ofBody inductionHypothesis =>
      exact (runTransaction_simulates ofBody).andThen inductionHypothesis
  | runEmbeddedTransaction body next ofBody inductionHypothesis =>
      have embedded : Simulates
          (runEmbeddedTransaction (recordedStore store) pool.recorded
            (run (recordedStore store) pool.recorded body))
          (runEmbeddedTransaction store pool (run store pool body)) := by
        intro recorded session records
        unfold runEmbeddedTransaction
        rw [records.threaded]
        split
        · exact ofBody recorded session records
        · exact runTransaction_simulates ofBody recorded session records
      exact embedded.andThen inductionHypothesis

/-- A recorded transaction is the transaction. -/
theorem recordedTransaction_same (store : TransactionalStore World Handle Statement)
    (pool : Handles World Handle) (block : Block Statement) {session : Session World Handle}
    (outside : session.s_threadedHandle = none) :
    SameOutcome (recordedTransaction store pool block session)
      (runTransaction store pool (run store pool block) session) := by
  apply runTransaction_simulates (run_simulates block)
  refine ⟨rfl, rfl, ?_⟩
  rw [outside]
  exact Paired.nothing

/-! ## Handles -/

@[simp] theorem release_threaded (session : Session World Handle) (handle : Handle) :
    (release pool session handle).s_threadedHandle = session.s_threadedHandle := by
  unfold release
  split <;> rfl

/-- An operation without a handle changes nothing but the pool. -/
theorem perform_eq_none {command : Command Statement}
    {keeps : Bool -> Handle -> Option Handle -> Option Handle} {session session' : Session World Handle}
    (flows : flowOut pool session = (session', none)) :
    perform store pool command keeps session = ⟨session', false, []⟩ := by
  unfold perform
  rw [flows]

theorem perform_eq_some {command : Command Statement}
    {keeps : Bool -> Handle -> Option Handle -> Option Handle} {session session' : Session World Handle}
    {handle : Handle} (flows : flowOut pool session = (session', some handle)) :
    perform store pool command keeps session =
      ⟨release pool
        { session' with
          world := (store.perform command handle session'.world).1
          s_threadedHandle :=
            keeps (store.perform command handle session'.world).2 handle session'.s_threadedHandle }
        handle,
        (store.perform command handle session'.world).2,
        noted store command handle session'.world⟩ := by
  unfold perform
  rw [flows]

omit [DecidableEq Handle] in
/-- The thread's entry stays, and without a handle there is none. -/
theorem flowOut_threaded (session : Session World Handle) :
    (flowOut pool session).1.s_threadedHandle = session.s_threadedHandle ∧
      ((flowOut pool session).2 = none -> session.s_threadedHandle = none) := by
  unfold flowOut
  split
  · exact ⟨rfl, nofun⟩
  · next threaded => exact ⟨rfl, fun _ => threaded⟩

theorem perform_threaded {command : Command Statement}
    {keeps : Bool -> Handle -> Option Handle -> Option Handle} (session : Session World Handle) :
    (perform store pool command keeps session).result = false ∧ session.s_threadedHandle = none ∧
        (perform store pool command keeps session).session.s_threadedHandle = none ∨
      Exists fun handle => (perform store pool command keeps session).session.s_threadedHandle =
        keeps (perform store pool command keeps session).result handle session.s_threadedHandle := by
  have threaded := @flowOut_threaded _ _ pool session
  rcases flows : flowOut pool session with ⟨session', _ | handle⟩
  · rw [flows] at threaded
    rw [perform_eq_none flows]
    exact Or.inl ⟨rfl, threaded.2 rfl, threaded.1.trans (threaded.2 rfl)⟩
  · rw [flows] at threaded
    rw [perform_eq_some flows]
    refine Or.inr ⟨handle, ?_⟩
    rw [release_threaded, ← threaded.1]

theorem giveUp_threaded (session : Session World Handle) :
    (giveUp store pool session).session.s_threadedHandle = none := by
  change (rollback store pool session).session.s_threadedHandle = none
  rcases @perform_threaded _ _ _ _ store pool .rollback (fun _ _ _ => none) session with
    ⟨_, _, gone⟩ | ⟨_, gone⟩
  · exact gone
  · exact gone

/-- A transaction outside of any other leaves the thread without one, whatever
its block does. -/
theorem runTransaction_threaded (transaction : Session World Handle -> Outcome World Handle Statement)
    {session : Session World Handle} (outside : session.s_threadedHandle = none) :
    (runTransaction store pool transaction session).session.s_threadedHandle = none := by
  unfold runTransaction Outcome.andThen
  simp only
  cases begun : (begin store pool session).result with
  | false =>
      simp only [Bool.false_eq_true, if_false]
      rcases @perform_threaded _ _ _ _ store pool .begin
        (fun begun handle threaded => if begun then threaded.or (some handle) else threaded) session with
        ⟨_, _, gone⟩ | ⟨_, same⟩
      · exact gone
      · change (begin store pool session).session.s_threadedHandle =
          if (begin store pool session).result then _ else session.s_threadedHandle at same
        rw [begun] at same
        exact same.trans outside
  | true =>
      simp only [if_true]
      generalize (transaction (begin store pool session).session) = ran
      cases ran.result with
      | false =>
          simp only [Bool.false_eq_true, if_false]
          exact giveUp_threaded ran.session
      | true =>
          simp only [if_true]
          cases committed : (commit store pool ran.session).result with
          | false =>
              simp only [Bool.false_eq_true, if_false]
              exact giveUp_threaded _
          | true =>
              simp only [if_true]
              rcases @perform_threaded _ _ _ _ store pool .commit
                (fun committed _ threaded => if committed then none else threaded) ran.session with
                ⟨failed, _, _⟩ | ⟨_, gone⟩
              · change (commit store pool ran.session).result = false at failed
                rw [failed] at committed
                cases committed
              · change (commit store pool ran.session).session.s_threadedHandle =
                  if (commit store pool ran.session).result then none else _ at gone
                rw [committed] at gone
                exact gone

/-- Whatever its block does and the library and the pool answer, a transaction
outside of any other leaves no entry of the thread, and each handle that the
pool has given out for it has gone back to the pool, before the next and
once. -/
theorem runTransaction_gives_back (store : TransactionalStore World Handle Statement)
    (pool : Handles World Handle) (block : Block Statement) {session : Session World Handle}
    (outside : session.s_threadedHandle = none) :
    (runTransaction store pool (run store pool block) session).session.s_threadedHandle = none ∧
      Paired (poolCalls store pool block session) none ∧
        SameOutcome (recordedTransaction store pool block session)
          (runTransaction store pool (run store pool block) session) := by
  have gone := @runTransaction_threaded _ _ _ _ store pool (run store pool block) _ outside
  have same := recordedTransaction_same store pool block outside
  have paired := same.session.paired
  rw [same.session.threaded, gone] at paired
  exact ⟨gone, paired, same⟩

/-! ## Atomicity -/

end Database

/-- The block leaves beginning, committing and rolling back to
`runTransaction`. -/
def Block.Structured {Statement : Type} : Block Statement -> Prop
  | .done _ => True
  | .exec _ next => forall answer, (next answer).Structured
  | .begin _ | .commit _ | .rollback _ => False
  | .runTransaction body next | .runEmbeddedTransaction body next =>
    body.Structured ∧ forall answer, (next answer).Structured

/-- The statements that the library has executed. -/
def executed {Statement : Type} (notes : List (Note Statement)) : List Statement :=
  notes.filterMap fun
    | .executed statement => some statement
    | _ => none

section Laws

variable {World Handle Statement : Type} (pool : Handles World Handle)
variable (store : TransactionalStore World Handle Statement)

/-- The pool makes nothing durable. -/
structure Handles.KeepsJournal : Prop where
  flowOut : forall world, store.journal (pool.flowOut world).1 = store.journal world
  flowBack : forall handle world, store.journal (pool.flowBack handle world) = store.journal world

/-- What the pool does with open transactions: it begins none, a handle that
it does not insert is closed, which ends the transaction on it, and a handle
that it has inserted is the next that it gives out, as it is, if it gives out
any. -/
structure Handles.KeepsTransactions : Prop where
  flowOut : forall world handle, store.pending world handle = none ->
    store.pending (pool.flowOut world).1 handle = none
  flowBack : forall handle world, store.pending (pool.flowBack handle world) handle =
    if pool.inserts handle world then store.pending world handle else none
  others : forall handle world other, other ≠ handle ->
    store.pending (pool.flowBack handle world) other = store.pending world other
  next : forall handle world, pool.inserts handle world = true ->
    (pool.flowOut (pool.flowBack handle world)).2 = none ∨
      (pool.flowOut (pool.flowBack handle world)).2 = some handle ∧
        store.pending (pool.flowOut (pool.flowBack handle world)).1 handle =
          store.pending world handle

end Laws

namespace Database

variable {World Handle Statement : Type} [DecidableEq Handle]
variable {store : TransactionalStore World Handle Statement} {pool : Handles World Handle}
variable {elsewhere : Handle -> Option (List Statement)}

/-- The thread is in a transaction, and the other handles are as they were. -/
structure Inside (store : TransactionalStore World Handle Statement) (handle : Handle)
    (elsewhere : Handle -> Option (List Statement)) (journal collected : List Statement)
    (session : Session World Handle) : Prop where
  threaded : session.s_threadedHandle = some handle
  ledger : store.ledger session.world handle = ⟨journal, some collected⟩
  others : forall other, other ≠ handle -> store.pending session.world other = elsewhere other

theorem executed_append (first second : List (Note Statement)) :
    executed (first ++ second) = executed first ++ executed second :=
  List.filterMap_append

omit [DecidableEq Handle] in
theorem not_loses {command : Command Statement} {handle : Handle} {world : World}
    (kept : Note.lost ∉ noted store command handle world) :
    store.loses command handle world = false := by
  cases loses : store.loses command handle world with
  | false => rfl
  | true =>
      unfold noted at kept
      rw [loses] at kept
      exact absurd List.mem_cons_self kept

omit [DecidableEq Handle] in
/-- A failed command that does not lose the transaction changes nothing. -/
theorem ledger_of_failed (lawful : store.Lawful) {command : Command Statement} {handle : Handle}
    {world : World} (fails : (store.perform command handle world).2 = false)
    (kept : Note.lost ∉ noted store command handle world) :
    store.ledger (store.perform command handle world).1 handle = store.ledger world handle := by
  have answers := (lawful.answered fails).of_failed
  rcases answers with ⟨journal, same | ⟨inside, ended⟩⟩
  · exact congrArg₂ Ledger.mk journal same
  · have loses := not_loses kept
    change (store.pending world handle).isSome = true at inside
    change store.pending (store.perform command handle world).1 handle = none at ended
    unfold TransactionalStore.loses at loses
    rw [fails, inside, ended] at loses
    cases loses

omit [DecidableEq Handle] in
theorem Inside.flowOut {handle : Handle} {journal collected : List Statement}
    {session : Session World Handle} (inside : Inside store handle elsewhere journal collected session) :
    Database.flowOut pool session = (session, some handle) := by
  unfold Database.flowOut
  rw [inside.threaded]

/-- The thread's own handle does not go back to the pool. -/
theorem release_kept {session : Session World Handle} {handle : Handle}
    (threaded : session.s_threadedHandle = some handle) : release pool session handle = session := by
  unfold release
  rw [if_pos threaded]

/-- A command inside the transaction, without an effect on the entry. -/
theorem Inside.perform (lawful : store.Lawful) {handle : Handle} {journal collected : List Statement}
    {session : Session World Handle} (inside : Inside store handle elsewhere journal collected session)
    {command : Command Statement} {keeps : Bool -> Handle -> Option Handle -> Option Handle}
    (entry : keeps (store.perform command handle session.world).2 handle (some handle) = some handle)
    {collected' : List Statement}
    (ledger : store.ledger (store.perform command handle session.world).1 handle =
      ⟨journal, some collected'⟩) :
    Inside store handle elsewhere journal collected' (perform store pool command keeps session).session := by
  rw [perform_eq_some inside.flowOut, inside.threaded]
  simp only
  rw [release_kept entry]
  refine ⟨entry, ledger, ?_⟩
  intro other different
  exact (lawful.others _ _ _ _ different).trans (inside.others other different)

omit [DecidableEq Handle] in
theorem noted_of_failed {command : Command Statement} {handle : Handle} {world : World}
    (fails : (store.perform command handle world).2 = false)
    (kept : Note.lost ∉ noted store command handle world) : noted store command handle world = [] := by
  have loses := not_loses kept
  unfold noted
  rw [loses, fails]
  cases command <;> rfl

omit [DecidableEq Handle] in
theorem noted_of_executed {statement : Statement} {handle : Handle} {world : World}
    (succeeds : (store.perform (.execute statement) handle world).2 = true) :
    noted store (.execute statement) handle world = [.executed statement] := by
  unfold noted TransactionalStore.loses
  rw [succeeds]
  rfl

/-- Inside the transaction a statement is collected or changes nothing. -/
theorem Inside.exec (lawful : store.Lawful) {handle : Handle} {journal collected : List Statement}
    {session : Session World Handle} (inside : Inside store handle elsewhere journal collected session)
    (command : Command Statement)
    (kept : Note.lost ∉ (Database.exec store pool command session).notes) :
    Inside store handle elsewhere journal (collected ++ executed (Database.exec store pool command session).notes)
        (Database.exec store pool command session).session ∧
      Note.rollbackFailed ∉ (Database.exec store pool command session).notes := by
  have misused : Inside store handle elsewhere journal (collected ++ executed [Note.misuse]) session ∧
      Note.rollbackFailed ∉ [(Note.misuse : Note Statement)] := by
    refine ⟨?_, by simp⟩
    rw [show executed [(Note.misuse : Note Statement)] = [] from rfl, List.append_nil]
    exact inside
  cases command with
  | begin => exact misused
  | commit => exact misused
  | rollback => exact misused
  | execute statement =>
      have notes : (Database.exec store pool (.execute statement) session).notes =
          noted store (.execute statement) handle session.world := by
        change (Database.perform store pool _ _ session).notes = _
        rw [perform_eq_some inside.flowOut]
      rw [notes] at kept ⊢
      have pending : store.pending session.world handle = some collected :=
        congrArg Ledger.pending inside.ledger
      have durable : store.journal session.world = journal := congrArg Ledger.journal inside.ledger
      cases answer : (store.perform (.execute statement) handle session.world).2 with
      | true =>
          rw [noted_of_executed answer]
          refine ⟨inside.perform lawful rfl ?_, by simp⟩
          rcases (lawful.answered answer).of_collected pending with ⟨same, more⟩
          exact congrArg₂ Ledger.mk (same.trans durable) more
      | false =>
          rw [noted_of_failed answer kept]
          refine ⟨inside.perform lawful rfl ?_, by simp⟩
          rw [ledger_of_failed lawful answer kept, inside.ledger]
          exact congrArg (fun all => Ledger.mk journal (some all)) (List.append_nil collected).symm

/-- There is no transaction inside a transaction. -/
theorem Inside.begin (lawful : store.Lawful) {handle : Handle} {journal collected : List Statement}
    {session : Session World Handle} (inside : Inside store handle elsewhere journal collected session)
    (kept : Note.lost ∉ (Database.begin store pool session).notes) :
    (Database.begin store pool session).result = false ∧
      (Database.begin store pool session).notes = [] ∧
      Inside store handle elsewhere journal collected (Database.begin store pool session).session := by
  have performs := @perform_eq_some _ _ _ _ store pool .begin
    (fun begun handle threaded => if begun then threaded.or (some handle) else threaded) _ _ _
    inside.flowOut
  have pending : store.pending session.world handle = some collected :=
    congrArg Ledger.pending inside.ledger
  have notes : (Database.begin store pool session).notes = noted store .begin handle session.world :=
    congrArg Outcome.notes performs
  rw [notes] at kept ⊢
  have answer : (store.perform .begin handle session.world).2 = false := by
    cases answer : (store.perform .begin handle session.world).2 with
    | false => rfl
    | true =>
        have fresh := (lawful.answered answer).of_begun.1
        change store.pending session.world handle = none at fresh
        rw [pending] at fresh
        cases fresh
  refine ⟨(congrArg Outcome.result performs).trans answer, noted_of_failed answer kept, ?_⟩
  apply inside.perform lawful
  · rw [answer]
    rfl
  · rw [ledger_of_failed lawful answer kept]
    exact inside.ledger

/-- Inside a transaction, a structured block only collects statements. -/
theorem Inside.run (lawful : store.Lawful) {block : Block Statement} (structured : block.Structured)
    {handle : Handle} {journal collected : List Statement} {session : Session World Handle}
    (inside : Inside store handle elsewhere journal collected session)
    (kept : Note.lost ∉ (Database.run store pool block session).notes) :
    Inside store handle elsewhere journal (collected ++ executed (Database.run store pool block session).notes)
        (Database.run store pool block session).session ∧
      Note.rollbackFailed ∉ (Database.run store pool block session).notes := by
  -- one operation that only collects, and the rest of the block
  have andThen : forall {first : Outcome World Handle Statement}
      {next : Bool -> Session World Handle -> Outcome World Handle Statement} {collected : List Statement},
      Note.lost ∉ (first.andThen next).notes ->
      (Note.lost ∉ first.notes ->
        Inside store handle elsewhere journal (collected ++ executed first.notes) first.session ∧
          Note.rollbackFailed ∉ first.notes) ->
      (forall answer collected session, Inside store handle elsewhere journal collected session ->
        Note.lost ∉ (next answer session).notes ->
        Inside store handle elsewhere journal (collected ++ executed (next answer session).notes)
            (next answer session).session ∧ Note.rollbackFailed ∉ (next answer session).notes) ->
      Inside store handle elsewhere journal (collected ++ executed (first.andThen next).notes)
          (first.andThen next).session ∧ Note.rollbackFailed ∉ (first.andThen next).notes := by
    intro first next collected kept ofFirst ofNext
    unfold Outcome.andThen at kept ⊢
    simp only [List.mem_append, not_or] at kept ⊢
    rcases ofFirst kept.1 with ⟨between, quiet⟩
    rcases ofNext _ _ _ between kept.2 with ⟨after, silent⟩
    rw [executed_append, ← List.append_assoc]
    exact ⟨after, quiet, silent⟩
  induction block generalizing collected session with
  | done accepts =>
      unfold Database.run
      rw [show executed ([] : List (Note Statement)) = [] from rfl, List.append_nil]
      exact ⟨inside, List.not_mem_nil⟩
  | exec command next inductionHypothesis =>
      exact andThen kept (fun kept => inside.exec lawful command kept)
        fun answer _ _ inside kept => inductionHypothesis answer (structured answer) inside kept
  | begin next inductionHypothesis => exact structured.elim
  | commit next inductionHypothesis => exact structured.elim
  | rollback next inductionHypothesis => exact structured.elim
  | runTransaction body next ofBody inductionHypothesis =>
      refine andThen kept (fun kept => ?_)
        fun answer _ _ inside kept => inductionHypothesis answer (structured.2 answer) inside kept
      unfold runTransaction Outcome.andThen at kept ⊢
      simp only [List.mem_append, not_or] at kept ⊢
      rcases inside.begin lawful kept.1 with ⟨refused, silent, still⟩
      rw [refused, silent]
      refine ⟨?_, by simp⟩
      simp only [Bool.false_eq_true, if_false]
      rw [show executed ([] ++ [(Note.beginFailed : Note Statement)]) = [] from rfl, List.append_nil]
      exact still
  | runEmbeddedTransaction body next ofBody inductionHypothesis =>
      refine andThen kept (fun kept => ?_)
        fun answer _ _ inside kept => inductionHypothesis answer (structured.2 answer) inside kept
      unfold runEmbeddedTransaction at kept ⊢
      rw [if_pos (by rw [inside.threaded]; rfl)] at kept ⊢
      exact ofBody structured.1 inside kept

/-- What a transaction leaves behind. -/
structure Ended (store : TransactionalStore World Handle Statement) (handle : Handle)
    (elsewhere : Handle -> Option (List Statement)) (ledger : Ledger Statement) (world : World) : Prop where
  ledger : store.ledger world handle = ledger
  others : forall other, other ≠ handle -> store.pending world other = elsewhere other

/-- The handle has gone back to the pool from a world that the transaction has
left so. -/
def GivenBack (store : TransactionalStore World Handle Statement) (pool : Handles World Handle)
    (handle : Handle) (elsewhere : Handle -> Option (List Statement)) (ledger : Ledger Statement)
    (world : World) : Prop :=
  Exists fun last => world = pool.flowBack handle last ∧ Ended store handle elsewhere ledger last

/-- A last command of a transaction, after which the handle goes back. -/
theorem Inside.givesBack (lawful : store.Lawful) {handle : Handle}
    {journal collected : List Statement} {session : Session World Handle}
    (inside : Inside store handle elsewhere journal collected session) {command : Command Statement}
    {keeps : Bool -> Handle -> Option Handle -> Option Handle}
    (gone : keeps (store.perform command handle session.world).2 handle (some handle) = none) :
    GivenBack store pool handle elsewhere
      (store.ledger (store.perform command handle session.world).1 handle)
      (Database.perform store pool command keeps session).session.world := by
  rw [perform_eq_some inside.flowOut, inside.threaded]
  simp only
  rw [gone, release, if_neg nofun]
  refine ⟨_, rfl, rfl, ?_⟩
  intro other different
  exact (lawful.others command _ _ _ different).trans (inside.others other different)

omit [DecidableEq Handle] in
theorem executed_noted_rollback (handle : Handle) (world : World) :
    executed (noted store .rollback handle world) = [] := by
  unfold noted
  split <;> rfl

theorem Inside.giveUp (lawful : store.Lawful) {handle : Handle}
    {journal collected : List Statement} {session : Session World Handle}
    (inside : Inside store handle elsewhere journal collected session)
    (kept : Note.lost ∉ (Database.giveUp store pool session).notes) :
    executed (Database.giveUp store pool session).notes = [] ∧
      (GivenBack store pool handle elsewhere ⟨journal, none⟩
            (Database.giveUp store pool session).session.world ∧
          Note.rollbackFailed ∉ (Database.giveUp store pool session).notes ∨
        GivenBack store pool handle elsewhere ⟨journal, some collected⟩
            (Database.giveUp store pool session).session.world ∧
          Note.rollbackFailed ∈ (Database.giveUp store pool session).notes) := by
  have ends := @Inside.givesBack _ _ _ _ store pool _ lawful _ _ _ _ inside .rollback
    (fun _ _ _ => none) rfl
  have performs := @perform_eq_some _ _ _ _ store pool .rollback (fun _ _ _ => none) _ _ _ inside.flowOut
  have result : (Database.rollback store pool session).result =
      (store.perform .rollback handle session.world).2 := congrArg Outcome.result performs
  have notes : (Database.rollback store pool session).notes =
      noted store .rollback handle session.world := congrArg Outcome.notes performs
  have nothing : executed (Database.giveUp store pool session).notes = [] := by
    change executed ((Database.rollback store pool session).notes ++
      if (Database.rollback store pool session).result then [] else [.rollbackFailed]) = []
    rw [notes, executed_append, executed_noted_rollback]
    split <;> rfl
  refine ⟨nothing, ?_⟩
  unfold Database.giveUp Outcome.note Outcome.andThen at kept ⊢
  simp only [List.mem_cons, List.mem_append, not_or] at kept ⊢
  rw [notes] at kept ⊢
  rw [result]
  change GivenBack store pool handle elsewhere _ (Database.rollback store pool session).session.world
    at ends
  cases answer : (store.perform .rollback handle session.world).2 with
  | true =>
      refine Or.inl ⟨?_, ?_⟩
      · have rolledBack := (lawful.answered answer).of_rolledBack
        have ledger : store.ledger (store.perform .rollback handle session.world).1 handle =
            ⟨journal, none⟩ :=
          congrArg₂ Ledger.mk (rolledBack.1.trans (congrArg Ledger.journal inside.ledger)) rolledBack.2
        rwa [ledger] at ends
      · unfold noted TransactionalStore.loses
        rw [answer]
        simp
  | false =>
      refine Or.inr ⟨?_, by simp⟩
      rw [ledger_of_failed lawful answer kept.2.1, inside.ledger] at ends
      exact ends

/-- A commit makes everything durable, or the transaction goes on. -/
theorem Inside.commit (lawful : store.Lawful) {handle : Handle}
    {journal collected : List Statement} {session : Session World Handle}
    (inside : Inside store handle elsewhere journal collected session)
    (kept : Note.lost ∉ (Database.commit store pool session).notes) :
    (Database.commit store pool session).notes = [] ∧
      ((Database.commit store pool session).result = true ∧
          GivenBack store pool handle elsewhere ⟨journal ++ collected, none⟩
            (Database.commit store pool session).session.world ∨
        (Database.commit store pool session).result = false ∧
          Inside store handle elsewhere journal collected
            (Database.commit store pool session).session) := by
  have performs := @perform_eq_some _ _ _ _ store pool .commit
    (fun committed _ threaded => if committed then none else threaded) _ _ _ inside.flowOut
  have result : (Database.commit store pool session).result =
      (store.perform .commit handle session.world).2 := congrArg Outcome.result performs
  have notes : (Database.commit store pool session).notes =
      noted store .commit handle session.world := congrArg Outcome.notes performs
  rw [notes] at kept ⊢
  rw [result]
  cases answer : (store.perform .commit handle session.world).2 with
  | true =>
      refine ⟨?_, Or.inl ⟨rfl, ?_⟩⟩
      · unfold noted TransactionalStore.loses
        rw [answer]
        rfl
      · rcases (lawful.answered answer).of_committed with ⟨all, pending, durable, closed⟩
        rw [inside.ledger] at pending durable
        cases pending
        have ledger : store.ledger (store.perform .commit handle session.world).1 handle =
            ⟨journal ++ collected, none⟩ := congrArg₂ Ledger.mk durable closed
        rw [← ledger]
        exact inside.givesBack lawful (by rw [answer]; rfl)
  | false =>
      refine ⟨noted_of_failed answer kept, Or.inr ⟨rfl, ?_⟩⟩
      apply inside.perform lawful
      · rw [answer]
        rfl
      · rw [ledger_of_failed lawful answer kept]
        exact inside.ledger

/-- Outside of a transaction, a begin without a handle does nothing, one that
fails gives its handle back as it was, and one that succeeds opens a
transaction on a handle that had none. -/
theorem begin_outside (lawful : store.Lawful) {session : Session World Handle}
    (outside : session.s_threadedHandle = none)
    (kept : Note.lost ∉ (begin store pool session).notes) :
    (begin store pool session).notes = [] ∧
      ((begin store pool session).result = false ∧
          ((begin store pool session).session.world = (pool.flowOut session.world).1 ∨
            Exists fun handle => GivenBack store pool handle
              (store.pending (pool.flowOut session.world).1)
              (store.ledger (pool.flowOut session.world).1 handle)
              (begin store pool session).session.world) ∨
        Exists fun handle => (begin store pool session).result = true ∧
          store.pending (pool.flowOut session.world).1 handle = none ∧
          Inside store handle (store.pending (pool.flowOut session.world).1)
            (store.journal (pool.flowOut session.world).1) [] (begin store pool session).session) := by
  have flows : flowOut pool session =
      ({ session with world := (pool.flowOut session.world).1 }, (pool.flowOut session.world).2) := by
    unfold Database.flowOut
    rw [outside]
  revert flows
  rcases pool.flowOut session.world with ⟨world, _ | handle⟩ <;> intro flows
  · have performs := @perform_eq_none _ _ _ _ store pool .begin
      (fun begun handle threaded => if begun then threaded.or (some handle) else threaded) _ _ flows
    change begin store pool session = _ at performs
    rw [performs]
    exact ⟨rfl, Or.inl ⟨rfl, Or.inl rfl⟩⟩
  · have performs := @perform_eq_some _ _ _ _ store pool .begin
      (fun begun handle threaded => if begun then threaded.or (some handle) else threaded) _ _ _ flows
    change begin store pool session = _ at performs
    rw [performs] at kept ⊢
    simp only [outside] at kept ⊢
    cases answer : (store.perform .begin handle world).2 with
    | true =>
        rcases (lawful.answered answer).of_begun with ⟨fresh, stays, opened⟩
        refine ⟨?_, Or.inr ⟨handle, rfl, fresh, ?_⟩⟩
        · unfold noted TransactionalStore.loses
          rw [answer]
          rfl
        · simp only [if_true, Option.none_or]
          rw [release_kept rfl]
          refine ⟨rfl, congrArg₂ Ledger.mk stays opened, ?_⟩
          intro other different
          exact lawful.others _ _ _ _ different
    | false =>
        refine ⟨noted_of_failed answer kept, Or.inl ⟨rfl, Or.inr ⟨handle, ?_⟩⟩⟩
        simp only [Bool.false_eq_true, if_false]
        rw [release, if_neg nofun]
        refine ⟨_, rfl, ledger_of_failed lawful answer kept, ?_⟩
        intro other different
        exact lawful.others _ _ _ _ different

/-- The ways in which a transaction outside of any other can end. -/
theorem runTransaction_outside (lawful : store.Lawful) {block : Block Statement}
    (structured : block.Structured) {session : Session World Handle}
    (outside : session.s_threadedHandle = none) {outcome : Outcome World Handle Statement}
    (ran : runTransaction store pool (run store pool block) session = outcome)
    (kept : Note.lost ∉ outcome.notes) {taken : World} (flows : (pool.flowOut session.world).1 = taken) :
    outcome.result = false ∧ Note.rollbackFailed ∉ outcome.notes ∧
        (outcome.session.world = taken ∨
          Exists fun handle => GivenBack store pool handle (store.pending taken)
            (store.ledger taken handle) outcome.session.world) ∨
      Exists fun handle => store.pending taken handle = none ∧
        ((outcome.result = true ∧ Note.rollbackFailed ∉ outcome.notes ∧
            GivenBack store pool handle (store.pending taken)
              ⟨store.journal taken ++ executed outcome.notes, none⟩ outcome.session.world) ∨
          (outcome.result = false ∧ Note.rollbackFailed ∉ outcome.notes ∧
            GivenBack store pool handle (store.pending taken) ⟨store.journal taken, none⟩
              outcome.session.world) ∨
          (outcome.result = false ∧ Note.rollbackFailed ∈ outcome.notes ∧
            GivenBack store pool handle (store.pending taken)
              ⟨store.journal taken, some (executed outcome.notes)⟩ outcome.session.world)) := by
  subst ran flows
  unfold runTransaction Outcome.andThen at kept ⊢
  simp only [List.mem_append, not_or] at kept ⊢
  rcases begin_outside lawful outside kept.1 with
    ⟨silent, ⟨failed, unchanged⟩ | ⟨handle, begun, fresh, inside⟩⟩
  · rw [failed, silent]
    simp only [Bool.false_eq_true, if_false]
    exact Or.inl ⟨trivial, by simp, unchanged⟩
  · rw [begun] at kept ⊢
    rw [silent]
    simp only [if_true, List.mem_append, not_or, List.nil_append] at kept ⊢
    rcases inside.run lawful structured kept.2.1 with ⟨within, quiet⟩
    refine Or.inr ⟨handle, fresh, ?_⟩
    revert kept within quiet
    generalize run store pool block (begin store pool session).session = ran
    intro kept within quiet
    rw [List.nil_append] at within
    cases accepted : ran.result with
    | false =>
        simp only [accepted, Bool.false_eq_true, if_false] at kept ⊢
        rcases within.giveUp lawful kept.2.2 with ⟨nothing, ⟨ended, silent⟩ | ⟨ended, failed⟩⟩
        · exact Or.inr (Or.inl ⟨rfl, by simp [quiet, silent], ended⟩)
        · refine Or.inr (Or.inr ⟨rfl, by simp [failed], ?_⟩)
          rw [executed_append, nothing, List.append_nil]
          exact ended
    | true =>
        simp only [accepted, if_true, List.mem_append, not_or] at kept ⊢
        rcases within.commit lawful kept.2.2.1 with ⟨silent, ⟨committed, ended⟩ | ⟨failed, still⟩⟩
        · rw [committed, silent]
          simp only [if_true, List.append_nil] at ended ⊢
          exact Or.inl ⟨trivial, by simpa using quiet, ended⟩
        · rw [failed] at kept ⊢
          rw [silent]
          simp only [Bool.false_eq_true, if_false, List.nil_append] at kept ⊢
          have kept' : Note.lost ∉ (giveUp store pool (commit store pool ran.session).session).notes :=
            fun lost => kept.2.2.2 (List.mem_cons_of_mem _ lost)
          rcases still.giveUp lawful kept' with ⟨nothing, ⟨ended, silent⟩ | ⟨ended, failed⟩⟩
          · exact Or.inr (Or.inl ⟨rfl, by simp [Outcome.note, quiet, silent], ended⟩)
          · refine Or.inr (Or.inr ⟨rfl, by simp [Outcome.note, failed], ?_⟩)
            have noted : executed (Outcome.note .commitFailed
                (giveUp store pool (commit store pool ran.session).session)).notes = [] := nothing
            rw [executed_append, noted, List.append_nil]
            exact ended

omit [DecidableEq Handle] in
theorem GivenBack.journal {handle : Handle} {ledger : Ledger Statement} {world : World}
    (keeps : pool.KeepsJournal store) (given : GivenBack store pool handle elsewhere ledger world) :
    store.journal world = ledger.journal := by
  rcases given with ⟨last, rfl, ended⟩
  exact (keeps.flowBack handle last).trans (congrArg Ledger.journal ended.ledger)

/-- Unless an error ends the transaction in between, a transaction makes all
that its block has executed durable, with the transactions inside of it, or
nothing, and its answer tells which. -/
theorem runTransaction_atomic (lawful : store.Lawful) (keeps : pool.KeepsJournal store)
    {block : Block Statement} (structured : block.Structured) {session : Session World Handle}
    (outside : session.s_threadedHandle = none)
    (kept : Note.lost ∉ (runTransaction store pool (run store pool block) session).notes) :
    store.journal (runTransaction store pool (run store pool block) session).session.world =
      if (runTransaction store pool (run store pool block) session).result then
        store.journal session.world ++
          executed (runTransaction store pool (run store pool block) session).notes
      else store.journal session.world := by
  have before := keeps.flowOut session.world
  rcases runTransaction_outside lawful structured outside rfl kept rfl with
    ⟨failed, _, none | ⟨handle, given⟩⟩ | ⟨handle, _, ⟨committed, _, given⟩ | ⟨failed, _, given⟩ |
      ⟨failed, _, given⟩⟩
  · rw [failed, none]
    exact before
  · rw [failed]
    exact (given.journal keeps).trans before
  · rw [committed, given.journal keeps, before]
    rfl
  · rw [failed]
    exact (given.journal keeps).trans before
  · rw [failed]
    exact (given.journal keeps).trans before

/-- A handle that goes back without a transaction leaves none. -/
theorem GivenBack.nothingLeft {handle : Handle} {ledger : Ledger Statement} {world : World}
    (keeps : pool.KeepsTransactions store) (given : GivenBack store pool handle elsewhere ledger world)
    (closed : ledger.pending = none) (fresh : forall other, elsewhere other = none) :
    forall other, store.pending world other = none := by
  rcases given with ⟨last, rfl, ended⟩
  intro other
  by_cases here : other = handle
  · have pending : store.pending last handle = none := (congrArg Ledger.pending ended.ledger).trans closed
    rw [here, keeps.flowBack handle last, pending]
    split <;> rfl
  · exact (keeps.others handle last other here).trans ((ended.others other here).trans (fresh other))

/-- The handle is in a transaction that has collected the statements, and it
is the next that the pool gives out, if the pool gives out any. -/
def HandedOn (store : TransactionalStore World Handle Statement) (pool : Handles World Handle)
    (collected : List Statement) (world : World) (handle : Handle) : Prop :=
  store.pending world handle = some collected ∧
    ((pool.flowOut world).2 = none ∨
      (pool.flowOut world).2 = some handle ∧
        store.pending (pool.flowOut world).1 handle = some collected)

/-- A handle that goes back in a transaction stays in it exactly if the pool
takes it, and then it is handed on. -/
theorem handedOn_of_ended (keeps : pool.KeepsTransactions store) {handle : Handle} {last : World}
    {journal collected : List Statement}
    (ended : Ended store handle elsewhere ⟨journal, some collected⟩ last)
    (fresh : forall other, elsewhere other = none) :
    ((Exists fun other => store.pending (pool.flowBack handle last) other ≠ none) ↔
      pool.inserts handle last = true) ∧
    forall other, store.pending (pool.flowBack handle last) other ≠ none ->
      HandedOn store pool collected (pool.flowBack handle last) other := by
  have pending : store.pending last handle = some collected := congrArg Ledger.pending ended.ledger
  have only : forall other, store.pending (pool.flowBack handle last) other ≠ none ->
      other = handle ∧ pool.inserts handle last = true := by
    intro other opened
    by_cases here : other = handle
    · refine ⟨here, ?_⟩
      rw [here, keeps.flowBack handle last] at opened
      by_contra refused
      rw [if_neg refused] at opened
      exact opened rfl
    · exact absurd ((keeps.others handle last other here).trans
        ((ended.others other here).trans (fresh other))) opened
  refine ⟨⟨fun ⟨other, opened⟩ => (only other opened).2, fun inserted => ⟨handle, ?_⟩⟩, ?_⟩
  · rw [keeps.flowBack handle last, if_pos inserted, pending]
    exact nofun
  · intro other opened
    rcases only other opened with ⟨rfl, inserted⟩
    have next := keeps.next other last inserted
    rw [pending] at next
    refine ⟨?_, next⟩
    rw [keeps.flowBack other last, if_pos inserted, pending]

omit [DecidableEq Handle] in
/-- The record of a handle that has gone back ends with it. -/
theorem GivenBack.erased {handle : Handle} {ledger : Ledger Statement}
    {recorded : Recorded World Handle}
    (given : GivenBack (recordedStore store) pool.recorded handle elsewhere ledger recorded) :
    Exists fun last => recorded.world = pool.flowBack handle last ∧
      Ended store handle elsewhere ledger last ∧
      recorded.calls.getLast? = some (.flowedBack handle (pool.inserts handle last)) := by
  rcases given with ⟨last, rfl, ended⟩
  exact ⟨last.world, rfl, ⟨ended.ledger, ended.others⟩, List.getLast?_concat⟩

/-- Unless an error ends the transaction in between, a handle is left inside of
a transaction exactly if a rollback has failed and the pool has taken the
handle back at the end; the transaction has collected what the block has
executed, and the handle is handed on with it. -/
theorem left_in_transaction_iff (lawful : store.Lawful) (keeps : pool.KeepsTransactions store)
    {block : Block Statement} (structured : block.Structured) {session : Session World Handle}
    (outside : session.s_threadedHandle = none)
    (fresh : forall handle, store.pending session.world handle = none)
    {outcome : Outcome World Handle Statement}
    (ran : runTransaction store pool (run store pool block) session = outcome)
    (kept : Note.lost ∉ outcome.notes) :
    ((Exists fun handle => store.pending outcome.session.world handle ≠ none) ↔
      Note.rollbackFailed ∈ outcome.notes ∧ Exists fun handle =>
        (poolCalls store pool block session).getLast? = some (.flowedBack handle true)) ∧
    forall handle, store.pending outcome.session.world handle ≠ none ->
      HandedOn store pool (executed outcome.notes) outcome.session.world handle := by
  have same := recordedTransaction_same store pool block outside
  rw [ran] at same
  have freshTaken : forall handle,
      store.pending (pool.recorded.flowOut ⟨session.world, []⟩).1.world handle = none := by
    have taken : (pool.recorded.flowOut ⟨session.world, []⟩).1.world =
        (pool.flowOut session.world).1 := by
      unfold Handles.recorded
      simp only
      rcases pool.flowOut session.world with ⟨world, _ | handle⟩ <;> rfl
    intro handle
    rw [taken]
    exact keeps.flowOut session.world handle (fresh handle)
  have world := same.session.world
  -- a world without an open transaction
  have nothing : (forall other, store.pending outcome.session.world other = none) ->
      Note.rollbackFailed ∉ outcome.notes ->
      ((Exists fun handle => store.pending outcome.session.world handle ≠ none) ↔
        Note.rollbackFailed ∈ outcome.notes ∧ Exists fun handle =>
          (poolCalls store pool block session).getLast? = some (.flowedBack handle true)) ∧
      forall handle, store.pending outcome.session.world handle ≠ none ->
        HandedOn store pool (executed outcome.notes) outcome.session.world handle := by
    intro closed quiet
    exact ⟨iff_of_false (fun ⟨other, opened⟩ => opened (closed other)) fun failed => quiet failed.1,
      fun other opened => absurd (closed other) opened⟩
  -- whatever goes back without a transaction
  have closed : forall {handle : Handle} {ledger : Ledger Statement},
      GivenBack (recordedStore store) pool.recorded handle
        ((recordedStore store).pending (pool.recorded.flowOut ⟨session.world, []⟩).1) ledger
        (recordedTransaction store pool block session).session.world ->
      ledger.pending = none -> forall other, store.pending outcome.session.world other = none := by
    intro handle ledger given ended
    rcases given.erased with ⟨last, back, left, _⟩
    rw [← world, back]
    exact GivenBack.nothingLeft keeps ⟨last, rfl, left⟩ ended freshTaken
  have keptRecorded := kept
  rw [← same.notes] at keptRecorded
  have ends := @runTransaction_outside _ _ _ _ (recordedStore store) pool.recorded
    (recordedStore_lawful lawful) block structured ⟨⟨session.world, []⟩, session.s_threadedHandle⟩ outside
    (recordedTransaction store pool block session) rfl keptRecorded _ rfl
  rw [same.notes] at ends
  rcases ends with ⟨_, quiet, none | ⟨handle, given⟩⟩ | ⟨handle, _, ⟨_, quiet, given⟩ |
    ⟨_, quiet, given⟩ | ⟨_, failed, given⟩⟩
  · rw [none] at world
    exact nothing (world ▸ freshTaken) quiet
  · exact nothing (closed given (freshTaken handle)) quiet
  · exact nothing (closed given rfl) quiet
  · exact nothing (closed given rfl) quiet
  · rcases given.erased with ⟨last, back, ended, recorded⟩
    have left := handedOn_of_ended keeps ended freshTaken
    rw [← back, world] at left
    refine ⟨left.1.trans ?_, left.2⟩
    rw [poolCalls, recorded]
    constructor
    · intro inserted
      rw [inserted]
      exact ⟨failed, handle, rfl⟩
    · rintro ⟨_, other, same⟩
      exact (PoolCall.flowedBack.inj (Option.some.inj same)).2

/-! ## A scripted library -/

/-- A pool with one handle. -/
def oneHandle {World : Type} : Handles World Unit :=
  ⟨fun world => (world, some ()), fun _ world => world, fun _ _ => true⟩

section OneHandle

variable {World Statement : Type} (store : TransactionalStore World Unit Statement)

theorem oneHandle_keepsJournal : oneHandle.KeepsJournal store :=
  ⟨fun _ => rfl, fun _ _ => rfl⟩

theorem oneHandle_keepsTransactions : oneHandle.KeepsTransactions store where
  flowOut _ _ closed := closed
  flowBack _ _ := rfl
  others _ _ _ _ := rfl
  next _ _ _ := Or.inr ⟨rfl, rfl⟩

end OneHandle

/-- Two statements in transactions inside, of which only an embedded one
begins. -/
def nestedBlock : Block Nat :=
  .exec (.execute 1) fun _ =>
    .runTransaction (.exec (.execute 2) .done) fun _ =>
      .runEmbeddedTransaction (.exec (.execute 3) .done) .done

theorem nestedBlock_structured : nestedBlock.Structured :=
  fun _ => ⟨fun _ => trivial, fun _ => ⟨fun _ => trivial, fun _ => trivial⟩⟩

/-- A library that refuses the commands of a list. -/
def scriptedSession (refusals : List Bool) :
    Session (TransactionalStore.Scripted Unit Nat) Unit :=
  ⟨⟨[], fun _ => none, refusals⟩, none⟩

/-- The transaction takes one handle, and those inside of it take none. -/
theorem runTransaction_gives_back_nested :
    poolCalls TransactionalStore.scripted oneHandle nestedBlock (scriptedSession []) =
        [.flowedOut (), .flowedBack () true] ∧
      Paired (poolCalls TransactionalStore.scripted oneHandle nestedBlock (scriptedSession [])) none :=
  ⟨by decide, (runTransaction_gives_back TransactionalStore.scripted oneHandle nestedBlock rfl).2.1⟩

theorem runTransaction_atomic_nested :
    TransactionalStore.scripted.journal
      (runTransaction TransactionalStore.scripted oneHandle
        (run TransactionalStore.scripted oneHandle nestedBlock) (scriptedSession [])).session.world =
      [1, 3] :=
  (@runTransaction_atomic _ _ _ _ TransactionalStore.scripted oneHandle
    TransactionalStore.scripted_lawful (oneHandle_keepsJournal _) nestedBlock nestedBlock_structured
    (scriptedSession []) rfl (by decide)).trans (by decide)

/-- The library refuses to commit and to roll back. -/
theorem left_in_transaction_refused :
    HandedOn TransactionalStore.scripted oneHandle [1]
      (runTransaction TransactionalStore.scripted oneHandle
        (run TransactionalStore.scripted oneHandle (.exec (.execute 1) .done))
        (scriptedSession [false, false, true, true])).session.world () := by
  have left := @left_in_transaction_iff _ _ _ _ TransactionalStore.scripted oneHandle
    TransactionalStore.scripted_lawful (oneHandle_keepsTransactions _) (.exec (.execute 1) .done)
    (fun _ => trivial) (scriptedSession [false, false, true, true]) rfl (fun _ => rfl) _ rfl (by decide)
  rcases left.1.mpr ⟨by decide, (), by decide⟩ with ⟨handle, opened⟩
  exact left.2 handle opened

end Database
end WCDB
end HowBigDemo
