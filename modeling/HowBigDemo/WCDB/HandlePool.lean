import Mathlib.Algebra.Order.BigOperators.Group.List
import Mathlib.Algebra.Order.Group.Int
import HowBigDemo.WCDB.RWLock

namespace HowBigDemo
namespace WCDB

open Library

/-!
# The pool of database handles

A `HandlePool` keeps the open handles of one database file.  A caller takes a
handle with `flowOut` and gives it back when its last reference goes; `drain`
closes the free handles while nobody has one.  Every call is cut into the
steps that other threads may fall between: a lock or unlock, one operation on
the list of free handles, one read or write of the counter or of the
configurations, and one run of the database library.

A call here is a sequence of such steps and not a thread of the program: a
handle may be released by another thread than the one that took it.  The lock
is left by those that hold it; an `unblockade` without a `blockade` is no
event.
-/

/-- An open handle, known by the order in which the handles were opened, and
the configurations last applied to it. -/
structure HandleWrap where
  handle : Nat
  configs : Nat
  deriving DecidableEq

inductive Operation
  | flowOut
  | fillOne
  | purgeFreeHandles
  | drain
  | blockade
  deriving DecidableEq

def Operation.mode : Operation -> LockMode
  | .flowOut | .fillOne | .purgeFreeHandles => .read
  | .drain | .blockade => .write

/-- Where a call stands, named by what it does next. -/
inductive Call
  | idle
  /-- In `lockRead` or `lockWrite`. -/
  | locking (operation : Operation)
  /-- `popBack` in `flowOut`. -/
  | popping
  /-- The comparison with `s_maxConcurrency`. -/
  | counting
  /-- `generate` copies the configurations, opens a handle and applies them. -/
  | generating (operation : Operation)
  | opening (operation : Operation) (configs : Nat)
  /-- The increment in `flowOut`. -/
  | generated (wrap : HandleWrap)
  /-- `invoke` copies the configurations and applies them if they differ. -/
  | comparing (wrap : HandleWrap)
  | invoking (wrap : HandleWrap) (configs : Nat)
  /-- The caller has the handle; `flowBack` begins when the last reference goes. -/
  | out (wrap : HandleWrap)
  /-- `flowBack` has pushed the handle or found the list full; its `unlockRead`. -/
  | returned (wrap : HandleWrap) (inserted : Bool)
  /-- The decrement at the end of `flowBack`. -/
  | dropping (wrap : HandleWrap)
  /-- `pushBack` and the increment in `fillOne`, and its `unlockRead`. -/
  | filling (wrap : HandleWrap)
  | filled (wrap : HandleWrap)
  | leaving (wrap : HandleWrap) (inserted : Bool)
  /-- The reference of the call goes.  If the list has not taken the handle, it
  is the last one and closes the handle. -/
  | releasing (wrap : HandleWrap) (inserted : Bool)
  /-- `purgeFreeHandles` and `drain` clear the list and then subtract. -/
  | clearing (mode : LockMode)
  | cleared (mode : LockMode) (size : Nat)
  /-- The last `unlockRead` of a call that leaves without a handle. -/
  | unlocking
  /-- `onDrained` runs, then `unlockWrite`. -/
  | draining
  /-- Until `unblockade`. -/
  | blockading
  deriving DecidableEq

/-- The lock as the call sees it. -/
def Call.activity : Call -> Activity LockMode
  | .idle | .dropping _ | .releasing _ _ => .outside
  | .locking operation => .waiting operation.mode true
  | .clearing mode | .cleared mode _ => .holding mode
  | .draining | .blockading => .holding .write
  | _ => .holding .read

/-- The handle that the call alone refers to. -/
def Call.wrap : Call -> Option HandleWrap
  | .generated wrap | .comparing wrap | .invoking wrap _ | .out wrap | .filling wrap
  | .returned wrap false | .dropping wrap | .leaving wrap false | .releasing wrap false => some wrap
  | _ => none

/-- The handle that the call refers to, though the list may have it as well
and give it to others. -/
def Call.refers : Call -> Option HandleWrap
  | .returned wrap true | .filled wrap | .leaving wrap true | .releasing wrap true => some wrap
  | call => call.wrap

def Call.has (handle : Nat) (call : Call) : Bool :=
  decide (call.wrap.map HandleWrap.handle = some handle)

/-- By how much the counter exceeds the free handles on account of the call. -/
def Call.weight : Call -> Int
  | .comparing _ | .invoking _ _ | .out _ | .returned _ false | .dropping _ => 1
  | .filled _ => -1
  | .cleared _ size => size
  | _ => 0

/-- The call has closed the free handles and still keeps others out. -/
def Call.emptied : Call -> Bool
  | .cleared .write _ | .draining => true
  | _ => false

/-- A call has copied no configurations that are older than a version. -/
def Call.configuredSince (version : Nat) : Call -> Prop
  | .invoking _ configs => version ≤ configs
  | .out wrap => version ≤ wrap.configs
  | _ => True

/-- The first step under the lock. -/
def Operation.begin : Operation -> Call
  | .flowOut => .popping
  | .fillOne => .generating .fillOne
  | .purgeFreeHandles => .clearing .read
  | .drain => .clearing .write
  | .blockade => .blockading

/-- The end of `generate` with a handle. -/
def Operation.opened : Operation -> HandleWrap -> Call
  | .fillOne, wrap => .filling wrap
  | _, wrap => .generated wrap

structure HandlePool where
  m_rwlock : RWLock.Threads
  calls : List Call
  m_handles : List HandleWrap
  /-- An `std::atomic<int>`, which stays within its bounds while fewer than
  2^31 handles are opened. -/
  m_aliveHandleCount : Int
  /-- Each `setConfig` leaves another list of configurations. -/
  m_configs : Nat
  /-- The number of handles opened so far. -/
  opened : Nat

inductive PoolEvent
  | start
  | begin (call : Nat) (operation : Operation)
  /-- The next step of a call; the database library succeeds or fails in it. -/
  | proceed (call : Nat) (succeeds : Bool)
  | setConfig

inductive Answer
  | flowedOut (call : Nat) (wrap : HandleWrap)
  /-- `flowOut` without a handle: too many are alive. -/
  | exceeded (call : Nat)
  /-- `generate` failed. -/
  | notGenerated (call : Nat)
  /-- `invoke` failed. -/
  | notInvoked (call : Nat)
  /-- What `isDrained` says in the callback of `drain`. -/
  | onDrained (call : Nat) (isDrained : Bool)
  deriving DecidableEq

namespace HandlePool

def s_maxConcurrency : Int := 64

def initial : HandlePool := ⟨RWLock.start, [], [], 0, 0, 0⟩

def isDrained (pool : HandlePool) : Bool :=
  decide (pool.m_aliveHandleCount = 0)

def advance (pool : HandlePool) (index : Nat) (call : Call) : HandlePool :=
  { pool with calls := pool.calls.set index call }

/-- A call asks for the lock, or checks again. -/
def lock (pool : HandlePool) (index : Nat) (operation : Operation)
    (event : MonitorEvent LockMode) : HandlePool :=
  let threads := RWLock.monitor.system.next pool.m_rwlock event
  { pool with
    m_rwlock := threads
    calls := pool.calls.set index
      (if threads.threads[index]? = some (.holding operation.mode) then operation.begin
        else .locking operation) }

def unlock (pool : HandlePool) (index : Nat) (call : Call) : HandlePool :=
  { pool with
    m_rwlock := RWLock.monitor.system.next pool.m_rwlock (.leave index)
    calls := pool.calls.set index call }

/-- `ConcurrentList::pushBack`; the call goes on knowing whether it inserted. -/
def pushBack (pool : HandlePool) (s_hardwareConcurrency : Nat) (index : Nat) (wrap : HandleWrap)
    (next : Bool -> Call) : HandlePool :=
  if pool.m_handles.length < s_hardwareConcurrency then
    { pool with m_handles := pool.m_handles ++ [wrap] }.advance index (next true)
  else pool.advance index (next false)

/-- The next step of a call. -/
def proceed (pool : HandlePool) (s_hardwareConcurrency : Nat) (index : Nat) (succeeds : Bool) :
    Call -> HandlePool × List Answer
  | .idle => (pool, [])
  | .locking operation => (pool.lock index operation (.wake index), [])
  | .popping =>
    match pool.m_handles.getLast? with
    | some wrap =>
      ({ pool with m_handles := pool.m_handles.dropLast }.advance index (.comparing wrap), [])
    | none => (pool.advance index .counting, [])
  | .counting =>
    if pool.m_aliveHandleCount < s_maxConcurrency then (pool.advance index (.generating .flowOut), [])
    else (pool.advance index .unlocking, [.exceeded index])
  | .generating operation => (pool.advance index (.opening operation pool.m_configs), [])
  | .opening operation configs =>
    if succeeds then
      ({ pool with opened := pool.opened + 1 }.advance index
        (operation.opened ⟨pool.opened, configs⟩), [])
    else (pool.advance index .unlocking, [.notGenerated index])
  | .generated wrap =>
    ({ pool with m_aliveHandleCount := pool.m_aliveHandleCount + 1 }.advance index (.comparing wrap), [])
  | .comparing wrap =>
    if pool.m_configs = wrap.configs then (pool.advance index (.out wrap), [.flowedOut index wrap])
    else (pool.advance index (.invoking wrap pool.m_configs), [])
  | .invoking wrap configs =>
    if succeeds then
      (pool.advance index (.out ⟨wrap.handle, configs⟩), [.flowedOut index ⟨wrap.handle, configs⟩])
    else (pool.advance index .unlocking, [.notInvoked index])
  | .out wrap => (pool.pushBack s_hardwareConcurrency index wrap (.returned wrap), [])
  | .returned wrap inserted =>
    (pool.unlock index (if inserted then .releasing wrap true else .dropping wrap), [])
  | .dropping wrap =>
    ({ pool with m_aliveHandleCount := pool.m_aliveHandleCount - 1 }.advance index
      (.releasing wrap false), [])
  | .filling wrap =>
    (pool.pushBack s_hardwareConcurrency index wrap
      (fun inserted => if inserted then .filled wrap else .leaving wrap false), [])
  | .filled wrap =>
    ({ pool with m_aliveHandleCount := pool.m_aliveHandleCount + 1 }.advance index
      (.leaving wrap true), [])
  | .leaving wrap inserted => (pool.unlock index (.releasing wrap inserted), [])
  | .releasing _ _ => (pool.advance index .idle, [])
  | .clearing mode =>
    ({ pool with m_handles := [] }.advance index (.cleared mode pool.m_handles.length), [])
  | .cleared mode size =>
    ({ pool with m_aliveHandleCount := pool.m_aliveHandleCount - size }.advance index
      (match mode with
        | .read => .unlocking
        | .write => .draining), [])
  | .unlocking => (pool.unlock index .idle, [])
  | .draining => (pool.unlock index .idle, [.onDrained index pool.isDrained])
  | .blockading => (pool.unlock index .idle, [])

/-- The calls of all threads on one pool. -/
def system (s_hardwareConcurrency : Nat) : EventSystem HandlePool PoolEvent Answer where
  step pool
    | .start =>
      ({ pool with
        m_rwlock := RWLock.monitor.system.next pool.m_rwlock .start
        calls := pool.calls ++ [.idle] }, [])
    | .begin index operation =>
      match pool.calls[index]? with
      | some .idle => (pool.lock index operation (.request index operation.mode), [])
      | _ => (pool, [])
    | .proceed index succeeds =>
      match pool.calls[index]? with
      | some call => pool.proceed s_hardwareConcurrency index succeeds call
      | none => (pool, [])
    | .setConfig => ({ pool with m_configs := pool.m_configs + 1 }, [])

/-! ## What every step keeps -/

def isHandle (handle : Nat) (wrap : HandleWrap) : Bool :=
  decide (wrap.handle = handle)

/-- In how many places a handle is. -/
def places (pool : HandlePool) (handle : Nat) : Nat :=
  pool.m_handles.countP (isHandle handle) + pool.calls.countP (Call.has handle)

/-- `failures` is the number of handles that `invoke` has failed on. -/
structure Valid (failures : Nat) (pool : HandlePool) : Prop where
  coupled : pool.m_rwlock.threads.map Activity.woken = pool.calls.map Call.activity
  counted : RWLock.Counted pool.m_rwlock
  single : forall handle, pool.places handle ≤ if handle < pool.opened then 1 else 0
  alive : pool.m_aliveHandleCount =
    pool.m_handles.length + (pool.calls.map Call.weight).sum + failures
  emptied : forall call, call ∈ pool.calls -> call.emptied = true -> pool.m_handles = []

section Laws

variable {failures : Nat} {pool : HandlePool}

/-- The lock counts the calls by their activity. -/
theorem Valid.countP_activity (valid : Valid failures pool) {count : Activity LockMode -> Bool}
    (same : forall activity, count activity.woken = count activity) :
    pool.m_rwlock.threads.countP count = (pool.calls.map Call.activity).countP count := by
  rw [← valid.coupled, RWLock.countP_woken same]

theorem Valid.countP_reading (valid : Valid failures pool) :
    pool.m_rwlock.threads.countP RWLock.isReading =
      (pool.calls.map Call.activity).countP RWLock.isReading :=
  valid.countP_activity fun activity => by cases activity <;> rfl

theorem Valid.countP_writing (valid : Valid failures pool) :
    pool.m_rwlock.threads.countP RWLock.isWriting =
      (pool.calls.map Call.activity).countP RWLock.isWriting :=
  valid.countP_activity fun activity => by cases activity <;> rfl

/-- A call that writes is the only call under the lock. -/
theorem Valid.alone (valid : Valid failures pool) {first second : Nat} {writer other : Call}
    (writes : pool.calls[first]? = some writer) (holds : pool.calls[second]? = some other)
    (isWriter : writer.activity = .holding .write) {mode : LockMode}
    (isHolder : other.activity = .holding mode) : second = first := by
  have atFirst : (pool.calls.map Call.activity)[first]? = some (.holding .write) := by
    rw [List.getElem?_map, writes, Option.map_some, isWriter]
  have atSecond : (pool.calls.map Call.activity)[second]? = some (.holding mode) := by
    rw [List.getElem?_map, holds, Option.map_some, isHolder]
  have positive : 0 < (pool.calls.map Call.activity).countP RWLock.isWriting :=
    List.countP_pos_iff.mpr ⟨_, List.mem_of_getElem? atFirst, rfl⟩
  have writing := valid.countP_writing
  have reading := valid.countP_reading
  have single := valid.counted.single
  have isWriting := valid.counted.writer
  cases mode with
  | write =>
      exact @eq_of_countP_le_one _ RWLock.isWriting _ (by omega) _ _ _ _ atSecond atFirst rfl rfl
  | read =>
      have reads : 0 < (pool.calls.map Call.activity).countP RWLock.isReading :=
        List.countP_pos_iff.mpr ⟨_, List.mem_of_getElem? atSecond, rfl⟩
      have alone := valid.counted.alone (by omega)
      have isReading := valid.counted.reader
      omega

/-- The activity that the lock knows of a call. -/
theorem Valid.thread (valid : Valid failures pool) {index : Nat} {call : Call}
    (found : pool.calls[index]? = some call) :
    Exists fun activity => pool.m_rwlock.threads[index]? = some activity ∧
      activity.woken = call.activity := by
  have there : (pool.m_rwlock.threads.map Activity.woken)[index]? = some call.activity := by
    rw [valid.coupled, List.getElem?_map, found, Option.map_some]
  rw [List.getElem?_map] at there
  exact Option.map_eq_some_iff.mp there

theorem Call.emptied_activity {call : Call} (emptied : call.emptied = true) :
    call.activity = .holding .write := by
  cases call with
  | cleared mode size =>
      cases mode with
      | read => cases emptied
      | write => rfl
  | draining => rfl
  | _ => cases emptied

/-- What one call may change without breaking a law. -/
theorem Valid.change (valid : Valid failures pool) {index : Nat} {old : Call}
    (found : pool.calls[index]? = some old) (new : Call) {pool' : HandlePool} {failures' : Nat}
    (calls : pool'.calls = pool.calls.set index new)
    (coupled : pool'.m_rwlock.threads.map Activity.woken =
      (pool.m_rwlock.threads.map Activity.woken).set index new.activity)
    (counted : RWLock.Counted pool'.m_rwlock) (opened : pool.opened ≤ pool'.opened)
    (handles : forall handle,
      pool'.m_handles.countP (isHandle handle) + (if new.has handle then 1 else 0) ≤
        pool.m_handles.countP (isHandle handle) + (if old.has handle then 1 else 0) +
          (if pool.opened ≤ handle ∧ handle < pool'.opened then 1 else 0))
    (alive : pool'.m_aliveHandleCount + pool.m_handles.length + old.weight + failures =
      pool.m_aliveHandleCount + pool'.m_handles.length + new.weight + failures')
    (emptied : new.emptied = true -> pool'.m_handles = [])
    (stays : pool.m_handles = [] -> pool'.m_handles = [] ∨ old.activity = .holding .read) :
    Valid failures' pool' := by
  refine ⟨?_, counted, ?_, ?_, ?_⟩
  · rw [coupled, calls, List.map_set, valid.coupled]
  · intro handle
    have counts := @countP_set_add _ (Call.has handle) _ _ _ new found
    have before := valid.single handle
    have here := handles handle
    unfold places at before ⊢
    rw [calls]
    split_ifs at counts before here ⊢ <;> omega
  · have sums := @sum_map_set_add _ Call.weight _ _ _ new found
    have before := valid.alive
    rw [calls]
    omega
  · intro call listed isEmptied
    rw [calls] at listed
    rcases List.mem_or_eq_of_mem_set listed with before | isNew
    · rcases stays (valid.emptied call before isEmptied) with still | reads
      · exact still
      · rcases List.getElem?_of_mem before with ⟨other, there⟩
        have same := valid.alone there found (Call.emptied_activity isEmptied) reads
        subst same
        rw [found] at there
        cases there
        rw [Call.emptied_activity isEmptied] at reads
        cases reads
    · exact emptied (isNew ▸ isEmptied)

/-- A step that leaves the lock alone. -/
theorem Valid.advance (valid : Valid failures pool) {index : Nat} {old : Call}
    (found : pool.calls[index]? = some old) (pool' : HandlePool) (new : Call) {failures' : Nat}
    (calls : pool'.calls = pool.calls) (sameLock : pool'.m_rwlock = pool.m_rwlock)
    (activity : new.activity = old.activity) (opened : pool.opened ≤ pool'.opened)
    (handles : forall handle,
      pool'.m_handles.countP (isHandle handle) + (if new.has handle then 1 else 0) ≤
        pool.m_handles.countP (isHandle handle) + (if old.has handle then 1 else 0) +
          (if pool.opened ≤ handle ∧ handle < pool'.opened then 1 else 0))
    (alive : pool'.m_aliveHandleCount + pool.m_handles.length + old.weight + failures =
      pool.m_aliveHandleCount + pool'.m_handles.length + new.weight + failures')
    (emptied : new.emptied = true -> pool'.m_handles = [])
    (stays : pool.m_handles = [] -> pool'.m_handles = [] ∨ old.activity = .holding .read) :
    Valid failures' (pool'.advance index new) := by
  apply valid.change found new
  · change pool'.calls.set index new = _
    rw [calls]
  · change pool'.m_rwlock.threads.map Activity.woken = _
    have there : (pool.calls.map Call.activity)[index]? = some old.activity := by
      rw [List.getElem?_map, found, Option.map_some]
    rcases List.getElem?_eq_some_iff.mp there with ⟨inRange, isOld⟩
    rw [sameLock, valid.coupled, activity, ← isOld, List.set_getElem_self]
  · change RWLock.Counted pool'.m_rwlock
    rw [sameLock]
    exact valid.counted
  · exact opened
  · exact handles
  · exact alive
  · exact emptied
  · exact stays

/-- A call that gets the lock or goes on waiting for it. -/
theorem Valid.lock (valid : Valid failures pool) {index : Nat} {old : Call}
    (found : pool.calls[index]? = some old) {operation : Operation} {event : MonitorEvent LockMode}
    (changes : Exists fun activity =>
      (activity = .holding operation.mode ∨ activity = .waiting operation.mode false) ∧
        (RWLock.monitor.system.next pool.m_rwlock event).threads =
          pool.m_rwlock.threads.set index activity)
    (weight : old.weight = 0) : Valid failures (pool.lock index operation event) := by
  rcases changes with ⟨activity, either, changed⟩
  rcases valid.thread found with ⟨before, there, _⟩
  have now : (RWLock.monitor.system.next pool.m_rwlock event).threads[index]? = some activity := by
    rw [changed]
    exact List.getElem?_set_self (List.getElem?_eq_some_iff.mp there).1
  have free : forall next : Call, next = operation.begin ∨ next = .locking operation ->
      next.weight = 0 ∧ next.wrap = none ∧ next.emptied = false := by
    rintro next (rfl | rfl)
    · cases operation <;> exact ⟨rfl, rfl, rfl⟩
    · exact ⟨rfl, rfl, rfl⟩
  have keeps : forall next : Call, next = operation.begin ∨ next = .locking operation ->
      next.activity = activity.woken ->
      (pool.lock index operation event).calls = pool.calls.set index next ->
      Valid failures (pool.lock index operation event) := by
    intro next either follows calls
    rcases free next either with ⟨weightless, unwrapped, full⟩
    apply valid.change found next calls
    · change (RWLock.monitor.system.next pool.m_rwlock event).threads.map Activity.woken = _
      rw [changed, List.map_set, follows]
    · exact RWLock.keeps_counted.next _ event valid.counted
    · exact Nat.le_refl _
    · intro handle
      have none : next.has handle = false := by simp [Call.has, unwrapped]
      simp only [none, Bool.false_eq_true, if_false]
      exact Nat.le_add_right_of_le (Nat.le_add_right _ _)
    · rw [weight, weightless]
      rfl
    · intro impossible
      rw [full] at impossible
      cases impossible
    · exact Or.inl
  rcases either with rfl | rfl
  · apply keeps operation.begin (Or.inl rfl) (by cases operation <;> rfl)
    change pool.calls.set index (if _ then _ else _) = _
    rw [if_pos now]
  · apply keeps (.locking operation) (Or.inr rfl) rfl
    change pool.calls.set index (if _ then _ else _) = _
    rw [if_neg (by rw [now]; exact nofun)]

/-- A call that has no handle or still the same one is in no more places. -/
theorem has_le_has {new old : Call} (wrap : new.wrap = none ∨ new.wrap = old.wrap) (handle : Nat) :
    (if new.has handle then 1 else 0) ≤ if old.has handle then 1 else 0 := by
  rcases wrap with none | same
  · have absent : new.has handle = false := by simp [Call.has, none]
    rw [absent]
    exact Nat.zero_le _
  · have equal : new.has handle = old.has handle := by simp only [Call.has, same]
    rw [equal]

theorem Valid.unlock (valid : Valid failures pool) {index : Nat} {old new : Call}
    (found : pool.calls[index]? = some old) {mode : LockMode} (holds : old.activity = .holding mode)
    (leaves : new.activity = .outside) (weight : new.weight = old.weight)
    (wrap : new.wrap = none ∨ new.wrap = old.wrap) : Valid failures (pool.unlock index new) := by
  rcases valid.thread found with ⟨activity, there, woken⟩
  have holding : activity = .holding mode := by
    rw [holds] at woken
    cases activity <;> cases woken
    rfl
  subst holding
  apply valid.change found new rfl
  · rw [leaves]
    exact Monitor.threads_leave there
  · exact RWLock.keeps_counted.next _ _ valid.counted
  · exact Nat.le_refl _
  · intro handle
    have fewer := has_le_has wrap handle
    change pool.m_handles.countP (isHandle handle) + _ ≤ _
    omega
  · rw [weight]
    rfl
  · intro impossible
    rw [Call.emptied_activity impossible] at leaves
    cases leaves
  · exact Or.inl

theorem Valid.pushBack (valid : Valid failures pool) {s_hardwareConcurrency index : Nat} {old : Call}
    (found : pool.calls[index]? = some old) {wrap : HandleWrap} (holds : old.wrap = some wrap)
    (reads : old.activity = .holding .read) {next : Bool -> Call}
    (next_reads : forall inserted, (next inserted).activity = .holding .read)
    (unwrapped : (next true).wrap = none) (keeps : (next false).wrap = old.wrap)
    (inserted : (next true).weight = old.weight - 1) (refused : (next false).weight = old.weight) :
    Valid failures (pool.pushBack s_hardwareConcurrency index wrap next) := by
  have full : forall inserted, (next inserted).emptied = true -> False := by
    intro inserted impossible
    have writes := Call.emptied_activity impossible
    rw [next_reads] at writes
    cases writes
  unfold HandlePool.pushBack
  split
  · apply valid.advance found { pool with m_handles := pool.m_handles ++ [wrap] } (next true) rfl rfl
      ((next_reads true).trans reads.symm) (Nat.le_refl _)
    · intro handle
      have none : (next true).has handle = false := by
        simp [Call.has, unwrapped]
      have same : old.has handle = isHandle handle wrap := by
        simp [Call.has, holds, isHandle]
      simp only [none, same, Bool.false_eq_true, if_false, List.countP_append, List.countP_singleton]
      omega
    · change pool.m_aliveHandleCount + pool.m_handles.length + old.weight + failures =
        pool.m_aliveHandleCount + ((pool.m_handles ++ [wrap]).length : Nat) + _ + failures
      rw [inserted, List.length_append, List.length_singleton]
      omega
    · exact fun impossible => absurd impossible (full true)
    · exact fun _ => Or.inr reads
  · apply valid.advance found pool (next false) rfl rfl ((next_reads false).trans reads.symm)
      (Nat.le_refl _)
    · intro handle
      have fewer := has_le_has (Or.inr keeps) handle
      omega
    · rw [refused]
    · exact fun impossible => absurd impossible (full false)
    · exact Or.inl

/-- A step of one call that touches neither the lock nor the free handles. -/
theorem Valid.counter (valid : Valid failures pool) {index : Nat} {old new : Call}
    (found : pool.calls[index]? = some old) {pool' : HandlePool} {failures' : Nat}
    (calls : pool'.calls = pool.calls) (sameLock : pool'.m_rwlock = pool.m_rwlock)
    (handles : pool'.m_handles = pool.m_handles) (opened : pool'.opened = pool.opened)
    (activity : new.activity = old.activity)
    (wrap : new.wrap = none ∨ new.wrap.map HandleWrap.handle = old.wrap.map HandleWrap.handle)
    (alive : pool'.m_aliveHandleCount + old.weight + failures =
      pool.m_aliveHandleCount + new.weight + failures')
    (emptied : new.emptied = true -> old.emptied = true) :
    Valid failures' (pool'.advance index new) := by
  apply valid.advance found pool' new calls sameLock activity (Nat.le_of_eq opened.symm)
  · intro handle
    rw [handles]
    rcases wrap with none | same
    · have absent : new.has handle = false := by simp [Call.has, none]
      simp only [absent, Bool.false_eq_true, if_false]
      exact Nat.le_add_right_of_le (Nat.le_add_right _ _)
    · have equal : new.has handle = old.has handle := by simp only [Call.has, same]
      rw [equal]
      exact Nat.le_add_right _ _
  · rw [handles]
    omega
  · intro isEmptied
    rw [handles]
    exact valid.emptied old (List.mem_of_getElem? found) (emptied isEmptied)
  · rw [handles]
    exact Or.inl

end Laws

def isFailure : Answer -> Bool
  | .notInvoked _ => true
  | _ => false

/-- Popping moves the last stored handle to the call. -/
theorem Valid.proceed_popping {failures : Nat} {pool : HandlePool} (valid : Valid failures pool)
    (s_hardwareConcurrency : Nat) {index : Nat} (succeeds : Bool)
    (found : pool.calls[index]? = some .popping) :
    Valid (failures + (pool.proceed s_hardwareConcurrency index succeeds .popping).2.countP isFailure)
      (pool.proceed s_hardwareConcurrency index succeeds .popping).1 := by
  unfold HandlePool.proceed
  simp only
  split
  · next wrap last =>
      have split := List.dropLast_append_getLast? wrap last
      have counts : forall handle, pool.m_handles.countP (isHandle handle) =
          pool.m_handles.dropLast.countP (isHandle handle) +
            if isHandle handle wrap then 1 else 0 := by
        intro handle
        conv_lhs => rw [← split]
        rw [List.countP_append, List.countP_singleton]
      have lengths : pool.m_handles.length = pool.m_handles.dropLast.length + 1 := by
        conv_lhs => rw [← split]
        rw [List.length_append, List.length_singleton]
      apply valid.advance found { pool with m_handles := pool.m_handles.dropLast } (.comparing wrap)
        rfl rfl rfl (Nat.le_refl _)
      · intro handle
        have same : (Call.comparing wrap).has handle = isHandle handle wrap := by
          simp [Call.has, Call.wrap, isHandle]
        rw [counts handle, same]
        exact Nat.le_add_right_of_le (Nat.le_add_right _ _)
      · change pool.m_aliveHandleCount + pool.m_handles.length + 0 + failures =
          pool.m_aliveHandleCount + (pool.m_handles.dropLast.length : Nat) + 1 + (failures + 0 : Nat)
        omega
      · exact nofun
      · exact fun _ => Or.inr rfl
  · exact valid.counter found rfl rfl rfl rfl rfl (Or.inl rfl) rfl nofun

/-- Opening gives the call a handle that was in no place before. -/
theorem Valid.proceed_opening {failures : Nat} {pool : HandlePool} (valid : Valid failures pool)
    (s_hardwareConcurrency : Nat) {index : Nat} (succeeds : Bool) {operation : Operation}
    {configs : Nat} (found : pool.calls[index]? = some (.opening operation configs)) :
    Valid
      (failures +
        (pool.proceed s_hardwareConcurrency index succeeds (.opening operation configs)).2.countP isFailure)
      (pool.proceed s_hardwareConcurrency index succeeds (.opening operation configs)).1 := by
  unfold HandlePool.proceed
  simp only
  split
  · have opens : (operation.opened ⟨pool.opened, configs⟩).activity = .holding .read ∧
        (operation.opened ⟨pool.opened, configs⟩).wrap = some ⟨pool.opened, configs⟩ ∧
        (operation.opened ⟨pool.opened, configs⟩).weight = 0 := by
      cases operation <;> exact ⟨rfl, rfl, rfl⟩
    rcases opens with ⟨reads, wraps, weightless⟩
    apply valid.advance found { pool with opened := pool.opened + 1 }
      (operation.opened ⟨pool.opened, configs⟩) rfl rfl reads (Nat.le_succ _)
    · intro handle
      change pool.m_handles.countP (isHandle handle) + _ ≤ _ + _ +
        if pool.opened ≤ handle ∧ handle < pool.opened + 1 then 1 else 0
      have same : (operation.opened ⟨pool.opened, configs⟩).has handle =
          decide (pool.opened = handle) := by
        simp [Call.has, wraps]
      rw [same]
      by_cases isNew : pool.opened = handle
      · have fresh : pool.opened ≤ handle ∧ handle < pool.opened + 1 := by omega
        rw [if_pos (decide_eq_true isNew), if_pos fresh]
        omega
      · rw [decide_eq_false isNew]
        exact Nat.le_add_right_of_le (Nat.le_add_right _ _)
    · rw [weightless]
      rfl
    · intro impossible
      rw [Call.emptied_activity impossible] at reads
      cases reads
    · exact Or.inl
  · exact valid.counter found rfl rfl rfl rfl rfl (Or.inl rfl) rfl nofun

/-- Every step of a call keeps the laws. -/
theorem Valid.proceed {failures : Nat} {pool : HandlePool} (valid : Valid failures pool)
    (s_hardwareConcurrency : Nat) {index : Nat} (succeeds : Bool) {call : Call}
    (found : pool.calls[index]? = some call) :
    Valid (failures + (pool.proceed s_hardwareConcurrency index succeeds call).2.countP isFailure)
      (pool.proceed s_hardwareConcurrency index succeeds call).1 := by
  cases call with
  | idle => exact valid
  | locking operation =>
      rcases valid.thread found with ⟨activity, there, woken⟩
      apply valid.lock found _ rfl
      cases activity with
      | waiting request awake =>
          cases woken
          exact Monitor.threads_check there
      | _ => cases woken
  | popping => exact valid.proceed_popping s_hardwareConcurrency succeeds found
  | counting =>
      unfold HandlePool.proceed
      simp only
      split <;> exact valid.counter found rfl rfl rfl rfl rfl (Or.inl rfl) rfl nofun
  | generating operation =>
      exact valid.counter found rfl rfl rfl rfl rfl (Or.inl rfl) rfl nofun
  | opening operation configs =>
      exact valid.proceed_opening s_hardwareConcurrency succeeds found
  | generated wrap =>
      refine valid.counter found rfl rfl rfl rfl rfl (Or.inr rfl) ?_ nofun
      change pool.m_aliveHandleCount + 1 + 0 + failures =
        pool.m_aliveHandleCount + 1 + (failures + 0 : Nat)
      omega
  | comparing wrap =>
      unfold HandlePool.proceed
      simp only
      split <;> exact valid.counter found rfl rfl rfl rfl rfl (Or.inr rfl) rfl nofun
  | invoking wrap configs =>
      unfold HandlePool.proceed
      simp only
      split
      · exact valid.counter found rfl rfl rfl rfl rfl (Or.inr rfl) rfl nofun
      · refine valid.counter found rfl rfl rfl rfl rfl (Or.inl rfl) ?_ nofun
        change pool.m_aliveHandleCount + 1 + failures =
          pool.m_aliveHandleCount + 0 + (failures + 1 : Nat)
        omega
  | out wrap => exact valid.pushBack found rfl rfl (fun _ => rfl) rfl rfl rfl rfl
  | returned wrap inserted =>
      cases inserted with
      | true => exact valid.unlock found rfl rfl rfl (Or.inl rfl)
      | false => exact valid.unlock found rfl rfl rfl (Or.inr rfl)
  | dropping wrap =>
      refine valid.counter found rfl rfl rfl rfl rfl (Or.inr rfl) ?_ nofun
      change pool.m_aliveHandleCount - 1 + 1 + failures =
        pool.m_aliveHandleCount + 0 + (failures + 0 : Nat)
      omega
  | filling wrap =>
      refine @Valid.pushBack _ _ valid _ _ _ found wrap rfl rfl
        (fun inserted => if inserted then .filled wrap else .leaving wrap false) ?_ rfl rfl rfl rfl
      intro inserted
      cases inserted <;> rfl
  | leaving wrap inserted =>
      cases inserted with
      | true => exact valid.unlock found rfl rfl rfl (Or.inl rfl)
      | false => exact valid.unlock found rfl rfl rfl (Or.inr rfl)
  | releasing wrap inserted => exact valid.counter found rfl rfl rfl rfl rfl (Or.inl rfl) rfl nofun
  | filled wrap =>
      refine valid.counter found rfl rfl rfl rfl rfl (Or.inl rfl) ?_ nofun
      change pool.m_aliveHandleCount + 1 + -1 + failures =
        pool.m_aliveHandleCount + 0 + (failures + 0 : Nat)
      omega
  | clearing mode =>
      apply valid.advance found { pool with m_handles := [] } (.cleared mode pool.m_handles.length)
        rfl rfl rfl (Nat.le_refl _)
      · intro handle
        exact Nat.le_add_right_of_le (Nat.add_le_add (Nat.zero_le _) (Nat.le_refl _))
      · change pool.m_aliveHandleCount + pool.m_handles.length + 0 + failures =
          pool.m_aliveHandleCount + 0 + pool.m_handles.length + (failures + 0 : Nat)
        omega
      · exact fun _ => rfl
      · exact fun _ => Or.inl rfl
  | cleared mode size =>
      cases mode with
      | read =>
          refine valid.counter found rfl rfl rfl rfl rfl (Or.inl rfl) ?_ nofun
          change pool.m_aliveHandleCount - size + size + failures =
            pool.m_aliveHandleCount + 0 + (failures + 0 : Nat)
          omega
      | write =>
          refine valid.counter found rfl rfl rfl rfl rfl (Or.inl rfl) ?_ (fun _ => rfl)
          change pool.m_aliveHandleCount - size + size + failures =
            pool.m_aliveHandleCount + 0 + (failures + 0 : Nat)
          omega
  | unlocking => exact valid.unlock found rfl rfl rfl (Or.inl rfl)
  | draining => exact valid.unlock found rfl rfl rfl (Or.inl rfl)
  | blockading => exact valid.unlock found rfl rfl rfl (Or.inl rfl)

/-- Every step of the system keeps the laws. -/
theorem Valid.step (s_hardwareConcurrency : Nat) (history : List Answer) (pool : HandlePool)
    (event : PoolEvent) (valid : Valid (history.countP isFailure) pool) :
    Valid ((history ++ (system s_hardwareConcurrency).emits pool event).countP isFailure)
      ((system s_hardwareConcurrency).next pool event) := by
  rw [List.countP_append]
  unfold EventSystem.emits EventSystem.next system
  cases event with
  | start =>
      refine ⟨?_, RWLock.keeps_counted.next _ .start valid.counted, ?_, ?_, ?_⟩
      · change (pool.m_rwlock.threads ++ [Activity.outside]).map Activity.woken =
          (pool.calls ++ [Call.idle]).map Call.activity
        rw [List.map_append, List.map_append, valid.coupled]
        rfl
      · intro handle
        have before := valid.single handle
        unfold places at before ⊢
        rw [List.countP_append]
        exact before
      · change pool.m_aliveHandleCount = pool.m_handles.length +
          ((pool.calls ++ [Call.idle]).map Call.weight).sum + (_ + 0 : Nat)
        rw [List.map_append, List.sum_append]
        have before := valid.alive
        change _ = _ + (_ + 0) + _
        omega
      · intro call listed isEmptied
        rcases List.mem_append.mp listed with old | isNew
        · exact valid.emptied call old isEmptied
        · cases List.mem_singleton.mp isNew
          cases isEmptied
  | begin index operation =>
      simp only
      split
      · next found =>
          rcases valid.thread found with ⟨activity, there, woken⟩
          cases activity with
          | outside => exact valid.lock found (Monitor.threads_request there operation.mode) rfl
          | _ => cases woken
      · exact valid
  | proceed index succeeds =>
      simp only
      split
      · next call found => exact valid.proceed s_hardwareConcurrency succeeds found
      · exact valid
  | setConfig => exact ⟨valid.coupled, valid.counted, valid.single, valid.alive, valid.emptied⟩

/-- What holds after every run. -/
theorem valid_run (s_hardwareConcurrency : Nat) (events : List PoolEvent) :
    Valid (((system s_hardwareConcurrency).trace initial events).countP isFailure)
      ((system s_hardwareConcurrency).run initial events) := by
  have start : Valid (([] : List Answer).countP isFailure) initial := by
    refine ⟨rfl, ⟨rfl, rfl, rfl, by decide, fun _ => rfl⟩, ?_, rfl, ?_⟩
    · exact fun handle => Nat.le_refl 0
    · exact fun _ listed => absurd listed List.not_mem_nil
  exact (system s_hardwareConcurrency).run_trace_invariant
    (fun history pool => Valid (history.countP isFailure) pool) (Valid.step s_hardwareConcurrency)
    start events

/-! ## Handles -/

/-- In every order of the calls, a handle is with one call at most, and then
it is not free. -/
theorem handle_in_one_place (s_hardwareConcurrency : Nat) (events : List PoolEvent) {first second : Nat}
    {mine yours : Call}
    (isMine : ((system s_hardwareConcurrency).run initial events).calls[first]? = some mine)
    (isYours : ((system s_hardwareConcurrency).run initial events).calls[second]? = some yours)
    {wrap other : HandleWrap} (has : mine.wrap = some wrap) (hasOther : yours.wrap = some other) :
    (wrap.handle = other.handle -> first = second) ∧
      forall free, free ∈ ((system s_hardwareConcurrency).run initial events).m_handles ->
        free.handle ≠ wrap.handle := by
  have single := (valid_run s_hardwareConcurrency events).single wrap.handle
  unfold places at single
  have hasMine : mine.has wrap.handle = true := by simp [Call.has, has]
  have bound : forall handle opened : Nat, (if handle < opened then 1 else 0) ≤ 1 := by
    intro handle opened
    split <;> decide
  have atMostOne := Nat.le_trans single (bound _ _)
  constructor
  · intro same
    have hasYours : yours.has wrap.handle = true := by simp [Call.has, hasOther, same]
    exact eq_of_countP_le_one (Nat.le_trans (Nat.le_add_left _ _) atMostOne) isMine isYours hasMine
      hasYours
  · intro free listed same
    have inList : 0 < ((system s_hardwareConcurrency).run initial events).m_handles.countP
        (isHandle wrap.handle) :=
      List.countP_pos_iff.mpr ⟨free, listed, decide_eq_true same⟩
    have inCalls : 0 < ((system s_hardwareConcurrency).run initial events).calls.countP
        (Call.has wrap.handle) :=
      List.countP_pos_iff.mpr ⟨mine, List.mem_of_getElem? isMine, hasMine⟩
    omega

/-- The steps of a call that finds no free handle and opens one. -/
def flowOutNew (index : Nat) : List PoolEvent :=
  [.begin index .flowOut, .proceed index true, .proceed index true, .proceed index true,
    .proceed index true, .proceed index true, .proceed index true]

def twoOut : List PoolEvent :=
  [.start, .start] ++ flowOutNew 0 ++ flowOutNew 1

theorem handle_in_one_place_of_twoOut :
    ((system 2).run initial twoOut).calls = [.out ⟨0, 0⟩, .out ⟨1, 0⟩] ∧
      ¬ Exists fun free => free ∈ ((system 2).run initial twoOut).m_handles ∧ free.handle = 0 := by
  have alone := @handle_in_one_place 2 twoOut 0 1 (.out ⟨0, 0⟩) (.out ⟨1, 0⟩) (by decide) (by decide)
    ⟨0, 0⟩ ⟨1, 0⟩ rfl rfl
  refine ⟨by decide, ?_⟩
  rintro ⟨free, listed, same⟩
  exact alone.2 free listed same

/-! ## Closing -/

/-- While a call writes, the others are outside the lock. -/
theorem Valid.others {failures : Nat} {pool : HandlePool} (valid : Valid failures pool) {index : Nat}
    {call : Call} (found : pool.calls[index]? = some call) (writes : call.activity = .holding .write)
    {other : Nat} {another : Call} (different : other ≠ index)
    (there : pool.calls[other]? = some another) :
    another = .idle ∨ (Exists fun operation => another = .locking operation) ∨
      (Exists fun wrap => another = .dropping wrap) ∨
        Exists fun wrap => Exists fun inserted => another = .releasing wrap inserted := by
  have outside : forall mode, another.activity ≠ .holding mode := fun mode holds =>
    different (valid.alone found there writes holds)
  cases another with
  | idle => exact Or.inl rfl
  | locking operation => exact Or.inr (Or.inl ⟨operation, rfl⟩)
  | dropping wrap => exact Or.inr (Or.inr (Or.inl ⟨wrap, rfl⟩))
  | releasing wrap inserted => exact Or.inr (Or.inr (Or.inr ⟨wrap, inserted, rfl⟩))
  | clearing mode => exact absurd rfl (outside mode)
  | cleared mode size => exact absurd rfl (outside mode)
  | draining => exact absurd rfl (outside .write)
  | blockading => exact absurd rfl (outside .write)
  | _ => exact absurd rfl (outside .read)

/-- While a call drains or blockades the pool, no other call is under the
lock, and a call that still refers to a handle has given it back: it only has
to count down or to let go of it.  When the drain has closed the free
handles, none is free until it ends. -/
theorem closed_pool_is_empty (s_hardwareConcurrency : Nat) (events : List PoolEvent) {index : Nat}
    {call : Call}
    (found : ((system s_hardwareConcurrency).run initial events).calls[index]? = some call)
    (writes : call.activity = .holding .write) :
    (forall (other : Nat) (another : Call), other ≠ index ->
      ((system s_hardwareConcurrency).run initial events).calls[other]? = some another ->
        (forall mode, another.activity ≠ .holding mode) ∧
        forall wrap, another.refers = some wrap -> another = .dropping wrap ∨
          Exists fun inserted => another = .releasing wrap inserted) ∧
    (call.emptied = true -> ((system s_hardwareConcurrency).run initial events).m_handles = []) := by
  have valid := valid_run s_hardwareConcurrency events
  refine ⟨?_, valid.emptied call (List.mem_of_getElem? found)⟩
  intro other another different there
  rcases valid.others found writes different there with
    rfl | ⟨operation, rfl⟩ | ⟨wrap, rfl⟩ | ⟨wrap, inserted, rfl⟩
  · exact ⟨nofun, nofun⟩
  · exact ⟨nofun, nofun⟩
  · refine ⟨nofun, fun held refers => Or.inl ?_⟩
    cases refers
    rfl
  · refine ⟨nofun, fun held refers => Or.inr ⟨inserted, ?_⟩⟩
    cases inserted <;> cases refers <;> rfl

/-- A call returns its handle to a full pool while two others wait. -/
def closing : List PoolEvent :=
  [.start, .start, .start] ++ flowOutNew 0 ++
    [.begin 1 .drain, .begin 2 .flowOut, .proceed 0 true, .proceed 0 true, .proceed 1 true,
      .proceed 1 true, .proceed 1 true]

theorem closed_pool_is_empty_of_closing :
    ((system 0).run initial closing).calls = [.dropping ⟨0, 0⟩, .draining, .locking .flowOut] ∧
      ((system 0).run initial closing).m_handles = [] :=
  ⟨by decide, (@closed_pool_is_empty 0 closing 1 .draining (by decide) rfl).2 rfl⟩

def isDropping : Call -> Bool
  | .dropping _ => true
  | _ => false

/-- What the counter counts while a call writes: calls that still have to
count down. -/
theorem weights_while_closed {calls : List Call} {index : Nat} {call : Call}
    (found : calls[index]? = some call) (weightless : call.weight = 0) (stays : isDropping call = false)
    (others : forall (other : Nat) (another : Call), other ≠ index -> calls[other]? = some another ->
      another = .idle ∨ (Exists fun operation => another = .locking operation) ∨
        (Exists fun wrap => another = .dropping wrap) ∨
          Exists fun wrap => Exists fun inserted => another = .releasing wrap inserted) :
    (calls.map Call.weight).sum = calls.countP isDropping := by
  have same : forall listed, listed ∈ calls ->
      listed.weight = if isDropping listed then 1 else 0 := by
    intro listed there
    rcases List.getElem?_of_mem there with ⟨other, at_other⟩
    by_cases here : other = index
    · rw [here, found] at at_other
      cases at_other
      rw [weightless, stays]
      rfl
    · rcases others other listed here at_other with
        rfl | ⟨operation, rfl⟩ | ⟨wrap, rfl⟩ | ⟨wrap, inserted, rfl⟩ <;> rfl
  rw [List.map_congr_left same]
  clear found others same
  induction calls with
  | nil => rfl
  | cons first rest inductionHypothesis =>
      rw [List.map_cons, List.sum_cons, List.countP_cons, inductionHypothesis]
      split <;> omega

/-- While the pool is closed, `isDrained` tells that no handle is open,
unless a caller has unlocked and not yet counted down or `invoke` has failed
on some handle before. -/
theorem isDrained_while_closed_iff (s_hardwareConcurrency : Nat) (events : List PoolEvent) {index : Nat}
    {call : Call}
    (found : ((system s_hardwareConcurrency).run initial events).calls[index]? = some call)
    (closes : call = .draining ∨ call = .blockading) :
    ((system s_hardwareConcurrency).run initial events).isDrained = true ↔
      ((system s_hardwareConcurrency).run initial events).m_handles = [] ∧
      (forall wrap, Call.dropping wrap ∉ ((system s_hardwareConcurrency).run initial events).calls) ∧
      ((system s_hardwareConcurrency).trace initial events).countP isFailure = 0 := by
  have valid := valid_run s_hardwareConcurrency events
  have writes : call.activity = .holding .write := by
    rcases closes with rfl | rfl <;> rfl
  have weights := weights_while_closed found (by rcases closes with rfl | rfl <;> rfl)
    (by rcases closes with rfl | rfl <;> rfl)
    (fun _ _ different there => valid.others found writes different there)
  have alive := valid.alive
  rw [weights] at alive
  have dropping :
      (forall wrap, Call.dropping wrap ∉ ((system s_hardwareConcurrency).run initial events).calls) ↔
      ((system s_hardwareConcurrency).run initial events).calls.countP isDropping = 0 := by
    rw [List.countP_eq_zero]
    constructor
    · intro absent listed there drops
      cases listed with
      | dropping wrap => exact absent wrap there
      | _ => cases drops
    · intro none wrap there
      exact none _ there rfl
  rw [dropping, ← List.length_eq_zero_iff]
  unfold isDrained
  rw [decide_eq_true_iff]
  omega

theorem isDrained_while_closed_of_closing : ((system 0).run initial closing).isDrained = false := by
  have reads := @isDrained_while_closed_iff 0 closing 1 .draining (by decide) (Or.inl rfl)
  have dropping : Call.dropping ⟨0, 0⟩ ∈ ((system 0).run initial closing).calls := by decide
  cases drained : ((system 0).run initial closing).isDrained with
  | false => rfl
  | true => exact absurd dropping ((reads.mp drained).2.1 _)

/-! ## The counter -/

def isOut : Call -> Bool
  | .out _ => true
  | _ => false

/-- The call has not begun, waits for the lock or has its handle. -/
def isResting : Call -> Bool
  | .idle | .locking _ | .out _ => true
  | _ => false

/-- Between the operations the counter exceeds the number of open handles, free
or given out, by the number of handles that `invoke` has failed on, and is that
number exactly if there are none. -/
theorem count_while_resting_iff (s_hardwareConcurrency : Nat) (events : List PoolEvent)
    (resting : forall call, call ∈ ((system s_hardwareConcurrency).run initial events).calls ->
      isResting call = true) :
    ((system s_hardwareConcurrency).run initial events).m_aliveHandleCount =
      ((system s_hardwareConcurrency).run initial events).m_handles.length +
        ((system s_hardwareConcurrency).run initial events).calls.countP isOut +
        ((system s_hardwareConcurrency).trace initial events).countP isFailure ∧
    (((system s_hardwareConcurrency).run initial events).m_aliveHandleCount =
      ((system s_hardwareConcurrency).run initial events).m_handles.length +
        ((system s_hardwareConcurrency).run initial events).calls.countP isOut ↔
    ((system s_hardwareConcurrency).trace initial events).countP isFailure = 0) := by
  have alive := (valid_run s_hardwareConcurrency events).alive
  have weights : (((system s_hardwareConcurrency).run initial events).calls.map Call.weight).sum =
      ((system s_hardwareConcurrency).run initial events).calls.countP isOut := by
    revert resting
    generalize ((system s_hardwareConcurrency).run initial events).calls = calls
    intro resting
    induction calls with
    | nil => rfl
    | cons first rest inductionHypothesis =>
        have same : first.weight = if isOut first then 1 else 0 := by
          have rests := resting first List.mem_cons_self
          cases first <;> first | rfl | cases rests
        rw [List.map_cons, List.sum_cons, List.countP_cons, same,
          inductionHypothesis fun call there => resting call (List.mem_cons_of_mem _ there)]
        split <;> omega
  omega

/-- A call whose new handle cannot be configured again. -/
def failing : List PoolEvent :=
  [.start, .start] ++ flowOutNew 0 ++
    [.proceed 0 true, .proceed 0 true, .proceed 0 true, .setConfig] ++
    [.begin 1 .flowOut, .proceed 1 true, .proceed 1 true, .proceed 1 false, .proceed 1 true]

theorem count_while_resting_of_failing :
    ((system 1).run initial failing).m_aliveHandleCount ≠
      ((system 1).run initial failing).m_handles.length +
        ((system 1).run initial failing).calls.countP isOut :=
  fun exact_count =>
    absurd ((count_while_resting_iff 1 failing (by decide)).2.mp exact_count) (by decide)

/-! ## Exhaustion -/

/-- The call may open a handle, or has inserted one that it has not counted. -/
def mayOpen : Call -> Bool
  | .locking .fillOne | .generating _ | .opening _ _ | .filling _ | .filled _ => true
  | _ => false

/-- As many handles count as alive as there may be, and no call is past the
test of the counter or makes none. -/
structure Exhausted (opened failures : Nat) (pool : HandlePool) : Prop where
  valid : Valid failures pool
  many : 64 ≤ failures
  settled : forall call, call ∈ pool.calls -> mayOpen call = false
  opened : pool.opened = opened

theorem weight_nonneg {call : Call} (settled : mayOpen call = false) : 0 ≤ call.weight := by
  cases call with
  | returned wrap inserted => cases inserted <;> simp [Call.weight]
  | filled wrap => cases settled
  | cleared mode size => exact Int.natCast_nonneg size
  | _ => simp [Call.weight]

/-- Handles that `invoke` has failed on keep the counter at its bound. -/
theorem Exhausted.alive {opened failures : Nat} {pool : HandlePool}
    (exhausted : Exhausted opened failures pool) : s_maxConcurrency ≤ pool.m_aliveHandleCount := by
  have alive := exhausted.valid.alive
  have many := exhausted.many
  have weights : 0 ≤ (pool.calls.map Call.weight).sum := by
    apply List.sum_nonneg
    intro weight listed
    rcases List.mem_map.mp listed with ⟨call, there, rfl⟩
    exact weight_nonneg (exhausted.settled call there)
  unfold s_maxConcurrency
  omega

theorem mayOpen_begin {operation : Operation} (noFill : operation ≠ .fillOne) :
    mayOpen operation.begin = false ∧ mayOpen (.locking operation) = false := by
  cases operation with
  | fillOne => exact absurd rfl noFill
  | _ => exact ⟨rfl, rfl⟩

theorem settled_set {calls : List Call} (settled : forall call, call ∈ calls -> mayOpen call = false)
    (index : Nat) {new : Call} (isSettled : mayOpen new = false) :
    forall call, call ∈ calls.set index new -> mayOpen call = false := by
  intro call listed
  rcases List.mem_or_eq_of_mem_set listed with before | rfl
  · exact settled call before
  · exact isSettled

theorem settled_lock {pool : HandlePool}
    (settled : forall call, call ∈ pool.calls -> mayOpen call = false) (index : Nat)
    {operation : Operation} (noFill : operation ≠ .fillOne) (event : MonitorEvent LockMode) :
    forall call, call ∈ (pool.lock index operation event).calls -> mayOpen call = false := by
  apply settled_set settled
  split
  · exact (mayOpen_begin noFill).1
  · exact (mayOpen_begin noFill).2

/-- While the counter is at its bound, no step opens a handle. -/
theorem settled_proceed (s_hardwareConcurrency : Nat) {pool : HandlePool}
    (alive : s_maxConcurrency ≤ pool.m_aliveHandleCount)
    (settled : forall call, call ∈ pool.calls -> mayOpen call = false) {index : Nat} (succeeds : Bool)
    {call : Call} (found : pool.calls[index]? = some call) :
    (forall other, other ∈ (pool.proceed s_hardwareConcurrency index succeeds call).1.calls ->
      mayOpen other = false) ∧
      (pool.proceed s_hardwareConcurrency index succeeds call).1.opened = pool.opened := by
  have isSettled := settled call (List.mem_of_getElem? found)
  cases call with
  | idle => exact ⟨settled, rfl⟩
  | locking operation =>
      refine ⟨settled_lock settled index ?_ _, rfl⟩
      rintro rfl
      cases isSettled
  | popping =>
      unfold HandlePool.proceed
      simp only
      split <;> exact ⟨settled_set settled index rfl, rfl⟩
  | counting =>
      unfold HandlePool.proceed
      simp only
      rw [if_neg (Int.not_lt.mpr alive)]
      exact ⟨settled_set settled index rfl, rfl⟩
  | generating operation => cases isSettled
  | opening operation configs => cases isSettled
  | filling wrap => cases isSettled
  | filled wrap => cases isSettled
  | comparing wrap =>
      unfold HandlePool.proceed
      simp only
      split <;> exact ⟨settled_set settled index rfl, rfl⟩
  | invoking wrap configs =>
      unfold HandlePool.proceed
      simp only
      split <;> exact ⟨settled_set settled index rfl, rfl⟩
  | out wrap =>
      unfold HandlePool.proceed HandlePool.pushBack
      simp only
      split <;> exact ⟨settled_set settled index rfl, rfl⟩
  | returned wrap inserted => cases inserted <;> exact ⟨settled_set settled index rfl, rfl⟩
  | cleared mode size => cases mode <;> exact ⟨settled_set settled index rfl, rfl⟩
  | _ => exact ⟨settled_set settled index rfl, rfl⟩

/-- Every step but the begin of `fillOne` leaves the pool exhausted. -/
theorem Exhausted.step {s_hardwareConcurrency opened : Nat} {history : List Answer}
    {pool : HandlePool} (exhausted : Exhausted opened (history.countP isFailure) pool)
    {event : PoolEvent} (noFill : forall index, event ≠ .begin index .fillOne) :
    Exhausted opened
      ((history ++ (system s_hardwareConcurrency).emits pool event).countP isFailure)
      ((system s_hardwareConcurrency).next pool event) := by
  have more : 64 ≤ (history ++ (system s_hardwareConcurrency).emits pool event).countP isFailure := by
    rw [List.countP_append]
    exact Nat.le_add_right_of_le exhausted.many
  have keeps : (forall call, call ∈ ((system s_hardwareConcurrency).next pool event).calls ->
      mayOpen call = false) ∧
      ((system s_hardwareConcurrency).next pool event).opened = pool.opened := by
    unfold EventSystem.next system
    cases event with
    | start =>
        refine ⟨?_, rfl⟩
        intro call listed
        rcases List.mem_append.mp listed with old | isNew
        · exact exhausted.settled call old
        · cases List.mem_singleton.mp isNew
          rfl
    | begin index operation =>
        simp only
        split
        · refine ⟨settled_lock exhausted.settled index ?_ _, rfl⟩
          rintro rfl
          exact noFill index rfl
        · exact ⟨exhausted.settled, rfl⟩
    | proceed index succeeds =>
        simp only
        split
        · next call found =>
            exact settled_proceed s_hardwareConcurrency exhausted.alive exhausted.settled succeeds found
        · exact ⟨exhausted.settled, rfl⟩
    | setConfig => exact ⟨exhausted.settled, rfl⟩
  exact ⟨Valid.step s_hardwareConcurrency history pool event exhausted.valid, more, keeps.1,
    keeps.2.trans exhausted.opened⟩

theorem Exhausted.run {s_hardwareConcurrency opened : Nat} {later : List PoolEvent}
    (noFill : forall index, PoolEvent.begin index .fillOne ∉ later) {history : List Answer}
    {pool : HandlePool} (exhausted : Exhausted opened (history.countP isFailure) pool) :
    Exists fun failures => Exhausted opened failures ((system s_hardwareConcurrency).run pool later) := by
  induction later generalizing history pool with
  | nil => exact ⟨_, exhausted⟩
  | cons event rest inductionHypothesis =>
      rw [EventSystem.run_cons]
      refine @inductionHypothesis (fun index listed => noFill index (List.mem_cons_of_mem _ listed))
        (history ++ (system s_hardwareConcurrency).emits pool event) _ (exhausted.step ?_)
      rintro index rfl
      exact noFill index List.mem_cons_self

theorem emits_counting {s_hardwareConcurrency : Nat} {pool : HandlePool} {index : Nat}
    (found : pool.calls[index]? = some .counting) (many : s_maxConcurrency ≤ pool.m_aliveHandleCount)
    (succeeds : Bool) :
    (system s_hardwareConcurrency).emits pool (.proceed index succeeds) = [.exceeded index] := by
  unfold EventSystem.emits system
  simp only [found, proceed]
  rw [if_neg (Int.not_lt.mpr many)]

/-- Handles that `invoke` has failed on count as alive for ever: when there
are as many as the pool may have, it opens no handle any more, and a call that
finds no handle free is refused, whatever has been given back.  Only `fillOne`,
which does not look at the counter, would still open one. -/
theorem exceeded_of_failures (s_hardwareConcurrency : Nat) (events later : List PoolEvent)
    (many : 64 ≤ ((system s_hardwareConcurrency).trace initial events).countP isFailure)
    (settled : forall call, call ∈ ((system s_hardwareConcurrency).run initial events).calls ->
      mayOpen call = false)
    (noFill : forall index, PoolEvent.begin index .fillOne ∉ later) :
    ((system s_hardwareConcurrency).run initial (events ++ later)).opened =
        ((system s_hardwareConcurrency).run initial events).opened ∧
      forall index succeeds,
        ((system s_hardwareConcurrency).run initial (events ++ later)).calls[index]? =
            some .counting ->
          (system s_hardwareConcurrency).emits
              ((system s_hardwareConcurrency).run initial (events ++ later))
              (.proceed index succeeds) = [.exceeded index] := by
  rw [EventSystem.run_append]
  have start : Exhausted ((system s_hardwareConcurrency).run initial events).opened
      (((system s_hardwareConcurrency).trace initial events).countP isFailure)
      ((system s_hardwareConcurrency).run initial events) :=
    ⟨valid_run s_hardwareConcurrency events, many, settled, rfl⟩
  rcases @Exhausted.run s_hardwareConcurrency _ later noFill _ _ start with ⟨failures, exhausted⟩
  exact ⟨exhausted.opened, fun index succeeds found => emits_counting found exhausted.alive succeeds⟩

/-- A call whose configurations change while it opens its handle, and fail. -/
def failOnce : List PoolEvent :=
  [.begin 0 .flowOut, .proceed 0 true, .proceed 0 true, .proceed 0 true, .setConfig, .proceed 0 true,
    .proceed 0 true, .proceed 0 true, .proceed 0 false, .proceed 0 true]

def exhausting : List PoolEvent :=
  .start :: (List.replicate 64 failOnce).flatten

theorem exceeded_of_failures_exhausting :
    ((system 4).run initial (exhausting ++ [.begin 0 .flowOut, .proceed 0 true])).opened =
        ((system 4).run initial exhausting).opened ∧
      (system 4).emits ((system 4).run initial (exhausting ++ [.begin 0 .flowOut, .proceed 0 true]))
        (.proceed 0 true) = [.exceeded 0] := by
  have refused := exceeded_of_failures 4 exhausting [.begin 0 .flowOut, .proceed 0 true]
    (by decide +kernel) (by decide +kernel) (by
      intro index listed
      simp at listed)
  exact ⟨refused.1, refused.2 0 true (by decide +kernel)⟩

/-! ## Configurations -/

theorem configuredSince_begin (version : Nat) (operation : Operation) :
    operation.begin.configuredSince version := by
  cases operation <;> trivial

theorem configuredSince_opened (version : Nat) (operation : Operation) (wrap : HandleWrap) :
    (operation.opened wrap).configuredSince version := by
  cases operation <;> trivial

/-- The configurations only get newer, and a call takes over the newest. -/
structure ConfiguredSince (version index : Nat) (pool : HandlePool) : Prop where
  newer : version ≤ pool.m_configs
  call : forall call, pool.calls[index]? = some call -> call.configuredSince version

theorem ConfiguredSince.change {version index : Nat} {pool : HandlePool}
    (since : ConfiguredSince version index pool) {pool' : HandlePool} {other : Nat} {call : Call}
    (configs : pool'.m_configs = pool.m_configs) (calls : pool'.calls = pool.calls.set other call)
    (configured : other = index -> call.configuredSince version) :
    ConfiguredSince version index pool' := by
  refine ⟨configs ▸ since.newer, ?_⟩
  intro found there
  rw [calls] at there
  by_cases same : other = index
  · subst same
    have inRange : other < pool.calls.length := by
      have bound := (List.getElem?_eq_some_iff.mp there).1
      rwa [List.length_set] at bound
    rw [List.getElem?_set_self inRange] at there
    cases there
    exact configured rfl
  · rw [List.getElem?_set_ne same] at there
    exact since.call found there

theorem ConfiguredSince.lock {version index : Nat} {pool : HandlePool}
    (since : ConfiguredSince version index pool) (other : Nat) (operation : Operation)
    (event : MonitorEvent LockMode) :
    ConfiguredSince version index (pool.lock other operation event) := by
  refine since.change rfl rfl fun _ => ?_
  split
  · exact configuredSince_begin version operation
  · trivial

theorem ConfiguredSince.pushBack {version index : Nat} {pool : HandlePool}
    (since : ConfiguredSince version index pool) (s_hardwareConcurrency other : Nat) (wrap : HandleWrap)
    {next : Bool -> Call} (configured : forall inserted, (next inserted).configuredSince version) :
    ConfiguredSince version index (pool.pushBack s_hardwareConcurrency other wrap next) := by
  unfold HandlePool.pushBack
  split
  · exact since.change rfl rfl fun _ => configured true
  · exact since.change rfl rfl fun _ => configured false

/-- `invoke` hands out a handle only with the configurations it has read. -/
theorem ConfiguredSince.proceed {version index : Nat} {pool : HandlePool}
    (since : ConfiguredSince version index pool) (s_hardwareConcurrency : Nat) {other : Nat}
    (succeeds : Bool) {call : Call} (found : pool.calls[other]? = some call) :
    ConfiguredSince version index (pool.proceed s_hardwareConcurrency other succeeds call).1 := by
  have configured : other = index -> call.configuredSince version := fun same =>
    since.call call (same ▸ found)
  cases call with
  | idle => exact since
  | locking operation => exact since.lock other operation _
  | popping =>
      unfold HandlePool.proceed
      simp only
      split <;> exact since.change rfl rfl fun _ => trivial
  | counting =>
      unfold HandlePool.proceed
      simp only
      split <;> exact since.change rfl rfl fun _ => trivial
  | opening operation configs =>
      unfold HandlePool.proceed
      simp only
      split
      · exact since.change rfl rfl fun _ => configuredSince_opened version operation _
      · exact since.change rfl rfl fun _ => trivial
  | comparing wrap =>
      unfold HandlePool.proceed
      simp only
      split
      · next same =>
          refine since.change rfl rfl fun _ => ?_
          change version ≤ wrap.configs
          exact same ▸ since.newer
      · exact since.change rfl rfl fun _ => since.newer
  | invoking wrap configs =>
      unfold HandlePool.proceed
      simp only
      split
      · exact since.change rfl rfl configured
      · exact since.change rfl rfl fun _ => trivial
  | out wrap => exact since.pushBack _ other wrap fun _ => trivial
  | filling wrap =>
      refine @ConfiguredSince.pushBack _ _ _ since _ other wrap
        (fun inserted => if inserted then .filled wrap else .leaving wrap false) fun inserted => ?_
      cases inserted <;> trivial
  | returned wrap inserted =>
      refine since.change rfl rfl fun _ => ?_
      cases inserted <;> trivial
  | cleared mode size =>
      refine since.change rfl rfl fun _ => ?_
      cases mode <;> trivial
  | _ => exact since.change rfl rfl fun _ => trivial

theorem ConfiguredSince.next (s_hardwareConcurrency : Nat) {version index : Nat} (pool : HandlePool)
    (event : PoolEvent) (since : ConfiguredSince version index pool) :
    ConfiguredSince version index ((system s_hardwareConcurrency).next pool event) := by
  unfold EventSystem.next system
  cases event with
  | start =>
      refine ⟨since.newer, ?_⟩
      intro call there
      change (pool.calls ++ [Call.idle])[index]? = some call at there
      rw [List.getElem?_append] at there
      split at there
      · exact since.call call there
      · cases List.mem_singleton.mp (List.mem_of_getElem? there)
        trivial
  | begin other operation =>
      simp only
      split
      · exact since.lock other operation _
      · exact since
  | proceed other succeeds =>
      simp only
      split
      · next call found => exact since.proceed s_hardwareConcurrency succeeds found
      · exact since
  | setConfig => exact ⟨Nat.le_succ_of_le since.newer, since.call⟩

def isConfiguring : Call -> Bool
  | .invoking _ _ | .out _ => true
  | _ => false

/-- A call that has not begun to configure its handle when the configurations
are set hands it out with these configurations or later ones. -/
theorem handed_out_configured (s_hardwareConcurrency : Nat) (earlier events : List PoolEvent)
    {index : Nat}
    (before : forall call, ((system s_hardwareConcurrency).run initial earlier).calls[index]? =
      some call -> isConfiguring call = false)
    {wrap : HandleWrap}
    (found : ((system s_hardwareConcurrency).run initial (earlier ++ events)).calls[index]? =
      some (.out wrap)) :
    ((system s_hardwareConcurrency).run initial earlier).m_configs ≤ wrap.configs := by
  rw [EventSystem.run_append] at found
  have since : ConfiguredSince ((system s_hardwareConcurrency).run initial earlier).m_configs index
      ((system s_hardwareConcurrency).run initial earlier) := by
    refine ⟨Nat.le_refl _, ?_⟩
    intro call there
    cases call with
    | out other => cases before _ there
    | invoking other configs => cases before _ there
    | _ => trivial
  exact ((system s_hardwareConcurrency).run_invariant _ (ConfiguredSince.next s_hardwareConcurrency)
    since events).call _ found

/-- The configurations are set while the call opens its handle. -/
theorem handed_out_configured_while_opening :
    ((system 1).run initial (.start :: failOnce.take 5)).m_configs ≤ 1 := by
  have opening : ((system 1).run initial (.start :: failOnce.take 5)).calls[0]? =
      some (.opening .flowOut 0) := by decide
  refine @handed_out_configured 1 (.start :: failOnce.take 5) (List.replicate 4 (.proceed 0 true)) 0 ?_
    ⟨0, 1⟩ (by decide)
  intro call there
  rw [opening] at there
  cases there
  rfl

end HandlePool
end WCDB
end HowBigDemo
