import HowBigDemo.Library.Monitor

namespace HowBigDemo
namespace WCDB

open Library

/-!
# The lock of a handle pool

Every operation on a database holds the `RWLock` of its handle pool for
reading, and closing the database holds it for writing.  The lock counts
readers, writers and writers that wait, and new readers stand back for
waiting writers.

The theorems hold for every order in which the threads of a program lock,
unlock and wake, each unlocking only what it holds: a writer is alone, no
wakeup is lost, and while a writer waits no reader comes in.
-/

/-- The counters under the mutex. -/
structure RWLock where
  m_reader : Int
  m_writer : Int
  m_pending : Int
  deriving DecidableEq

inductive LockMode
  | read
  | write
  deriving DecidableEq

namespace RWLock

def initial : RWLock := ⟨0, 0, 0⟩

/-- The condition of the loop of `lockRead` and of `tryLockRead`. -/
def readerWaits (lock : RWLock) : Bool :=
  decide (lock.m_writer > 0) || decide (lock.m_pending > 0)

/-- The condition of the loop of `lockWrite` and of `tryLockWrite`. -/
def writerWaits (lock : RWLock) : Bool :=
  decide (lock.m_writer > 0) || decide (lock.m_reader > 0)

/-- `lockRead`, `lockWrite` and their counterparts, cut at the wait.  Only
`lockWrite` registers, and only `unlockRead` may leave without a signal. -/
def monitor : Monitor RWLock LockMode where
  register
    | .read, lock => lock
    | .write, lock => { lock with m_pending := lock.m_pending + 1 }
  admits
    | .read, lock => !lock.readerWaits
    | .write, lock => !lock.writerWaits
  enter
    | .read, lock => { lock with m_reader := lock.m_reader + 1 }
    | .write, lock => { lock with m_pending := lock.m_pending - 1, m_writer := lock.m_writer + 1 }
  tryEnter
    | .read, lock => { lock with m_reader := lock.m_reader + 1 }
    | .write, lock => { lock with m_writer := lock.m_writer + 1 }
  leave
    | .read, lock => { lock with m_reader := lock.m_reader - 1 }
    | .write, lock => { lock with m_writer := lock.m_writer - 1 }
  signals
    | .read, lock => decide (lock.m_reader = 0)
    | .write, _ => true

/-- A lock and the threads that use it. -/
abbrev Threads := MonitorState RWLock LockMode

def start : Threads := ⟨initial, []⟩

/-! ## What the counters count -/

def isReading : Activity LockMode -> Bool
  | .holding .read => true
  | _ => false

def isWriting : Activity LockMode -> Bool
  | .holding .write => true
  | _ => false

/-- In the loop of `lockWrite`. -/
def isPending : Activity LockMode -> Bool
  | .waiting .write _ => true
  | _ => false

/-- The counters count the threads, and a writer excludes the others. -/
structure Counted (state : Threads) : Prop where
  reader : state.shared.m_reader = state.threads.countP isReading
  writer : state.shared.m_writer = state.threads.countP isWriting
  pending : state.shared.m_pending = state.threads.countP isPending
  single : state.shared.m_writer ≤ 1
  alone : state.shared.m_writer = 1 -> state.shared.m_reader = 0

/-- A change of one thread that the counters follow. -/
theorem Counted.set {state : Threads} (counted : Counted state) {thread : Nat}
    {old new : Activity LockMode} (found : state.threads[thread]? = some old) {lock : RWLock}
    (reader : lock.m_reader + (if isReading old then 1 else 0) =
      state.shared.m_reader + (if isReading new then 1 else 0))
    (writer : lock.m_writer + (if isWriting old then 1 else 0) =
      state.shared.m_writer + (if isWriting new then 1 else 0))
    (pending : lock.m_pending + (if isPending old then 1 else 0) =
      state.shared.m_pending + (if isPending new then 1 else 0))
    (single : lock.m_writer ≤ 1) (alone : lock.m_writer = 1 -> lock.m_reader = 0) :
    Counted ⟨lock, state.threads.set thread new⟩ := by
  have follows : forall count : Activity LockMode -> Bool,
      ((state.threads.set thread new).countP count : Int) + (if count old then 1 else 0) =
        state.threads.countP count + (if count new then 1 else 0) := by
    intro count
    have counts := @countP_set_add _ count _ _ _ new found
    split_ifs at counts ⊢ <;> omega
  have ofReader := follows isReading
  have ofWriter := follows isWriting
  have ofPending := follows isPending
  rcases counted with ⟨reader', writer', pending', _, _⟩
  refine ⟨?_, ?_, ?_, single, alone⟩
  · change lock.m_reader = ((state.threads.set thread new).countP isReading : Int)
    omega
  · change lock.m_writer = ((state.threads.set thread new).countP isWriting : Int)
    omega
  · change lock.m_pending = ((state.threads.set thread new).countP isPending : Int)
    omega

theorem countP_woken {count : Activity LockMode -> Bool}
    (same : forall activity, count activity.woken = count activity) (threads : List (Activity LockMode)) :
    (threads.map Activity.woken).countP count = threads.countP count := by
  rw [List.countP_map]
  exact List.countP_congr fun activity _ => by rw [Function.comp_apply, same]

theorem Counted.woken {state : Threads} (counted : Counted state) :
    Counted { state with threads := state.threads.map Activity.woken } := by
  have reading : forall activity : Activity LockMode, isReading activity.woken = isReading activity := by
    intro activity
    cases activity <;> rfl
  have writing : forall activity : Activity LockMode, isWriting activity.woken = isWriting activity := by
    intro activity
    cases activity <;> rfl
  have waiting : forall activity : Activity LockMode, isPending activity.woken = isPending activity := by
    intro activity
    cases activity with
    | waiting request awake => cases request <;> rfl
    | _ => rfl
  rcases counted with ⟨reader, writer, pending, single, alone⟩
  refine ⟨?_, ?_, ?_, single, alone⟩
  · exact reader.trans (congrArg Nat.cast (countP_woken reading state.threads).symm)
  · exact writer.trans (congrArg Nat.cast (countP_woken writing state.threads).symm)
  · exact pending.trans (congrArg Nat.cast (countP_woken waiting state.threads).symm)

theorem Counted.nonneg {state : Threads} (counted : Counted state) :
    0 ≤ state.shared.m_reader ∧ 0 ≤ state.shared.m_writer ∧ 0 ≤ state.shared.m_pending := by
  rcases counted with ⟨reader, writer, pending, _, _⟩
  omega

theorem admits_read_iff {lock : RWLock} :
    monitor.admits .read lock = true ↔ lock.m_writer ≤ 0 ∧ lock.m_pending ≤ 0 := by
  simp [monitor, readerWaits]

theorem admits_write_iff {lock : RWLock} :
    monitor.admits .write lock = true ↔ lock.m_writer ≤ 0 ∧ lock.m_reader ≤ 0 := by
  simp [monitor, writerWaits]

/-- A thread that is admitted gets in. -/
theorem Counted.entered {state : Threads} (counted : Counted state) {thread : Nat}
    {old : Activity LockMode} (found : state.threads[thread]? = some old) {mode : LockMode}
    (admitted : monitor.admits mode state.shared = true)
    (outside : isReading old = false ∧ isWriting old = false) {lock : RWLock}
    (reader : lock.m_reader = state.shared.m_reader + if isReading (.holding mode) then 1 else 0)
    (writer : lock.m_writer = state.shared.m_writer + if isWriting (.holding mode) then 1 else 0)
    (pending : lock.m_pending + (if isPending old then 1 else 0) = state.shared.m_pending) :
    Counted ⟨lock, state.threads.set thread (.holding mode)⟩ := by
  have nonneg := counted.nonneg
  have limits : lock.m_writer ≤ 1 ∧ (lock.m_writer = 1 -> lock.m_reader = 0) := by
    cases mode with
    | read =>
        have free := admits_read_iff.mp admitted
        simp only [isWriting, Bool.false_eq_true, if_false, Int.add_zero] at writer
        omega
    | write =>
        have free := admits_write_iff.mp admitted
        simp only [isReading, isWriting, Bool.false_eq_true, if_false, if_true, Int.add_zero] at reader writer
        omega
  refine counted.set found ?_ ?_ ?_ limits.1 limits.2
  · rw [outside.1, if_neg Bool.false_ne_true, Int.add_zero, reader]
  · rw [outside.2, if_neg Bool.false_ne_true, Int.add_zero, writer]
  · rw [pending]
    exact (Int.add_zero _).symm

/-- A thread that is inside leaves. -/
theorem Counted.left {state : Threads} (counted : Counted state) {thread : Nat} {mode : LockMode}
    (found : state.threads[thread]? = some (.holding mode)) :
    Counted ⟨monitor.leave mode state.shared, state.threads.set thread .outside⟩ := by
  have positive : forall count : Activity LockMode -> Bool, count (.holding mode) = true ->
      0 < state.threads.countP count := fun count counts =>
    List.countP_pos_iff.mpr ⟨_, List.mem_of_getElem? found, counts⟩
  have writer := counted.writer
  have reader := counted.reader
  have single := counted.single
  cases mode with
  | read =>
      refine counted.set found (by simp [monitor, isReading]) (by simp [monitor, isWriting])
        (by simp [monitor, isPending]) single ?_
      intro writes
      change state.shared.m_writer = 1 at writes
      have alone := counted.alone writes
      have reads := positive isReading rfl
      omega
  | write =>
      have writes := positive isWriting rfl
      refine counted.set found (by simp [monitor, isReading]) (by simp [monitor, isWriting])
        (by simp [monitor, isPending]) ?_ ?_
      · change state.shared.m_writer - 1 ≤ 1
        omega
      · intro impossible
        change state.shared.m_writer - 1 = 1 at impossible
        omega

/-- Every part of every operation keeps the counters right. -/
theorem keeps_counted : monitor.Keeps Counted where
  start := by
    rintro state ⟨reader, writer, pending, single, alone⟩
    refine ⟨?_, ?_, ?_, single, alone⟩ <;> simpa [List.countP_append, isReading, isWriting, isPending]
  arrive := by
    intro state thread mode counted found
    cases mode with
    | read => exact counted.set found rfl rfl rfl counted.single counted.alone
    | write =>
        exact counted.set found rfl rfl (by simp [monitor, isPending]) counted.single counted.alone
  sleep := by
    intro state thread mode awake counted found _
    cases mode <;> exact counted.set found rfl rfl rfl counted.single counted.alone
  enter := by
    intro state thread mode awake counted found admitted
    apply counted.entered found admitted ⟨rfl, rfl⟩
    all_goals cases mode <;> simp [monitor, isReading, isWriting, isPending]
  tryEnter := by
    intro state thread mode counted found admitted
    apply counted.entered found admitted ⟨rfl, rfl⟩
    all_goals cases mode <;> simp [monitor, isReading, isWriting, isPending]
  depart := by
    intro state thread mode counted found
    unfold Monitor.depart
    simp only
    split
    · exact (counted.left found).woken
    · exact counted.left found

/-- Nobody is admitted with one more thread inside who was not before. -/
theorem admits_of_entered {mode other : LockMode} {lock entered : RWLock}
    (nonneg : 0 ≤ lock.m_reader ∧ 0 ≤ lock.m_writer)
    (reads : mode = .read -> entered = { lock with m_reader := lock.m_reader + 1 })
    (writes : mode = .write -> entered.m_writer = lock.m_writer + 1)
    (admitted : monitor.admits other entered = true) : monitor.admits other lock = true := by
  have unwritten : entered.m_writer ≤ 0 := by
    cases other with
    | read => exact (admits_read_iff.mp admitted).1
    | write => exact (admits_write_iff.mp admitted).1
  cases mode with
  | write =>
      have written := writes rfl
      omega
  | read =>
      have same := reads rfl
      subst same
      cases other with
      | read => exact admitted
      | write =>
          have unread : lock.m_reader + 1 ≤ 0 := (admits_write_iff.mp admitted).2
          omega

/-- Every operation after which a waiting thread could enter wakes it. -/
theorem signals_counted : monitor.Signals Counted where
  keeps := keeps_counted
  register := by
    intro state mode other counted admitted
    cases mode with
    | read => exact admitted
    | write =>
        cases other with
        | write => exact admitted
        | read =>
            have free := admits_read_iff.mp admitted
            change state.shared.m_writer ≤ 0 ∧ state.shared.m_pending + 1 ≤ 0 at free
            exact admits_read_iff.mpr (by omega)
  enter := by
    intro state thread mode awake other counted found free admitted
    apply @admits_of_entered mode other _ _ ⟨counted.nonneg.1, counted.nonneg.2.1⟩ _ _ admitted
    all_goals
      rintro rfl
      rfl
  tryEnter := by
    intro state thread mode other counted found free admitted
    apply @admits_of_entered mode other _ _ ⟨counted.nonneg.1, counted.nonneg.2.1⟩ _ _ admitted
    all_goals
      rintro rfl
      rfl
  depart := by
    intro state thread mode other counted found silent admitted
    cases mode with
    | write => cases silent
    | read =>
        cases other with
        | read => exact admitted
        | write =>
            have closed := admits_write_iff.mp admitted
            change state.shared.m_writer ≤ 0 ∧ state.shared.m_reader - 1 ≤ 0 at closed
            have stays : ¬ state.shared.m_reader - 1 = 0 := of_decide_eq_false silent
            have positive : 0 < state.threads.countP isReading :=
              List.countP_pos_iff.mpr ⟨_, List.mem_of_getElem? found, rfl⟩
            have reader := counted.reader
            omega

/-- What holds after every run of the threads. -/
theorem counted_run (events : List (MonitorEvent LockMode)) :
    Counted (monitor.system.run start events) ∧
      monitor.SleepersBlocked (monitor.system.run start events) :=
  signals_counted.run ⟨rfl, rfl, rfl, by decide, fun _ => rfl⟩
    (fun _ asleep => absurd asleep List.not_mem_nil) events

/-- In every order of the threads, a thread that writes is the only one that
reads or writes. -/
theorem writer_excludes (events : List (MonitorEvent LockMode)) {writer : Nat}
    (writes : (monitor.system.run start events).threads[writer]? = some (.holding .write)) {other : Nat}
    (different : other ≠ writer) (mode : LockMode) :
    (monitor.system.run start events).threads[other]? ≠ some (.holding mode) := by
  intro holds
  have counted := (counted_run events).1
  have positive : 0 < (monitor.system.run start events).threads.countP isWriting :=
    List.countP_pos_iff.mpr ⟨_, List.mem_of_getElem? writes, rfl⟩
  have single := counted.single
  have isWriter := counted.writer
  cases mode with
  | write =>
      exact different
        (@eq_of_countP_le_one _ isWriting _ (by omega) _ _ _ _ holds writes rfl rfl)
  | read =>
      have reads : 0 < (monitor.system.run start events).threads.countP isReading :=
        List.countP_pos_iff.mpr ⟨_, List.mem_of_getElem? holds, rfl⟩
      have alone := counted.alone (by omega)
      have isReader := counted.reader
      omega

/-- A reader, a writer that waits for it and a reader that stands back. -/
def contended : List (MonitorEvent LockMode) :=
  [.start, .start, .start, .request 0 .read, .request 1 .write, .request 2 .read]

theorem writer_excludes_contended :
    (monitor.system.run start (contended ++ [.leave 0, .wake 1])).threads[2]? ≠ some (.holding .read) :=
  writer_excludes (contended ++ [.leave 0, .wake 1])
    (show (monitor.system.run start (contended ++ [.leave 0, .wake 1])).threads[1]? =
      some (.holding .write) by decide)
    (by decide) .read

/-- Whenever nobody holds the lock, no writer that waits is asleep, nor a
reader if no writer waits; each of them gets the lock when it runs next. -/
theorem free_lock_is_taken (events : List (MonitorEvent LockMode))
    (free : forall mode, Activity.holding mode ∉ (monitor.system.run start events).threads)
    {thread : Nat} {mode : LockMode} {awake : Bool}
    (waits : (monitor.system.run start events).threads[thread]? = some (.waiting mode awake))
    (first : mode = .read -> forall awake,
      Activity.waiting .write awake ∉ (monitor.system.run start events).threads) :
    awake = true ∧
      (monitor.system.run start (events ++ [.wake thread])).threads[thread]? =
        some (.holding mode) := by
  rcases counted_run events with ⟨counted, blocked⟩
  rw [EventSystem.run_concat]
  have noReader : (monitor.system.run start events).threads.countP isReading = 0 := by
    rw [List.countP_eq_zero]
    intro activity listed reads
    cases activity with
    | holding mode => exact free mode listed
    | _ => cases reads
  have noWriter : (monitor.system.run start events).threads.countP isWriting = 0 := by
    rw [List.countP_eq_zero]
    intro activity listed writes
    cases activity with
    | holding mode => exact free mode listed
    | _ => cases writes
  have reader := counted.reader
  have writer := counted.writer
  apply blocked.wake waits
  cases mode with
  | write => exact admits_write_iff.mpr (by omega)
  | read =>
      have noPending : (monitor.system.run start events).threads.countP isPending = 0 := by
        rw [List.countP_eq_zero]
        intro activity listed pends
        cases activity with
        | waiting mode awake =>
            cases mode with
            | read => cases pends
            | write => exact first rfl awake listed
        | _ => cases pends
      have pending := counted.pending
      exact admits_read_iff.mpr (by omega)

theorem free_lock_is_taken_contended :
    (monitor.system.run start ((contended ++ [.leave 0]) ++ [.wake 1])).threads[1]? =
      some (.holding .write) :=
  (free_lock_is_taken (contended ++ [.leave 0]) (by intro mode; cases mode <;> decide)
    (show (monitor.system.run start (contended ++ [.leave 0])).threads[1]? =
      some (.waiting .write true) by decide) (fun impossible => nomatch impossible)).2

/-- The writer waits at every step. -/
def WriterWaits (writer : Nat) (state : Threads) (_event : MonitorEvent LockMode) : Prop :=
  Exists fun awake => state.threads[writer]? = some (.waiting .write awake)

/-- While a writer waits, no thread starts to read. -/
theorem no_reader_enters (earlier events : List (MonitorEvent LockMode)) {writer reader : Nat}
    (waits : monitor.system.Along (WriterWaits writer) (monitor.system.run start earlier) events)
    (reads : (monitor.system.run start (earlier ++ events)).threads[reader]? = some (.holding .read)) :
    (monitor.system.run start earlier).threads[reader]? = some (.holding .read) := by
  rw [EventSystem.run_append] at reads
  have counted := (counted_run earlier).1
  revert counted waits reads
  generalize monitor.system.run start earlier = state
  intro waits reads counted
  induction events generalizing state with
  | nil => exact reads
  | cons event rest inductionHypothesis =>
      have later := inductionHypothesis _ waits.2 reads (keeps_counted.next state event counted)
      rcases waits.1 with ⟨awake, found⟩
      have pending : 0 < state.threads.countP isPending :=
        List.countP_pos_iff.mpr ⟨_, List.mem_of_getElem? found, rfl⟩
      have isPending := counted.pending
      rcases Monitor.holding_next later with held | admitted | ⟨registered, admitted⟩
      · exact held
      · have free := admits_read_iff.mp admitted
        omega
      · have free := admits_read_iff.mp admitted
        have more : state.shared.m_pending ≤ (monitor.register registered state.shared).m_pending := by
          cases registered with
          | read => exact Int.le_refl _
          | write =>
              change state.shared.m_pending ≤ state.shared.m_pending + 1
              omega
        omega

theorem no_reader_enters_contended :
    (monitor.system.run start contended).threads[0]? = some (.holding .read) :=
  no_reader_enters contended [.wake 2, .start, .attempt 3 .read]
    (show monitor.system.Along (WriterWaits 1) _ _ from
      ⟨⟨false, by decide⟩, ⟨false, by decide⟩, ⟨false, by decide⟩, trivial⟩)
    (by decide)

end RWLock
end WCDB
end HowBigDemo
