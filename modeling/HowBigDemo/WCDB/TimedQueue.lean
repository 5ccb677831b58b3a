import HowBigDemo.Library.EventSystem
import HowBigDemo.Library.Dictionary
import Mathlib.Logic.Function.Basic

namespace HowBigDemo
namespace WCDB

open Library

/-!
# The queue of logs to checkpoint

Every commit that leaves more than 1000 pages in the log puts its path into
a queue again, and one thread takes a path out when some time has passed
since, to checkpoint it.  The queue is a list of nodes, the newest first, and
a map from each path to the iterator of its node.

Commits come from any thread; they hold the mutex throughout, so each is one
step.  The waiting thread has a step for every time it takes the mutex, reads
the clock or sleeps, and anything may happen between two of them.

The purpose is a debouncer: a path is taken out when it has rested for the
delay, the oldest first, and no path is forgotten.
-/

/-- A node of the list, with the iterator that points to it. -/
structure Node (Key : Type) where
  iterator : Nat
  key : Key
  expires : Nat
  deriving DecidableEq

/-- Where the checkpoint thread stands in `waitUntilExpired`. -/
inductive Waiter
  | notStarted
  | checking
  | asleep
  | reading
  | looking (now : Nat)
  | sleeping (wake : Nat)
  deriving DecidableEq

/-- `notify_one`, or a wake-up without a reason. -/
def Waiter.notified : Waiter -> Waiter
  | .asleep => .checking
  | waiter => waiter

theorem Waiter.notified_of_ne {waiter : Waiter} (awake : waiter ≠ .asleep) : waiter.notified = waiter := by
  cases waiter with
  | asleep => exact absurd rfl awake
  | _ => rfl

/-- The thread has seen that the list is not empty. -/
def Waiter.hasSeen : Waiter -> Bool
  | .reading | .looking _ | .sleeping _ => true
  | _ => false

/-- `TimedQueue`, with the clock and the thread that serves it. -/
structure TimedQueue (Key : Type) where
  m_map : List (Key × Nat)
  m_list : List (Node Key)
  nodes : Nat
  clock : Nat
  waiter : Waiter
  deriving DecidableEq

inductive QueueEvent (Key : Type)
  | committed (path : Key) (pages : Int)
  | tick (elapsed : Nat)
  | proceed
  | spurious

/-- What an observer sees.  `undefined` stands for an iterator without a
node and for the last element of an empty list. -/
inductive QueueNote (Key : Type)
  | queued (key : Key) (time : Nat)
  | expired (key : Key) (time : Nat)
  | returned
  | undefined
  deriving DecidableEq

namespace TimedQueue

variable {Key : Type} [DecidableEq Key]

def initial : TimedQueue Key := ⟨[], [], 0, 0, .notStarted⟩

/-- `m_list.erase` of the iterator that `m_map.find` returned. -/
def eraseFound (queue : TimedQueue Key) (key : Key) : TimedQueue Key × List (QueueNote Key) :=
  match queue.m_map.lookup key with
  | none => (queue, [])
  | some iterator =>
      ({ queue with
          m_list := queue.m_list.filter fun node => decide (node.iterator ≠ iterator)
          m_map := Dictionary.removeObject queue.m_map key },
        if queue.m_list.any fun node => decide (node.iterator = iterator) then [] else [.undefined])

def reQueue (queue : TimedQueue Key) (delay : Nat) (key : Key) : TimedQueue Key × List (QueueNote Key) :=
  let signal := queue.m_list.isEmpty
  let erased := queue.eraseFound key
  ({ erased.1 with
      m_list := ⟨queue.nodes, key, queue.clock + delay⟩ :: erased.1.m_list
      m_map := (key, queue.nodes) :: erased.1.m_map
      nodes := queue.nodes + 1
      waiter := if signal then queue.waiter.notified else queue.waiter },
    erased.2 ++ [.queued key queue.clock])

/-- The next step of `waitUntilExpired`, which is called in an endless loop. -/
def waitUntilExpired (queue : TimedQueue Key) (forever : Bool) : TimedQueue Key × List (QueueNote Key) :=
  match queue.waiter with
  | .notStarted => (queue, [])
  | .checking =>
      if queue.m_list.isEmpty then
        if forever then ({ queue with waiter := .asleep }, []) else (queue, [.returned])
      else ({ queue with waiter := .reading }, [])
  | .asleep => (queue, [])
  | .reading => ({ queue with waiter := .looking queue.clock }, [])
  | .looking now =>
      match queue.m_list.getLast? with
      | none => (queue, [.undefined])
      | some element =>
          if now > element.expires then
            ({ queue with
                m_list := queue.m_list.dropLast
                m_map := Dictionary.removeObject queue.m_map element.key
                waiter := .checking }, [.expired element.key queue.clock])
          else ({ queue with waiter := .sleeping (queue.clock + (element.expires - now)) }, [])
  | .sleeping wake =>
      if wake ≤ queue.clock then ({ queue with waiter := .reading }, []) else (queue, [])

/-- The committed hook of the checkpoint configuration, which starts the
thread at the first commit. -/
def committedHook (queue : TimedQueue Key) (delay : Nat) (path : Key) (pages : Int) :
    TimedQueue Key × List (QueueNote Key) :=
  let queued := if pages > 1000 then queue.reQueue delay path else (queue, [])
  ({ queued.1 with waiter := if queued.1.waiter = .notStarted then .checking else queued.1.waiter },
    queued.2)

/-- Any number of committing threads and one checkpoint thread. -/
def system (delay : Nat) (forever : Bool) :
    EventSystem (TimedQueue Key) (QueueEvent Key) (QueueNote Key) where
  step queue event :=
    match event with
    | .committed path pages => queue.committedHook delay path pages
    | .tick elapsed => ({ queue with clock := queue.clock + elapsed }, [])
    | .proceed => queue.waitUntilExpired forever
    | .spurious => ({ queue with waiter := queue.waiter.notified }, [])

end TimedQueue

/-! ## The debouncer -/

/-- The histories of a debouncer, with the time from which each pending key
may be taken out. -/
inductive Debounces {Key : Type} [DecidableEq Key] (delay : Nat) :
    List (QueueNote Key) -> (Key -> Option Nat) -> Prop
  | start : Debounces delay [] fun _ => none
  | queued {history : List (QueueNote Key)} {pending : Key -> Option Nat}
      (earlier : Debounces delay history pending) (key : Key) (time : Nat) :
      Debounces delay (history ++ [.queued key time])
        (Function.update pending key (some (time + delay)))
  | expired {history : List (QueueNote Key)} {pending : Key -> Option Nat}
      (earlier : Debounces delay history pending) {key : Key} {time expires : Nat}
      (isPending : pending key = some expires) (rested : expires < time)
      (oldest : forall other later, pending other = some later -> expires ≤ later) :
      Debounces delay (history ++ [.expired key time]) (Function.update pending key none)
  | returned {history : List (QueueNote Key)} {pending : Key -> Option Nat}
      (earlier : Debounces delay history pending) (idle : forall key, pending key = none) :
      Debounces delay (history ++ [.returned]) pending

namespace TimedQueue

variable {Key : Type} [DecidableEq Key] {delay : Nat} {queue : TimedQueue Key}

/-- The keys that wait, with the time at which each expires. -/
def entries (queue : TimedQueue Key) : List (Key × Nat) :=
  queue.m_list.map fun node => (node.key, node.expires)

def pending (queue : TimedQueue Key) (key : Key) : Option Nat :=
  queue.entries.lookup key

/-- The map points to the node of each key that is in the list, the list is
in the order of expiry, and the thread knows whether it is empty. -/
structure Valid (delay : Nat) (queue : TimedQueue Key) : Prop where
  distinct : Dictionary.Distinct queue.entries
  apart : (queue.m_list.map Node.iterator).Nodup
  made : forall node, node ∈ queue.m_list -> node.iterator < queue.nodes
  agrees : forall key iterator, queue.m_map.lookup key = some iterator ↔
    Exists fun node => node ∈ queue.m_list ∧ node.key = key ∧ node.iterator = iterator
  sorted : queue.m_list.Pairwise fun newer older => older.expires ≤ newer.expires
  soon : forall node, node ∈ queue.m_list -> node.expires ≤ queue.clock + delay
  asleep : queue.waiter = .asleep -> queue.m_list = []
  seen : queue.waiter.hasSeen = true -> queue.m_list ≠ []
  read : forall now, queue.waiter = .looking now -> now ≤ queue.clock

theorem Valid.keys (valid : Valid delay queue) : (queue.m_list.map Node.key).Nodup := by
  have distinct := valid.distinct
  unfold Dictionary.Distinct entries at distinct
  rwa [List.map_map] at distinct

omit [DecidableEq Key] in
theorem entries_filter (nodes : List (Node Key)) (keep : Key -> Bool) :
    (nodes.filter fun node => keep node.key).map (fun node => (node.key, node.expires)) =
      (nodes.map fun node => (node.key, node.expires)).filter fun entry => keep entry.1 := by
  rw [List.filter_map]
  rfl

/-- The erased node is the one of the key, if it has one. -/
theorem Valid.eraseFound (valid : Valid delay queue) (key : Key) :
    (queue.eraseFound key).1.m_list = (queue.m_list.filter fun node => decide (node.key ≠ key)) ∧
      (forall other, (queue.eraseFound key).1.m_map.lookup other =
        if other = key then none else queue.m_map.lookup other) ∧
      (queue.eraseFound key).2 = [] := by
  unfold TimedQueue.eraseFound
  cases found : queue.m_map.lookup key with
  | none =>
      refine ⟨(List.filter_eq_self.mpr ?_).symm, ?_, rfl⟩
      · intro node listed
        apply decide_eq_true
        intro isKey
        have present := (valid.agrees key node.iterator).mpr ⟨node, listed, isKey, rfl⟩
        rw [found] at present
        cases present
      · intro other
        by_cases same : other = key
        · rw [if_pos same, same]
          exact found
        · exact (if_neg same).symm
  | some iterator =>
      rcases (valid.agrees key iterator).mp found with ⟨node, listed, isKey, pointed⟩
      have same : forall other, other ∈ queue.m_list ->
          decide (other.iterator ≠ iterator) = decide (other.key ≠ key) := by
        intro other member
        apply decide_eq_decide.mpr
        apply not_congr
        constructor
        · intro sameIterator
          rw [List.inj_on_of_nodup_map valid.apart member listed (sameIterator.trans pointed.symm), isKey]
        · intro sameKey
          rw [List.inj_on_of_nodup_map valid.keys member listed (sameKey.trans isKey.symm), pointed]
      refine ⟨List.filter_congr same, fun other => Dictionary.lookup_removeObject _ key other, ?_⟩
      exact if_pos (List.any_eq_true.mpr ⟨node, listed, decide_eq_true pointed⟩)

theorem eraseFound_frame (queue : TimedQueue Key) (key : Key) :
    (queue.eraseFound key).1.nodes = queue.nodes ∧ (queue.eraseFound key).1.clock = queue.clock := by
  unfold TimedQueue.eraseFound
  split
  · exact ⟨rfl, rfl⟩
  · exact ⟨rfl, rfl⟩

/-- A node that an erased key leaves. -/
theorem Valid.mem_eraseFound (valid : Valid delay queue) {key : Key} {node : Node Key} :
    node ∈ (queue.eraseFound key).1.m_list ↔ node ∈ queue.m_list ∧ node.key ≠ key := by
  rw [(valid.eraseFound key).1, List.mem_filter, decide_eq_true_iff]

theorem Valid.eraseFound_sublist (valid : Valid delay queue) (key : Key) :
    (queue.eraseFound key).1.m_list.Sublist queue.m_list := by
  rw [(valid.eraseFound key).1]
  exact List.filter_sublist

/-- Queueing a key moves it to the front with a new time. -/
theorem Valid.entries_reQueue (valid : Valid delay queue) (key : Key) :
    (queue.reQueue delay key).1.entries =
      (key, queue.clock + delay) :: Dictionary.removeObject queue.entries key := by
  change (_ :: (queue.eraseFound key).1.m_list.map _) = _
  rw [(valid.eraseFound key).1, entries_filter queue.m_list fun other => decide (other ≠ key)]
  rfl

theorem Valid.pending_reQueue (valid : Valid delay queue) (key : Key) :
    (queue.reQueue delay key).1.pending =
      Function.update queue.pending key (some (queue.clock + delay)) := by
  funext other
  unfold pending
  rw [valid.entries_reQueue, List.lookup_cons]
  by_cases same : other = key
  · subst same
    rw [beq_self_eq_true, Function.update_self]
  · rw [beq_false_of_ne same, Function.update_of_ne same]
    exact (Dictionary.lookup_removeObject _ _ _).trans (if_neg same)

/-- The map follows the list. -/
theorem Valid.agrees_reQueue (valid : Valid delay queue) (key other : Key) (iterator : Nat) :
    (queue.reQueue delay key).1.m_map.lookup other = some iterator ↔
      Exists fun node => node ∈ (queue.reQueue delay key).1.m_list ∧ node.key = other ∧
        node.iterator = iterator := by
  change List.lookup other ((key, queue.nodes) :: (queue.eraseFound key).1.m_map) = some iterator ↔
    Exists fun node => node ∈ _ :: (queue.eraseFound key).1.m_list ∧ _
  rw [List.lookup_cons]
  by_cases same : other = key
  · subst same
    rw [beq_self_eq_true]
    constructor
    · intro pointed
      cases pointed
      exact ⟨_, List.mem_cons_self, rfl, rfl⟩
    · rintro ⟨node, listed, isKey, pointed⟩
      rcases List.mem_cons.mp listed with rfl | member
      · exact congrArg some pointed
      · exact absurd isKey (valid.mem_eraseFound.mp member).2
  · rw [beq_false_of_ne same]
    change (queue.eraseFound key).1.m_map.lookup other = some iterator ↔ _
    rw [(valid.eraseFound key).2.1, if_neg same, valid.agrees]
    constructor
    · rintro ⟨node, member, isKey, pointed⟩
      have kept := valid.mem_eraseFound.mpr ⟨member, isKey.symm ▸ same⟩
      exact ⟨node, List.mem_cons_of_mem _ kept, isKey, pointed⟩
    · rintro ⟨node, listed, isKey, pointed⟩
      rcases List.mem_cons.mp listed with rfl | member
      · exact absurd isKey.symm same
      · exact ⟨node, (valid.mem_eraseFound.mp member).1, isKey, pointed⟩

/-- A thread that slept without a deadline is woken. -/
theorem Valid.waiter_reQueue (valid : Valid delay queue) (key : Key) :
    (queue.reQueue delay key).1.waiter ≠ .asleep ∧
      forall now, (queue.reQueue delay key).1.waiter = .looking now -> now ≤ queue.clock := by
  change (if queue.m_list.isEmpty then queue.waiter.notified else queue.waiter) ≠ .asleep ∧ forall now,
    (if queue.m_list.isEmpty then queue.waiter.notified else queue.waiter) = .looking now -> now ≤ queue.clock
  by_cases sleeps : queue.waiter = .asleep
  · rw [if_pos (List.isEmpty_iff.mpr (valid.asleep sleeps)), sleeps]
    exact ⟨nofun, nofun⟩
  · rw [Waiter.notified_of_ne sleeps, ite_self]
    exact ⟨sleeps, valid.read⟩

theorem Valid.reQueue (valid : Valid delay queue) (key : Key) :
    Valid delay (queue.reQueue delay key).1 := by
  have frame := eraseFound_frame queue key
  have sublist := valid.eraseFound_sublist key
  refine ⟨?_, ?_, ?_, valid.agrees_reQueue key, ?_, ?_, ?_, fun _ => List.cons_ne_nil _ _, ?_⟩
  · rw [valid.entries_reQueue]
    refine Dictionary.distinct_cons.mpr ⟨?_, ?_⟩
    · intro other listed
      exact of_decide_eq_true (List.mem_filter.mp listed).2
    · exact valid.distinct.of_sublist (List.filter_sublist.map _)
  · refine List.nodup_cons.mpr ⟨?_, List.Nodup.sublist (sublist.map _) valid.apart⟩
    intro listed
    rcases List.mem_map.mp listed with ⟨node, member, same⟩
    exact absurd same (Nat.ne_of_lt (valid.made node (sublist.subset member)))
  · intro node listed
    rcases List.mem_cons.mp listed with rfl | member
    · exact Nat.lt_succ_self queue.nodes
    · exact Nat.lt_succ_of_lt (valid.made node (sublist.subset member))
  · exact List.pairwise_cons.mpr ⟨fun node member => valid.soon node (sublist.subset member),
      valid.sorted.sublist sublist⟩
  · intro node listed
    change node.expires ≤ (queue.eraseFound key).1.clock + delay
    rw [frame.2]
    rcases List.mem_cons.mp listed with rfl | member
    · exact Nat.le_refl _
    · exact valid.soon node (sublist.subset member)
  · exact fun sleeps => absurd sleeps (valid.waiter_reQueue key).1
  · intro now looks
    change now ≤ (queue.eraseFound key).1.clock
    rw [frame.2]
    exact (valid.waiter_reQueue key).2 now looks

/-- The thread moves on, and the queue stays as it is. -/
theorem Valid.stands (valid : Valid delay queue) {waiter : Waiter}
    (asleep : waiter = .asleep -> queue.m_list = [])
    (seen : waiter.hasSeen = true -> queue.m_list ≠ [])
    (read : forall now, waiter = .looking now -> now ≤ queue.clock) :
    Valid delay { queue with waiter := waiter } :=
  { valid with asleep := asleep, seen := seen, read := read }

theorem Valid.notified (valid : Valid delay queue) :
    Valid delay { queue with waiter := queue.waiter.notified } := by
  by_cases sleeps : queue.waiter = .asleep
  · rw [sleeps]
    exact valid.stands nofun nofun nofun
  · rw [Waiter.notified_of_ne sleeps]
    exact valid

/-- The last node of the list is the oldest; taking it out takes out its key. -/
theorem Valid.pop (valid : Valid delay queue) {front : List (Node Key)} {element : Node Key}
    (ends : queue.m_list = front ++ [element]) :
    Valid delay { queue with
        m_list := front
        m_map := Dictionary.removeObject queue.m_map element.key
        waiter := .checking } ∧
      queue.pending element.key = some element.expires ∧
      (forall other later, queue.pending other = some later -> element.expires ≤ later) ∧
      front.map (fun node => (node.key, node.expires)) =
        Dictionary.removeObject queue.entries element.key := by
  have entriesEnd : queue.entries =
      front.map (fun node => (node.key, node.expires)) ++ [(element.key, element.expires)] := by
    rw [entries, ends, List.map_append]
    rfl
  have distinct := valid.distinct
  rw [entriesEnd] at distinct
  have inFront : forall node, node ∈ front -> node ∈ queue.m_list ∧ node.key ≠ element.key := by
    intro node listed
    refine ⟨ends ▸ List.mem_append_left _ listed, ?_⟩
    exact distinct.key_ne.1 (node.key, node.expires) (List.mem_map.mpr ⟨node, listed, rfl⟩)
  have sublist : front.Sublist queue.m_list := ends ▸ List.sublist_append_left front [element]
  have remains : front.map (fun node => (node.key, node.expires)) =
      Dictionary.removeObject queue.entries element.key := by
    rw [entriesEnd, Dictionary.removeObject_at distinct, List.append_nil]
  refine ⟨⟨?_, List.Nodup.sublist (sublist.map _) valid.apart, ?_, ?_, valid.sorted.sublist sublist, ?_,
    nofun, nofun, nofun⟩, ?_, ?_, remains⟩
  · exact valid.distinct.of_sublist ((sublist.map _).map _)
  · exact fun node listed => valid.made node (inFront node listed).1
  · intro key iterator
    rw [Dictionary.lookup_removeObject]
    by_cases same : key = element.key
    · rw [if_pos same]
      refine iff_of_false nofun ?_
      rintro ⟨node, listed, isKey, _⟩
      exact (inFront node listed).2 (isKey.trans same)
    · rw [if_neg same, valid.agrees]
      constructor
      · rintro ⟨node, member, isKey, pointed⟩
        rw [ends] at member
        rcases List.mem_append.mp member with listed | isLast
        · exact ⟨node, listed, isKey, pointed⟩
        · rw [List.mem_singleton.mp isLast] at isKey
          exact absurd isKey.symm same
      · rintro ⟨node, listed, isKey, pointed⟩
        exact ⟨node, (inFront node listed).1, isKey, pointed⟩
  · exact fun node listed => valid.soon node (inFront node listed).1
  · apply (Dictionary.lookup_eq_some_iff valid.distinct _ _).mpr
    rw [entriesEnd]
    exact List.mem_append_right _ List.mem_cons_self
  · intro other later isPending
    have listed := (Dictionary.lookup_eq_some_iff valid.distinct _ _).mp isPending
    rw [entriesEnd] at listed
    rcases List.mem_append.mp listed with member | isLast
    · rcases List.mem_map.mp member with ⟨node, inList, same⟩
      have sorted := valid.sorted
      rw [ends] at sorted
      have older := (List.pairwise_append.mp sorted).2.2 node inList element List.mem_cons_self
      injection same with _ sameTime
      exact sameTime ▸ older
    · cases List.mem_singleton.mp isLast
      exact Nat.le_refl _

/-- One step of the thread is a step of the debouncer, or none. -/
theorem Valid.waitUntilExpired (valid : Valid delay queue) (forever : Bool)
    {history : List (QueueNote Key)} (debounced : Debounces delay history queue.pending) :
    Valid delay (queue.waitUntilExpired forever).1 ∧
      Debounces delay (history ++ (queue.waitUntilExpired forever).2)
        (queue.waitUntilExpired forever).1.pending := by
  have silent := (List.append_nil history).symm ▸ debounced
  unfold TimedQueue.waitUntilExpired
  cases stands : queue.waiter with
  | notStarted => exact ⟨valid, silent⟩
  | asleep => exact ⟨valid, silent⟩
  | checking =>
      dsimp only
      by_cases empty : queue.m_list = []
      · have isEmpty := List.isEmpty_iff.mpr empty
        rw [if_pos isEmpty]
        cases forever with
        | true => exact ⟨valid.stands (fun _ => empty) nofun nofun, silent⟩
        | false =>
            refine ⟨valid, debounced.returned ?_⟩
            intro key
            rw [pending, entries, empty]
            rfl
      · rw [if_neg fun isEmpty => empty (List.isEmpty_iff.mp isEmpty)]
        exact ⟨valid.stands nofun (fun _ => empty) nofun, silent⟩
  | reading =>
      have filled := valid.seen (by rw [stands]; rfl)
      refine ⟨valid.stands nofun (fun _ => filled) ?_, silent⟩
      intro now looks
      cases looks
      exact Nat.le_refl _
  | looking now =>
      have filled := valid.seen (by rw [stands]; rfl)
      cases last : queue.m_list.getLast? with
      | none => exact absurd (List.getLast?_eq_none_iff.mp last) filled
      | some element =>
          rcases List.getLast?_eq_some_iff.mp last with ⟨front, ends⟩
          rcases valid.pop ends with ⟨popped, isPending, oldest, remains⟩
          dsimp only
          by_cases rested : now > element.expires
          · rw [if_pos rested]
            have dropped : queue.m_list.dropLast = front := by
              rw [ends]
              exact List.dropLast_concat
            have taken := debounced.expired isPending (Nat.lt_of_lt_of_le rested (valid.read now stands))
              oldest
            rw [dropped]
            refine ⟨popped, ?_⟩
            have without : Function.update queue.pending element.key none =
                fun key => (front.map fun node => (node.key, node.expires)).lookup key := by
              funext key
              rw [remains, Dictionary.lookup_removeObject, Function.update_apply]
              rfl
            rw [without] at taken
            exact taken
          · rw [if_neg rested]
            exact ⟨valid.stands nofun (fun _ => filled) nofun, silent⟩
  | sleeping wake =>
      have filled := valid.seen (by rw [stands]; rfl)
      dsimp only
      split
      · exact ⟨valid.stands nofun (fun _ => filled) nofun, silent⟩
      · exact ⟨valid, silent⟩

/-- What holds between two events. -/
structure Served (delay : Nat) (history : List (QueueNote Key)) (queue : TimedQueue Key) : Prop where
  valid : Valid delay queue
  debounced : Debounces delay history queue.pending
  started : queue.waiter = .notStarted -> queue.m_list = []

theorem Served.committedHook {history : List (QueueNote Key)} (served : Served delay history queue)
    (path : Key) (pages : Int) :
    Served delay (history ++ (queue.committedHook delay path pages).2)
      (queue.committedHook delay path pages).1 := by
  have runs : forall waiter : Waiter, (if waiter = .notStarted then .checking else waiter) ≠
      Waiter.notStarted := by
    intro waiter
    cases waiter <;> exact nofun
  have starts : forall {between : TimedQueue Key}, Valid delay between -> Valid delay { between with
      waiter := if between.waiter = .notStarted then .checking else between.waiter } := by
    intro between valid
    by_cases unstarted : between.waiter = .notStarted
    · rw [if_pos unstarted]
      exact valid.stands nofun nofun nofun
    · rw [if_neg unstarted]
      exact valid
  unfold TimedQueue.committedHook
  by_cases many : pages > 1000
  · have notes : (queue.reQueue delay path).2 = [.queued path queue.clock] := by
      rw [TimedQueue.reQueue, (served.valid.eraseFound path).2.2]
      rfl
    rw [if_pos many]
    refine ⟨starts (served.valid.reQueue path), ?_, fun unstarted => absurd unstarted (runs _)⟩
    change Debounces delay (history ++ (queue.reQueue delay path).2) (queue.reQueue delay path).1.pending
    rw [notes, served.valid.pending_reQueue]
    exact served.debounced.queued path queue.clock
  · rw [if_neg many]
    refine ⟨starts served.valid, ?_, fun unstarted => absurd unstarted (runs _)⟩
    rw [List.append_nil]
    exact served.debounced

theorem started_waitUntilExpired (started : queue.waiter ≠ .notStarted) (forever : Bool) :
    (queue.waitUntilExpired forever).1.waiter ≠ .notStarted := by
  unfold TimedQueue.waitUntilExpired
  split
  · next stands => exact absurd stands started
  · split
    · split
      · exact nofun
      · exact started
    · exact nofun
  · exact started
  · exact nofun
  · split
    · exact started
    · split <;> exact nofun
  · split
    · exact nofun
    · exact started

theorem Served.step (forever : Bool) (history : List (QueueNote Key)) (queue : TimedQueue Key)
    (event : QueueEvent Key) (served : Served delay history queue) :
    Served delay (history ++ (system delay forever).emits queue event)
      ((system delay forever).next queue event) := by
  cases event with
  | committed path pages => exact served.committedHook path pages
  | tick elapsed =>
      change Served delay (history ++ []) { queue with clock := queue.clock + elapsed }
      rw [List.append_nil]
      refine ⟨{ served.valid with soon := ?_, read := ?_ }, served.debounced, served.started⟩
      · intro node listed
        have soon := served.valid.soon node listed
        exact Nat.le_trans soon (Nat.add_le_add_right (Nat.le_add_right _ _) delay)
      · exact fun now looks => Nat.le_trans (served.valid.read now looks) (Nat.le_add_right _ _)
  | proceed =>
      rcases served.valid.waitUntilExpired forever served.debounced with ⟨valid, debounced⟩
      refine ⟨valid, debounced, ?_⟩
      intro unstarted
      by_cases before : queue.waiter = .notStarted
      · have idle : queue.waitUntilExpired forever = (queue, []) := by
          unfold TimedQueue.waitUntilExpired
          rw [before]
        change (queue.waitUntilExpired forever).1.m_list = []
        rw [idle]
        exact served.started before
      · exact absurd unstarted (started_waitUntilExpired before forever)
  | spurious =>
      change Served delay (history ++ []) { queue with waiter := queue.waiter.notified }
      rw [List.append_nil]
      refine ⟨served.valid.notified, served.debounced, ?_⟩
      by_cases sleeps : queue.waiter = .asleep
      · exact fun _ => served.valid.asleep sleeps
      · rw [Waiter.notified_of_ne sleeps]
        exact served.started

theorem served_run (delay : Nat) (forever : Bool) (events : List (QueueEvent Key)) :
    Served delay ((system delay forever).trace initial events)
      ((system delay forever).run (initial : TimedQueue Key) events) := by
  have start : Served delay [] (initial : TimedQueue Key) :=
    ⟨⟨List.nodup_nil, List.nodup_nil, nofun, fun _ _ => iff_of_false nofun nofun, List.Pairwise.nil, nofun,
      nofun, nofun, nofun⟩, .start, fun _ => rfl⟩
  exact (system delay forever).run_trace_invariant (Served delay) (Served.step forever) start events

/-! ## What is queued -/

/-- A key that has been queued, with the time. -/
def queuedAt : QueueNote Key -> Option (Key × Nat)
  | .queued key time => some (key, time)
  | _ => none

/-- The commits of more than 1000 pages, each with the time at which it
comes. -/
def bigCommits : Nat -> List (QueueEvent Key) -> List (Key × Nat)
  | _, [] => []
  | clock, .committed path pages :: rest =>
      if pages > 1000 then (path, clock) :: bigCommits clock rest else bigCommits clock rest
  | clock, .tick elapsed :: rest => bigCommits (clock + elapsed) rest
  | clock, _ :: rest => bigCommits clock rest

/-- The hook queues the path of a big commit once, and the clock stays. -/
theorem committedHook_queues (queue : TimedQueue Key) (delay : Nat) (path : Key) (pages : Int) :
    (queue.committedHook delay path pages).1.clock = queue.clock ∧
      (queue.committedHook delay path pages).2.filterMap queuedAt =
        if pages > 1000 then [(path, queue.clock)] else [] := by
  unfold TimedQueue.committedHook
  by_cases big : pages > 1000
  · have silent : (queue.eraseFound path).2.filterMap queuedAt = [] := by
      unfold TimedQueue.eraseFound
      split
      · rfl
      · simp only
        split <;> rfl
    rw [if_pos big, if_pos big]
    refine ⟨(eraseFound_frame queue path).2, ?_⟩
    change ((queue.eraseFound path).2 ++ [QueueNote.queued path queue.clock]).filterMap queuedAt = _
    rw [List.filterMap_append, silent]
    rfl
  · rw [if_neg big, if_neg big]
    exact ⟨rfl, rfl⟩

/-- The thread queues nothing. -/
theorem waitUntilExpired_queues (queue : TimedQueue Key) (forever : Bool) :
    (queue.waitUntilExpired forever).1.clock = queue.clock ∧
      (queue.waitUntilExpired forever).2.filterMap queuedAt = [] := by
  unfold TimedQueue.waitUntilExpired
  split
  · exact ⟨rfl, rfl⟩
  · split
    · split <;> exact ⟨rfl, rfl⟩
    · exact ⟨rfl, rfl⟩
  · exact ⟨rfl, rfl⟩
  · exact ⟨rfl, rfl⟩
  · split
    · exact ⟨rfl, rfl⟩
    · split <;> exact ⟨rfl, rfl⟩
  · split <;> exact ⟨rfl, rfl⟩

/-- What is queued in a run are the big commits. -/
theorem queued_run (delay : Nat) (forever : Bool) (queue : TimedQueue Key)
    (events : List (QueueEvent Key)) :
    ((system delay forever).trace queue events).filterMap queuedAt =
      bigCommits queue.clock events := by
  induction events generalizing queue with
  | nil => rfl
  | cons event rest inductionHypothesis =>
      rw [EventSystem.trace_cons, List.filterMap_append, inductionHypothesis]
      cases event with
      | committed path pages =>
          rcases committedHook_queues queue delay path pages with ⟨stays, queues⟩
          change (queue.committedHook delay path pages).2.filterMap queuedAt ++
            bigCommits (queue.committedHook delay path pages).1.clock rest = _
          rw [queues, stays, bigCommits]
          split <;> rfl
      | tick elapsed => rfl
      | proceed =>
          rcases waitUntilExpired_queues queue forever with ⟨stays, silent⟩
          change (queue.waitUntilExpired forever).2.filterMap queuedAt ++
            bigCommits (queue.waitUntilExpired forever).1.clock rest = _
          rw [silent, stays]
          rfl
      | spurious => rfl

/-! ## Emptying the queue -/

/-- Time passes, or the thread goes on; nobody commits. -/
def Waits : QueueEvent Key -> Prop
  | .tick _ | .proceed => True
  | _ => False

/-- Waiting alone can bring the thread to take out the last node. -/
def Takes (delay : Nat) (forever : Bool) (queue : TimedQueue Key) (front : List (Node Key)) : Prop :=
  Exists fun events : List (QueueEvent Key) => (forall event, event ∈ events -> Waits event) ∧
    ((system delay forever).run queue events).m_list = front ∧
    ((system delay forever).run queue events).waiter = .checking

theorem Takes.after {forever : Bool} {front : List (Node Key)} {event : QueueEvent Key}
    (waits : Waits event) (takes : Takes delay forever ((system delay forever).next queue event) front) :
    Takes delay forever queue front := by
  rcases takes with ⟨events, allWait, taken⟩
  exact ⟨event :: events, List.forall_mem_cons.mpr ⟨waits, allWait⟩, taken⟩

theorem takes_of_reading (forever : Bool) {front : List (Node Key)} {element : Node Key}
    (ends : queue.m_list = front ++ [element]) (reads : queue.waiter = .reading) :
    Takes delay forever queue front := by
  refine ⟨[.tick (element.expires + 1), .proceed, .proceed], ?_, ?_⟩
  · intro event listed
    simp only [List.mem_cons, List.not_mem_nil, or_false] at listed
    rcases listed with rfl | rfl | rfl <;> trivial
  · have late : queue.clock + (element.expires + 1) > element.expires := by omega
    simp [EventSystem.run, EventSystem.next, system, TimedQueue.waitUntilExpired, reads, ends, late]

theorem takes_of_sleeping (forever : Bool) {front : List (Node Key)} {element : Node Key}
    (ends : queue.m_list = front ++ [element]) {wake : Nat} (sleeps : queue.waiter = .sleeping wake) :
    Takes delay forever queue front := by
  have awake : wake ≤ queue.clock + wake := Nat.le_add_left wake queue.clock
  have woken : (system delay forever).next ((system delay forever).next queue (.tick wake)) .proceed =
      { queue with clock := queue.clock + wake, waiter := .reading } := by
    simp [EventSystem.next, system, TimedQueue.waitUntilExpired, sleeps, awake]
  apply Takes.after (show Waits (.tick wake) from trivial)
  apply Takes.after (show Waits .proceed from trivial)
  rw [woken]
  exact takes_of_reading forever ends rfl

/-- Wherever the thread stands, it can come to take out the last node. -/
theorem Served.takes {history : List (QueueNote Key)} (served : Served delay history queue)
    (forever : Bool) {front : List (Node Key)} {element : Node Key}
    (ends : queue.m_list = front ++ [element]) : Takes delay forever queue front := by
  have filled : queue.m_list ≠ [] := by
    rw [ends]
    exact List.append_ne_nil_of_right_ne_nil front (List.cons_ne_nil element [])
  cases stands : queue.waiter with
  | notStarted => exact absurd (served.started stands) filled
  | asleep => exact absurd (served.valid.asleep stands) filled
  | reading => exact takes_of_reading forever ends stands
  | sleeping wake => exact takes_of_sleeping forever ends stands
  | checking =>
      have moves : (system delay forever).next queue .proceed = { queue with waiter := .reading } := by
        simp [EventSystem.next, system, TimedQueue.waitUntilExpired, stands, filled]
      apply Takes.after (show Waits .proceed from trivial)
      rw [moves]
      exact takes_of_reading forever ends rfl
  | looking now =>
      have last : queue.m_list.getLast? = some element := by
        rw [ends]
        exact List.getLast?_concat
      by_cases rested : now > element.expires
      · refine ⟨[.proceed], fun event listed => List.mem_singleton.mp listed ▸ trivial, ?_⟩
        simp [EventSystem.run, EventSystem.next, system, TimedQueue.waitUntilExpired, stands, ends,
          rested]
      · have moves : (system delay forever).next queue .proceed =
            { queue with waiter := .sleeping (queue.clock + (element.expires - now)) } := by
          simp [EventSystem.next, system, TimedQueue.waitUntilExpired, stands, last, rested]
        apply Takes.after (show Waits .proceed from trivial)
        rw [moves]
        exact takes_of_sleeping forever ends rfl

/-- From every served state, waiting alone can empty the queue. -/
theorem Served.drains (forever : Bool) {history : List (QueueNote Key)}
    (served : Served delay history queue) :
    Exists fun events : List (QueueEvent Key) => (forall event, event ∈ events -> Waits event) ∧
      ((system delay forever).run queue events).m_list = [] := by
  generalize size : queue.m_list.length = length
  induction length generalizing queue history with
  | zero => exact ⟨[], nofun, List.length_eq_zero_iff.mp size⟩
  | succ length inductionHypothesis =>
      rcases List.eq_nil_or_concat queue.m_list with empty | ⟨front, element, concat⟩
      · rw [empty] at size
        cases size
      · have ends := concat.trans List.concat_eq_append
        rcases served.takes forever ends with ⟨events, allWait, taken, _⟩
        have later := (system delay forever).run_trace_invariant (Served delay) (Served.step forever)
          served events
        have smaller : ((system delay forever).run queue events).m_list.length = length := by
          rw [ends, List.length_append] at size
          rw [taken]
          exact Nat.succ.inj size
        rcases inductionHypothesis later smaller with ⟨others, othersWait, emptied⟩
        refine ⟨events ++ others, ?_, ?_⟩
        · intro event listed
          exact (List.mem_append.mp listed).elim (allWait event) (othersWait event)
        · rw [EventSystem.run_append]
          exact emptied

/-- Over any run the paths of the big commits are queued and taken out as a
debouncer takes them, the thread sleeps without a deadline only when none is
pending, and waiting alone can always bring it to the point where none is. -/
theorem checkpoints_debounced (delay : Nat) (forever : Bool) (events : List (QueueEvent Key)) :
    ((system delay forever).trace initial events).filterMap queuedAt = bigCommits 0 events ∧
      Debounces delay ((system delay forever).trace initial events)
        ((system delay forever).run initial events).pending ∧
      (((system delay forever).run (initial : TimedQueue Key) events).waiter = .asleep ->
        forall key, ((system delay forever).run initial events).pending key = none) ∧
      Exists fun later : List (QueueEvent Key) => (forall event, event ∈ later -> Waits event) ∧
        forall key, ((system delay forever).run initial (events ++ later)).pending key = none := by
  have served : Served delay _ ((system delay forever).run (initial : TimedQueue Key) events) :=
    served_run delay forever events
  have idle : forall {queue : TimedQueue Key}, queue.m_list = [] -> forall key, queue.pending key = none := by
    intro queue empty key
    rw [pending, entries, empty]
    rfl
  refine ⟨queued_run delay forever initial events, served.debounced,
    fun sleeps => idle (served.valid.asleep sleeps), ?_⟩
  rcases served.drains forever with ⟨later, allWait, emptied⟩
  refine ⟨later, allWait, idle ?_⟩
  rw [EventSystem.run_append]
  exact emptied

end TimedQueue
end WCDB
end HowBigDemo
