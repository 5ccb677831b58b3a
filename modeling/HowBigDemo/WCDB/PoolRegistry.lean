import HowBigDemo.Library.Dictionary
import HowBigDemo.Library.EventSystem
import Mathlib.Data.List.Perm.Basic

namespace HowBigDemo
namespace WCDB

open Library
open Library.Dictionary

/-!
# The pools of a process

`HandlePool::GetPool` keeps one pool for a path and counts the references
that it has given out; recycling the last one removes the pool.  A second
`GetPool` looks a pool up by its tag, but counts the reference on a copy of
the entry.

As long as no lookup by tag finds a pool, there is one pool for a path in
every run.  The second theorem says that each such lookup is paid for with a
recycling that finds no entry.
-/

abbrev Tag := Int32

def InvalidTag : Tag := 0

/-- A pool, known by the order of creation, with its tag and the number of
references. -/
structure PoolEntry where
  pool : Nat
  tag : Tag
  references : Int
  deriving DecidableEq

/-- What `GetPool` gives out. -/
structure RecyclableHandlePool (Path : Type) where
  path : Path
  pool : Nat
  deriving DecidableEq

structure PoolRegistry (Path : Type) where
  s_pools : List (Path × PoolEntry)
  /-- The references given out and not recycled. -/
  live : List (RecyclableHandlePool Path)
  created : Nat

inductive RegistryEvent (Path : Type)
  | getPool (path : Path)
  | getPoolByTag (tag : Tag) (first : Nat)
  | setTag (reference : Nat) (tag : Tag)
  | recycle (reference : Nat)

inductive RegistryNote (Path : Type)
  /-- A lookup by tag has found the pool of a path. -/
  | found (path : Path)
  /-- The recycling of a reference has used the end of the map as an entry. -/
  | dangling (path : Path)
  deriving DecidableEq

namespace PoolRegistry

variable {Path : Type} [DecidableEq Path]

def initial : PoolRegistry Path := ⟨[], [], 0⟩

def getPool (registry : PoolRegistry Path) (path : Path) : PoolRegistry Path :=
  match registry.s_pools.lookup path with
  | none =>
    { s_pools := setObject registry.s_pools path ⟨registry.created, InvalidTag, 1⟩
      live := registry.live ++ [⟨path, registry.created⟩]
      created := registry.created + 1 }
  | some entry =>
    { registry with
      s_pools := setObject registry.s_pools path { entry with references := entry.references + 1 }
      live := registry.live ++ [⟨path, entry.pool⟩] }

def tagged (registry : PoolRegistry Path) (tag : Tag) : List (Path × PoolEntry) :=
  registry.s_pools.filter fun entry => decide (entry.2.tag = tag)

/-- The loop increments the count of a copy, so the entries stay.  The map has
no order of its own: the loop may come to any pool of this tag first. -/
def getPoolByTag (registry : PoolRegistry Path) (tag : Tag) (first : Nat) :
    PoolRegistry Path × List (RegistryNote Path) :=
  if tag = InvalidTag then (registry, [])
  else
    match (registry.tagged tag)[first % (registry.tagged tag).length]? with
    | some (path, entry) =>
      ({ registry with live := registry.live ++ [⟨path, entry.pool⟩] }, [.found path])
    | none => (registry, [])

/-- A pool that has left the map is not found by its tag any more. -/
def setTag (registry : PoolRegistry Path) (reference : RecyclableHandlePool Path) (tag : Tag) :
    PoolRegistry Path :=
  match registry.s_pools.lookup reference.path with
  | some entry =>
    if entry.pool = reference.pool then
      { registry with s_pools := setObject registry.s_pools reference.path { entry with tag := tag } }
    else registry
  | none => registry

/-- `onRecycled` of a reference that has been taken from the live ones. -/
def onRecycled (registry : PoolRegistry Path) (path : Path) :
    PoolRegistry Path × List (RegistryNote Path) :=
  match registry.s_pools.lookup path with
  | some entry =>
    if entry.references - 1 = 0 then
      ({ registry with s_pools := removeObject registry.s_pools path }, [])
    else
      ({ registry with
        s_pools := setObject registry.s_pools path { entry with references := entry.references - 1 } }, [])
  | none => (registry, [.dangling path])

def system : EventSystem (PoolRegistry Path) (RegistryEvent Path) (RegistryNote Path) where
  step registry
    | .getPool path => (registry.getPool path, [])
    | .getPoolByTag tag first => registry.getPoolByTag tag first
    | .setTag index tag =>
      match registry.live[index]? with
      | some reference => (registry.setTag reference tag, [])
      | none => (registry, [])
    | .recycle index =>
      match registry.live[index]? with
      | some reference => onRecycled { registry with live := registry.live.eraseIdx index } reference.path
      | none => (registry, [])

/-! ## What the counts count -/

def references (registry : PoolRegistry Path) (path : Path) : Int :=
  match registry.s_pools.lookup path with
  | some entry => entry.references
  | none => 0

def isOf (path : Path) (reference : RecyclableHandlePool Path) : Bool :=
  decide (reference.path = path)

def isFound (path : Path) : RegistryNote Path -> Bool
  | .found other => decide (other = path)
  | .dangling _ => false

def isDangling (path : Path) : RegistryNote Path -> Bool
  | .found _ => false
  | .dangling other => decide (other = path)

/-- The count of a path falls behind the live references by the lookups by
tag, and is ahead by the recyclings that found no entry. -/
structure Balanced (history : List (RegistryNote Path)) (registry : PoolRegistry Path) : Prop where
  counts : forall path, registry.references path + history.countP (isFound path) =
    registry.live.countP (isOf path) + history.countP (isDangling path)
  positive : forall path entry, registry.s_pools.lookup path = some entry -> 1 ≤ entry.references
  behind : forall path, registry.references path ≤ registry.live.countP (isOf path)

theorem references_eq (registry : PoolRegistry Path) {path : Path} {entry : Option PoolEntry}
    (found : registry.s_pools.lookup path = entry) :
    registry.references path = (entry.map PoolEntry.references).getD 0 := by
  unfold references
  rw [found]
  cases entry <;> rfl

/-- A step that changes one entry and the live references. -/
theorem Balanced.change {history added : List (RegistryNote Path)} {registry registry' : PoolRegistry Path}
    (balanced : Balanced history registry) (path : Path) (entry : Option PoolEntry)
    (lookup : forall other, registry'.s_pools.lookup other =
      if other = path then entry else registry.s_pools.lookup other)
    (positive : forall present, entry = some present -> 1 ≤ present.references)
    (behind : ((entry.map PoolEntry.references).getD 0 : Int) ≤ registry'.live.countP (isOf path))
    (here : ((entry.map PoolEntry.references).getD 0 : Int) + registry.live.countP (isOf path) +
        added.countP (isFound path) =
      registry.references path + registry'.live.countP (isOf path) + added.countP (isDangling path))
    (elsewhere : forall other, other ≠ path ->
      registry'.live.countP (isOf other) = registry.live.countP (isOf other) ∧
        added.countP (isFound other) = 0 ∧ added.countP (isDangling other) = 0) :
    Balanced (history ++ added) registry' := by
  have atPath : registry'.references path = ((entry.map PoolEntry.references).getD 0 : Int) :=
    registry'.references_eq ((lookup path).trans (if_pos rfl))
  have kept : forall other, other ≠ path -> registry'.references other = registry.references other := by
    intro other differs
    unfold references
    rw [lookup other, if_neg differs]
  refine ⟨?_, ?_, ?_⟩
  · intro other
    have before := balanced.counts other
    rw [List.countP_append, List.countP_append]
    by_cases same : other = path
    · subst same
      rw [atPath]
      omega
    · rcases elsewhere other same with ⟨live, noFound, noDangling⟩
      rw [kept other same, live, noFound, noDangling]
      omega
  · intro other present found
    rw [lookup other] at found
    split at found
    · exact positive present found
    · exact balanced.positive other present found
  · intro other
    by_cases same : other = path
    · subst same
      rw [atPath]
      exact behind
    · rw [kept other same, (elsewhere other same).1]
      exact balanced.behind other

theorem countP_isOf_append (live : List (RecyclableHandlePool Path)) (reference : RecyclableHandlePool Path)
    (path : Path) : (live ++ [reference]).countP (isOf path) =
      live.countP (isOf path) + if reference.path = path then 1 else 0 := by
  rw [List.countP_append, List.countP_singleton]
  simp [isOf]

theorem countP_isOf_append_of_ne (live : List (RecyclableHandlePool Path))
    {reference : RecyclableHandlePool Path} {path : Path} (differs : path ≠ reference.path) :
    (live ++ [reference]).countP (isOf path) = live.countP (isOf path) := by
  rw [countP_isOf_append, if_neg (Ne.symm differs), Nat.add_zero]

theorem countP_isOf_eraseIdx {live : List (RecyclableHandlePool Path)} {index : Nat}
    {reference : RecyclableHandlePool Path} (found : live[index]? = some reference) (path : Path) :
    live.countP (isOf path) =
      (live.eraseIdx index).countP (isOf path) + if reference.path = path then 1 else 0 := by
  rcases List.getElem?_eq_some_iff.mp found with ⟨inRange, isReference⟩
  rw [← (List.getElem_cons_eraseIdx_perm inRange).countP_eq, List.countP_cons, isReference]
  simp [isOf]

theorem Balanced.getPool {history : List (RegistryNote Path)} {registry : PoolRegistry Path}
    (balanced : Balanced history registry) (path : Path) :
    Balanced (history ++ []) (registry.getPool path) := by
  unfold PoolRegistry.getPool
  split
  · next absent =>
      apply balanced.change path _ (fun other => lookup_setObject registry.s_pools path other _)
      · rintro _ ⟨⟩
        exact Int.le_refl 1
      · rw [countP_isOf_append, if_pos rfl]
        change (1 : Int) ≤ ((_ + 1 : Nat) : Int)
        omega
      · rw [registry.references_eq absent, countP_isOf_append, if_pos rfl]
        change (1 : Int) + _ + 0 = 0 + ((_ + 1 : Nat) : Int) + 0
        omega
      · exact fun other differs => ⟨countP_isOf_append_of_ne registry.live differs, rfl, rfl⟩
  · next entry present =>
      apply balanced.change path _ (fun other => lookup_setObject registry.s_pools path other _)
      · rintro _ ⟨⟩
        have atLeast := balanced.positive path entry present
        change 1 ≤ entry.references + 1
        omega
      · have before := balanced.behind path
        rw [registry.references_eq present] at before
        rw [countP_isOf_append, if_pos rfl]
        change entry.references ≤ _ at before
        change entry.references + 1 ≤ ((_ + 1 : Nat) : Int)
        omega
      · rw [registry.references_eq present, countP_isOf_append, if_pos rfl]
        change entry.references + 1 + _ + 0 = entry.references + ((_ + 1 : Nat) : Int) + 0
        omega
      · exact fun other differs => ⟨countP_isOf_append_of_ne registry.live differs, rfl, rfl⟩

theorem Balanced.getPoolByTag {history : List (RegistryNote Path)} {registry : PoolRegistry Path}
    (balanced : Balanced history registry) (tag : Tag) (first : Nat) :
    Balanced (history ++ (registry.getPoolByTag tag first).2)
      (registry.getPoolByTag tag first).1 := by
  have still : Balanced (history ++ []) registry := by rwa [List.append_nil]
  unfold PoolRegistry.getPoolByTag
  split
  · exact still
  · split
    · next path entry _ =>
        apply balanced.change path (registry.s_pools.lookup path)
        · intro other
          split
          · next same => rw [same]
          · rfl
        · exact balanced.positive path
        · have before := balanced.behind path
          rw [registry.references_eq rfl] at before
          rw [countP_isOf_append, if_pos rfl]
          omega
        · rw [registry.references_eq rfl, countP_isOf_append, if_pos rfl]
          have one : [RegistryNote.found path].countP (isFound path) = 1 := by simp [isFound]
          have none : [RegistryNote.found path].countP (isDangling path) = 0 := rfl
          rw [one, none]
          omega
        · intro other differs
          exact ⟨countP_isOf_append_of_ne registry.live differs, by simp [isFound, Ne.symm differs], rfl⟩
    · exact still

theorem Balanced.setTag {history : List (RegistryNote Path)} {registry : PoolRegistry Path}
    (balanced : Balanced history registry) (reference : RecyclableHandlePool Path) (tag : Tag) :
    Balanced (history ++ []) (registry.setTag reference tag) := by
  have still : Balanced (history ++ []) registry := by rwa [List.append_nil]
  unfold PoolRegistry.setTag
  split
  · next entry present =>
      split
      · apply balanced.change reference.path _
          (fun other => lookup_setObject registry.s_pools reference.path other _)
        · rintro _ ⟨⟩
          exact balanced.positive reference.path entry present
        · have before := balanced.behind reference.path
          rwa [registry.references_eq present] at before
        · rw [registry.references_eq present]
          rfl
        · exact fun _ _ => ⟨rfl, rfl, rfl⟩
      · exact still
  · exact still

theorem Balanced.recycle {history : List (RegistryNote Path)} {registry : PoolRegistry Path}
    (balanced : Balanced history registry) {index : Nat} {reference : RecyclableHandlePool Path}
    (found : registry.live[index]? = some reference) :
    Balanced
      (history ++
        (onRecycled { registry with live := registry.live.eraseIdx index } reference.path).2)
      (onRecycled { registry with live := registry.live.eraseIdx index } reference.path).1 := by
  have here : registry.live.countP (isOf reference.path) =
      (registry.live.eraseIdx index).countP (isOf reference.path) + 1 := by
    rw [countP_isOf_eraseIdx found, if_pos rfl]
  have elsewhere : forall other, other ≠ reference.path ->
      (registry.live.eraseIdx index).countP (isOf other) = registry.live.countP (isOf other) := by
    intro other differs
    rw [countP_isOf_eraseIdx found, if_neg (Ne.symm differs), Nat.add_zero]
  unfold onRecycled
  split
  · next entry present =>
      have isPresent : registry.s_pools.lookup reference.path = some entry := present
      split
      · next last =>
          apply balanced.change reference.path none
            (fun other => lookup_removeObject registry.s_pools reference.path other)
          · exact nofun
          · exact Int.natCast_nonneg _
          · rw [registry.references_eq isPresent, here]
            change (0 : Int) + ((_ + 1 : Nat) : Int) + 0 = entry.references +
              ((registry.live.eraseIdx index).countP (isOf reference.path) : Nat) + 0
            omega
          · exact fun other differs => ⟨elsewhere other differs, rfl, rfl⟩
      · next more =>
          apply balanced.change reference.path _
            (fun other => lookup_setObject registry.s_pools reference.path other _)
          · rintro _ ⟨⟩
            have atLeast := balanced.positive reference.path entry isPresent
            change 1 ≤ entry.references - 1
            omega
          · have before := balanced.behind reference.path
            rw [registry.references_eq isPresent, here] at before
            change entry.references ≤ _ at before
            change entry.references - 1 ≤ ((registry.live.eraseIdx index).countP (isOf reference.path) : Nat)
            omega
          · rw [registry.references_eq isPresent, here]
            change entry.references - 1 + ((_ + 1 : Nat) : Int) + 0 = entry.references +
              ((registry.live.eraseIdx index).countP (isOf reference.path) : Nat) + 0
            omega
          · exact fun other differs => ⟨elsewhere other differs, rfl, rfl⟩
  · next absent =>
      have isAbsent : registry.s_pools.lookup reference.path = none := absent
      apply balanced.change reference.path none
      · intro other
        split
        · next same => rw [same, isAbsent]
        · rfl
      · exact nofun
      · exact Int.natCast_nonneg _
      · rw [registry.references_eq isAbsent, here]
        have one : [RegistryNote.dangling reference.path].countP (isDangling reference.path) = 1 := by
          simp [isDangling]
        have none : [RegistryNote.dangling reference.path].countP (isFound reference.path) = 0 := rfl
        rw [one, none]
        change (0 : Int) + ((_ + 1 : Nat) : Int) + 0 = 0 +
          ((registry.live.eraseIdx index).countP (isOf reference.path) : Nat) + 1
        omega
      · intro other differs
        exact ⟨elsewhere other differs, rfl, by simp [isDangling, Ne.symm differs]⟩

/-- Every step keeps the counts in balance. -/
theorem Balanced.step (history : List (RegistryNote Path)) (registry : PoolRegistry Path)
    (event : RegistryEvent Path) (balanced : Balanced history registry) :
    Balanced (history ++ system.emits registry event) (system.next registry event) := by
  have still : Balanced (history ++ []) registry := by rwa [List.append_nil]
  unfold EventSystem.emits EventSystem.next system
  cases event with
  | getPool path => exact balanced.getPool path
  | getPoolByTag tag first => exact balanced.getPoolByTag tag first
  | setTag index tag =>
      simp only
      split
      · exact balanced.setTag _ tag
      · exact still
  | recycle index =>
      simp only
      split
      · next reference found => exact balanced.recycle found
      · exact still

theorem balanced_run (events : List (RegistryEvent Path)) :
    Balanced (system.trace initial events) (system.run initial events) := by
  have start : Balanced ([] : List (RegistryNote Path)) initial := by
    refine ⟨fun _ => rfl, ?_, fun _ => Int.le_refl 0⟩
    intro path entry impossible
    cases impossible
  exact system.run_trace_invariant Balanced Balanced.step start events

/-- In every run, a recycling that finds no entry has been preceded by a lookup
by tag of that path; and when all references to a path are recycled, its entry
is gone and there have been as many of the one as of the other. -/
theorem danglings_of_run (events : List (RegistryEvent Path)) (path : Path) :
    (system.trace initial events).countP (isDangling path) ≤
        (system.trace initial events).countP (isFound path) ∧
      ((system.run initial events).live.countP (isOf path) = 0 ->
        (system.run initial events).s_pools.lookup path = none ∧
          (system.trace initial events).countP (isDangling path) =
            (system.trace initial events).countP (isFound path)) := by
  have balanced := balanced_run events
  have counts := balanced.counts path
  have behind := balanced.behind path
  refine ⟨by omega, ?_⟩
  intro recycled
  cases found : (system.run initial events).s_pools.lookup path with
  | none =>
      rw [references_eq _ found] at counts
      change (0 : Int) + _ = _ at counts
      exact ⟨rfl, by omega⟩
  | some entry =>
      have positive := balanced.positive path entry found
      rw [references_eq _ found] at behind
      change entry.references ≤ _ at behind
      omega

/-- A database opened by its path, once more by its tag, and both given up. -/
def openedByTag : List (RegistryEvent String) :=
  [.getPool "a", .setTag 0 7, .getPoolByTag 7 0, .recycle 0, .recycle 0]

theorem danglings_of_openedByTag :
    (system.trace initial openedByTag).countP (isDangling "a") = 1 :=
  ((danglings_of_run openedByTag "a").2 (by decide)).2.trans (by decide)

/-! ## One pool for a path -/

/-- The live references of a path have the pool of its entry, unless a lookup
by tag has found it. -/
def Shared (history : List (RegistryNote Path)) (registry : PoolRegistry Path) (path : Path) : Prop :=
  history.countP (isFound path) = 0 -> forall reference, reference ∈ registry.live ->
    reference.path = path -> forall entry, registry.s_pools.lookup path = some entry ->
      reference.pool = entry.pool

/-- A step that keeps the pool of a path. -/
theorem Shared.change {history added : List (RegistryNote Path)} {registry registry' : PoolRegistry Path}
    {path : Path} (shared : Shared history registry path)
    (pools : forall entry, registry'.s_pools.lookup path = some entry -> Exists fun before =>
      registry.s_pools.lookup path = some before ∧ before.pool = entry.pool)
    (live : forall reference, reference ∈ registry'.live -> reference.path = path ->
      added.countP (isFound path) = 0 -> reference ∈ registry.live ∨
        forall entry, registry.s_pools.lookup path = some entry -> reference.pool = entry.pool) :
    Shared (history ++ added) registry' path := by
  intro unfound reference listed isOfPath entry found
  rw [List.countP_append] at unfound
  rcases pools entry found with ⟨before, wasFound, same⟩
  rw [← same]
  rcases live reference listed isOfPath (by omega) with old | new
  · exact shared (by omega) reference old isOfPath before wasFound
  · exact new before wasFound

/-- An entry that is set anew with its pool. -/
theorem lookup_setObject_pool {entries : List (Path × PoolEntry)} {path other : Path}
    {before after entry : PoolEntry} (present : entries.lookup path = some before)
    (found : (setObject entries path after).lookup other = some entry) (same : after.pool = before.pool) :
    Exists fun old => entries.lookup other = some old ∧ old.pool = entry.pool := by
  rw [lookup_setObject] at found
  split at found
  · next here =>
      cases found
      exact ⟨before, here ▸ present, same.symm⟩
  · exact ⟨entry, found, rfl⟩

theorem Shared.getPool {history : List (RegistryNote Path)} {registry : PoolRegistry Path} {path : Path}
    (shared : Shared history registry path) (balanced : Balanced history registry) (other : Path) :
    Shared (history ++ []) (registry.getPool other) path := by
  unfold PoolRegistry.getPool
  split
  · next absent =>
      intro unfound reference listed isOfPath entry found
      rw [List.append_nil] at unfound
      have lookup : (setObject registry.s_pools other
          ⟨registry.created, InvalidTag, 1⟩).lookup path = some entry := found
      rw [lookup_setObject] at lookup
      rcases List.mem_append.mp listed with old | isNew
      · split at lookup
        · next here =>
            -- nobody has a reference to a path that has no entry
            have counts := balanced.counts path
            rw [registry.references_eq (here ▸ absent), unfound] at counts
            have alive : 0 < registry.live.countP (isOf path) :=
              List.countP_pos_iff.mpr ⟨reference, old, decide_eq_true isOfPath⟩
            have behind := balanced.behind path
            change (0 : Int) + 0 = _ at counts
            omega
        · exact shared unfound reference old isOfPath entry lookup
      · rw [List.mem_singleton] at isNew
        subst isNew
        rw [if_pos (show path = other from isOfPath.symm)] at lookup
        cases lookup
        rfl
  · next before present =>
      apply shared.change
      · exact fun entry found => lookup_setObject_pool present found rfl
      · intro reference listed isOfPath _
        rcases List.mem_append.mp listed with old | isNew
        · exact Or.inl old
        · rw [List.mem_singleton] at isNew
          subst isNew
          refine Or.inr ?_
          intro entry found
          have here : other = path := isOfPath
          rw [here, found] at present
          cases present
          rfl

theorem Shared.recycle {history : List (RegistryNote Path)} {registry : PoolRegistry Path} {path : Path}
    (shared : Shared history registry path) (index : Nat) (other : Path) :
    Shared
      (history ++ (onRecycled { registry with live := registry.live.eraseIdx index } other).2)
      (onRecycled { registry with live := registry.live.eraseIdx index } other).1 path := by
  unfold onRecycled
  split
  · next before present =>
      split
      · apply shared.change
        · intro entry found
          have lookup : (removeObject registry.s_pools other).lookup path = some entry := found
          rw [lookup_removeObject] at lookup
          split at lookup
          · cases lookup
          · exact ⟨entry, lookup, rfl⟩
        · exact fun reference listed _ _ => Or.inl (List.mem_of_mem_eraseIdx listed)
      · apply shared.change
        · exact fun entry found => lookup_setObject_pool present found rfl
        · exact fun reference listed _ _ => Or.inl (List.mem_of_mem_eraseIdx listed)
  · apply shared.change
    · exact fun entry found => ⟨entry, found, rfl⟩
    · exact fun reference listed _ _ => Or.inl (List.mem_of_mem_eraseIdx listed)

theorem Shared.step {path : Path} (history : List (RegistryNote Path)) (registry : PoolRegistry Path)
    (event : RegistryEvent Path) (holds : Balanced history registry ∧ Shared history registry path) :
    Balanced (history ++ system.emits registry event) (system.next registry event) ∧
      Shared (history ++ system.emits registry event) (system.next registry event) path := by
  rcases holds with ⟨balanced, shared⟩
  refine ⟨balanced.step history registry event, ?_⟩
  have still : Shared (history ++ []) registry path := by rwa [List.append_nil]
  unfold EventSystem.emits EventSystem.next system
  cases event with
  | getPool other => exact shared.getPool balanced other
  | getPoolByTag tag first =>
      simp only
      unfold PoolRegistry.getPoolByTag
      split
      · exact still
      · split
        · next other entry _ =>
            apply shared.change
            · exact fun entry found => ⟨entry, found, rfl⟩
            · intro reference listed isOfPath unfound
              rcases List.mem_append.mp listed with old | isNew
              · exact Or.inl old
              · rw [List.mem_singleton] at isNew
                subst isNew
                simp [isFound, show other = path from isOfPath] at unfound
        · exact still
  | setTag index tag =>
      simp only
      split
      · next reference _ =>
          unfold PoolRegistry.setTag
          split
          · next before present =>
              split
              · apply shared.change
                · exact fun entry found => lookup_setObject_pool present found rfl
                · exact fun _ listed _ _ => Or.inl listed
              · exact still
          · exact still
      · exact still
  | recycle index =>
      simp only
      split
      · next reference _ => exact shared.recycle index reference.path
      · exact still

/-- As long as no lookup by tag has found the pool of a path, all references to
the path have one pool, and its entry counts them. -/
theorem one_pool_for_path (events : List (RegistryEvent Path)) {path : Path}
    (unfound : (system.trace initial events).countP (isFound path) = 0)
    {first second : RecyclableHandlePool Path} (isFirst : first ∈ (system.run initial events).live)
    (isSecond : second ∈ (system.run initial events).live) (firstPath : first.path = path)
    (secondPath : second.path = path) :
    first.pool = second.pool ∧ Exists fun entry =>
      (system.run initial events).s_pools.lookup path = some entry ∧ entry.pool = first.pool ∧
        entry.references = (system.run initial events).live.countP (isOf path) := by
  have start : Balanced ([] : List (RegistryNote Path)) initial ∧
      Shared ([] : List (RegistryNote Path)) initial path := by
    refine ⟨⟨fun _ => rfl, ?_, fun _ => Int.le_refl 0⟩, ?_⟩
    · intro path entry impossible
      cases impossible
    · intro _ reference impossible
      cases impossible
  have holds := system.run_trace_invariant
    (fun history registry => Balanced history registry ∧ Shared history registry path)
    Shared.step start events
  rw [List.nil_append] at holds
  rcases holds with ⟨balanced, shared⟩
  have alive : 0 < (system.run initial events).live.countP (isOf path) :=
    List.countP_pos_iff.mpr ⟨first, isFirst, decide_eq_true firstPath⟩
  have counts := balanced.counts path
  have behind := balanced.behind path
  cases found : (system.run initial events).s_pools.lookup path with
  | none =>
      rw [references_eq _ found] at counts
      change (0 : Int) + _ = _ at counts
      omega
  | some entry =>
      have ofFirst := shared unfound first isFirst firstPath entry found
      have ofSecond := shared unfound second isSecond secondPath entry found
      rw [references_eq _ found] at counts behind
      change entry.references + _ = _ at counts
      change entry.references ≤ _ at behind
      exact ⟨ofFirst.trans ofSecond.symm, entry, rfl, ofFirst.symm, by omega⟩

/-- A path that is opened again after a reference has been recycled. -/
def openedAgain : List (RegistryEvent String) :=
  [.getPool "a", .getPool "b", .getPool "a", .recycle 0, .getPool "a"]

theorem one_pool_for_path_openedAgain : (0 : Nat) = 0 ∧ Exists fun entry =>
    (system.run initial openedAgain).s_pools.lookup "a" = some entry ∧ entry.pool = 0 ∧
      entry.references = (system.run initial openedAgain).live.countP (isOf "a") :=
  @one_pool_for_path _ _ openedAgain "a" (by decide) ⟨"a", 0⟩ ⟨"a", 0⟩ (by decide) (by decide) rfl rfl

end PoolRegistry
end WCDB
end HowBigDemo
