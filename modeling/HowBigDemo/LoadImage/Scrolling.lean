import HowBigDemo.LoadImage.TaskQueue

namespace HowBigDemo
namespace LoadImage

open Library
open TaskFact

/-!
# Scrolling the image table over the task queue

A cell is requested when its row enters the visible window, and each request
submits the three image tasks of that row.  The overflow rule drops the
oldest task, and the comment above it says what for: a cell that did not
stay on screen need not draw its images.  Oldest and off screen are the
same only while the table scrolls in one direction.  A row that stays on
screen while rows enter and leave beside it keeps its old place in the
queue, so its tasks can be the oldest.

The window, the requests and the queue are one state below, so that the two
orders can be compared.  `visible_images_kept_iff` says exactly which steps
are harmless: those that find at most `maxQueueLength - 4` tasks behind
every waiting task of a row that stays on screen.
-/

/-- One image of one row request.  Requests are numbered in their order. -/
structure ImageTask where
  request : Nat
  row : Nat
  image : Fin 3
  deriving DecidableEq

/-- Every image block answers YES and submits nothing. -/
def drawImage : ImageTask -> Invocation ImageTask :=
  plain fun _ => true

/-- The window's first row, the rows requested so far and the queue, with
the tasks that were executed and dropped. -/
structure ImageTable where
  top : Nat
  requested : List Nat
  vc : LoadImageViewController ImageTask
  executed : List ImageTask
  dropped : List ImageTask
  deriving DecidableEq

namespace ImageTable

def numberOfRowsInSection : Nat := 399

/-- The three blocks of one cell request, in the order of their `addTask:`
calls. -/
def cellTasks (request row : Nat) : List ImageTask :=
  [⟨request, row, 0⟩, ⟨request, row, 1⟩, ⟨request, row, 2⟩]

/-- Request the cell of a row. -/
def cellForRow (table : ImageTable) (row : Nat) : ImageTable :=
  let added := addTasks table.vc (cellTasks table.requested.length row)
  { table with
    requested := table.requested ++ [row]
    vc := added.1
    dropped := table.dropped ++ evictions added.2 }

/-- The observer's call before the run loop waits. -/
def beforeWaiting (table : ImageTable) : ImageTable :=
  match callback drawImage table.vc.tasks.length table.vc with
  | .ok (vc, facts) => { table with vc := vc, executed := table.executed ++ executions facts }
  | .error _ => table

/-- The user scrolls by one row, or the observer fires. -/
inductive TableEvent
  | scrollDown
  | scrollUp
  | callback
  deriving DecidableEq

/-- The window's next first row and the row that enters, if the window of
`n` rows can move. -/
def scrolled (n top : Nat) : TableEvent -> Option (Nat × Nat)
  | .scrollDown =>
      if 0 < n ∧ top + n < numberOfRowsInSection then some (top + 1, top + n) else none
  | .scrollUp => if 0 < n ∧ 0 < top then some (top - 1, top - 1) else none
  | .callback => none

/-- The table and the observer in any order, with `n` visible rows. -/
def system (n : Nat) : EventSystem ImageTable TableEvent Unit where
  step table event :=
    match event with
    | .callback => (table.beforeWaiting, [])
    | _ =>
      match scrolled n table.top event with
      | some (top, row) => ({ table.cellForRow row with top := top }, [])
      | none => (table, [])

/-- The table before its first layout. -/
def empty (maxQueueLength : Nat) : ImageTable :=
  ⟨0, [], ⟨[], maxQueueLength⟩, [], []⟩

/-- The requests of the `n` top rows, in order. -/
def requestInitialRows (n maxQueueLength : Nat) : ImageTable :=
  (List.range n).foldl cellForRow (empty maxQueueLength)

/-- The row is in the window that starts at `top`. -/
def InWindow (n top row : Nat) : Prop :=
  top ≤ row ∧ row < top + n

instance (n top row : Nat) : Decidable (InWindow n top row) :=
  inferInstanceAs (Decidable (_ ∧ _))

/-- The task belongs to the latest request of its row. -/
def Latest (requested : List Nat) (task : ImageTask) : Prop :=
  requested[task.request]? = some task.row ∧ task.row ∉ requested.drop (task.request + 1)

instance (requested : List Nat) (task : ImageTask) : Decidable (Latest requested task) :=
  inferInstanceAs (Decidable (_ ∧ _))

/-- The task's row has not left the window since the task's request. -/
def OnScreen (n : Nat) (table : ImageTable) (task : ImageTask) : Prop :=
  InWindow n table.top task.row ∧ Latest table.requested task

instance (n : Nat) (table : ImageTable) (task : ImageTask) : Decidable (OnScreen n table task) :=
  inferInstanceAs (Decidable (_ ∧ _))

/-- Only rows that left the window lost images: no dropped task is still on
screen, and the three tasks of the latest request of every visible row were
executed or are waiting. -/
structure KeepsVisibleImages (n : Nat) (table : ImageTable) : Prop where
  dropped : forall task, task ∈ table.dropped -> ¬ OnScreen n table task
  drawn : forall row, InWindow n table.top row ->
    Exists fun request => forall image, Latest table.requested ⟨request, row, image⟩ ∧
      (⟨request, row, image⟩ ∈ table.executed ∨ ⟨request, row, image⟩ ∈ table.vc.tasks)

/-- Every waiting task whose row stays on screen in this step has so few
tasks behind it that three more still fit. -/
def RoomBehind (n : Nat) (table : ImageTable) (event : TableEvent) : Prop :=
  forall top row, scrolled n table.top event = some (top, row) ->
    forall before task after, table.vc.tasks = before ++ task :: after ->
      OnScreen n table task -> InWindow n top task.row ->
        after.length + 3 < table.vc.maxQueueLength

/-! ## One step of the window -/

/-- The row that enters is new to the window, and every other row of the new
window was already on screen. -/
theorem scrolled_spec {n top newTop row : Nat} {event : TableEvent}
    (moved : scrolled n top event = some (newTop, row)) :
    0 < n ∧ ¬ InWindow n top row ∧ InWindow n newTop row ∧
      forall other, InWindow n newTop other -> other ≠ row -> InWindow n top other := by
  cases event with
  | scrollDown =>
      by_cases possible : 0 < n ∧ top + n < numberOfRowsInSection
      · simp only [scrolled, if_pos possible, Option.some.injEq, Prod.mk.injEq] at moved
        rcases moved with ⟨rfl, rfl⟩
        simp only [InWindow]
        refine ⟨possible.1, ?_, ?_, ?_⟩ <;> omega
      · simp only [scrolled, if_neg possible] at moved
        cases moved
  | scrollUp =>
      by_cases possible : 0 < n ∧ 0 < top
      · simp only [scrolled, if_pos possible, Option.some.injEq, Prod.mk.injEq] at moved
        rcases moved with ⟨rfl, rfl⟩
        simp only [InWindow]
        refine ⟨possible.1, ?_, ?_, ?_⟩ <;> omega
      · simp only [scrolled, if_neg possible] at moved
        cases moved
  | callback => cases moved

/-- A step that moves the window requests the cell of the row that enters. -/
theorem next_of_scrolled {n : Nat} {window : Nat × Nat} {table : ImageTable} {event : TableEvent}
    (moved : scrolled n table.top event = some window) :
    (system n).next table event = { table.cellForRow window.2 with top := window.1 } := by
  cases event with
  | callback => cases moved
  | scrollDown => simp only [EventSystem.next, system, moved]
  | scrollUp => simp only [EventSystem.next, system, moved]

/-- A step that does not move the window is an observer call or does nothing. -/
theorem next_of_not_scrolled {n : Nat} {table : ImageTable} {event : TableEvent}
    (still : scrolled n table.top event = none) :
    (system n).next table event = table.beforeWaiting ∨ (system n).next table event = table := by
  cases event with
  | callback => exact Or.inl rfl
  | scrollDown => right; simp only [EventSystem.next, system, still]
  | scrollUp => right; simp only [EventSystem.next, system, still]

/-- The effect of one request on a queue within its bound. -/
theorem cellForRow_eq {table : ImageTable}
    (fits : table.vc.tasks.length ≤ table.vc.maxQueueLength) (row : Nat) :
    table.cellForRow row =
      { top := table.top
        requested := table.requested ++ [row]
        vc :=
          { tasks := keepNewest table.vc.maxQueueLength
              (table.vc.tasks ++ cellTasks table.requested.length row)
            maxQueueLength := table.vc.maxQueueLength }
        executed := table.executed
        dropped := table.dropped ++ discarded table.vc.maxQueueLength
          (table.vc.tasks ++ cellTasks table.requested.length row) } := by
  have added := addTasks_eq fits (cellTasks table.requested.length row)
  simp only [cellForRow, added.1, added.2]

/-- The observer executes the oldest waiting task, if there is one. -/
theorem beforeWaiting_eq (table : ImageTable) :
    table.beforeWaiting =
      { table with
        vc := { table.vc with tasks := table.vc.tasks.tail }
        executed := table.executed ++ table.vc.tasks.head?.toList } := by
  have returned := callback_plain (fun _ : ImageTask => true) table.vc.tasks.length table.vc
    (Nat.le_refl _)
  unfold beforeWaiting drawImage
  rw [returned]
  cases tasks : table.vc.tasks with
  | nil => rfl
  | cons first rest => rfl

theorem mem_cellTasks_iff {request row : Nat} {task : ImageTask} :
    task ∈ cellTasks request row ↔ task.request = request ∧ task.row = row := by
  cases task with
  | mk request' row' image =>
      simp only [cellTasks, List.mem_cons, ImageTask.mk.injEq, List.not_mem_nil, or_false]
      constructor
      · rintro (⟨same, rows, _⟩ | ⟨same, rows, _⟩ | ⟨same, rows, _⟩) <;> exact ⟨same, rows⟩
      · rintro ⟨rfl, rfl⟩
        simp only [true_and]
        revert image
        decide

/-- A later request of another row leaves a task's standing unchanged; one
of its own row ends it. -/
theorem latest_concat {requested : List Nat} {row : Nat} {task : ImageTask}
    (known : task.request < requested.length) :
    Latest (requested ++ [row]) task ↔ Latest requested task ∧ task.row ≠ row := by
  unfold Latest
  rw [List.getElem?_append_left known, List.drop_append_of_le_length known, List.mem_append,
    List.mem_singleton, not_or, and_assoc]

theorem latest_new_request (requested : List Nat) (row : Nat) (image : Fin 3) :
    Latest (requested ++ [row]) ⟨requested.length, row, image⟩ := by
  constructor
  · exact List.getElem?_concat_length
  · rw [List.drop_of_length_le (by simp)]
    exact List.not_mem_nil

/-- The tasks known before a step are on screen after it exactly if they
were on screen and their row stays. -/
theorem onScreen_after_request {n top row : Nat} {table : ImageTable} {event : TableEvent}
    (moved : scrolled n table.top event = some (top, row)) {task : ImageTask}
    (known : task.request < table.requested.length) :
    InWindow n top task.row ∧ Latest (table.requested ++ [row]) task ↔
      OnScreen n table task ∧ InWindow n top task.row := by
  rcases scrolled_spec moved with ⟨_, entering, _, staying⟩
  rw [latest_concat known]
  constructor
  · rintro ⟨visible, latest, other⟩
    exact ⟨⟨staying task.row visible other, latest⟩, visible⟩
  · rintro ⟨⟨before, latest⟩, visible⟩
    exact ⟨visible, latest, fun same => entering (same ▸ before)⟩

/-! ## The step law -/

/-- What every reachable table satisfies, whether or not visible rows have
lost images. -/
structure Sound (n : Nat) (table : ImageTable) : Prop where
  fits : table.vc.tasks.length ≤ table.vc.maxQueueLength
  room : 0 < n -> 3 ≤ table.vc.maxQueueLength
  waiting_known : forall task, task ∈ table.vc.tasks -> task.request < table.requested.length
  dropped_known : forall task, task ∈ table.dropped -> task.request < table.requested.length

theorem Sound.cellForRow {n : Nat} {table : ImageTable} (sound : Sound n table) (row : Nat) :
    Sound n (table.cellForRow row) := by
  have known : forall task, task ∈ table.vc.tasks ++ cellTasks table.requested.length row ->
      task.request < (table.requested ++ [row]).length := by
    intro task member
    rw [List.length_append, List.length_singleton]
    rcases List.mem_append.mp member with waiting | fresh
    · exact Nat.lt_succ_of_lt (sound.waiting_known task waiting)
    · rw [(mem_cellTasks_iff.mp fresh).1]
      exact Nat.lt_succ_self _
  rw [cellForRow_eq sound.fits]
  refine ⟨length_keepNewest_le _ _, sound.room, ?_, ?_⟩
  · intro task member
    exact known task (List.mem_of_mem_drop member)
  · intro task member
    rcases List.mem_append.mp member with earlier | now
    · exact Nat.lt_of_lt_of_le (sound.dropped_known task earlier) (by simp)
    · exact known task (List.mem_of_mem_take now)

theorem Sound.beforeWaiting {n : Nat} {table : ImageTable} (sound : Sound n table) :
    Sound n table.beforeWaiting := by
  rw [beforeWaiting_eq]
  refine ⟨?_, sound.room, ?_, sound.dropped_known⟩
  · change table.vc.tasks.tail.length ≤ table.vc.maxQueueLength
    rw [List.length_tail]
    exact Nat.le_trans (Nat.sub_le _ _) sound.fits
  · intro task member
    exact sound.waiting_known task (List.mem_of_mem_tail member)

theorem Sound.next {n : Nat} {table : ImageTable} (sound : Sound n table) (event : TableEvent) :
    Sound n ((system n).next table event) := by
  cases moved : scrolled n table.top event with
  | none =>
      rcases next_of_not_scrolled moved with fired | same
      · rw [fired]
        exact sound.beforeWaiting
      · rw [same]
        exact sound
  | some window =>
      rw [next_of_scrolled moved]
      have requested := sound.cellForRow window.2
      exact ⟨requested.fits, requested.room, requested.waiting_known, requested.dropped_known⟩

/-- The observer never takes an image from a visible row. -/
theorem KeepsVisibleImages.beforeWaiting {n : Nat} {table : ImageTable}
    (keeps : KeepsVisibleImages n table) : KeepsVisibleImages n table.beforeWaiting := by
  rw [beforeWaiting_eq]
  refine ⟨keeps.dropped, ?_⟩
  intro row visible
  rcases keeps.drawn row visible with ⟨request, drawn⟩
  refine ⟨request, fun image => ⟨(drawn image).1, ?_⟩⟩
  rcases (drawn image).2 with executed | waiting
  · exact Or.inl (List.mem_append_left _ executed)
  · cases tasks : table.vc.tasks with
    | nil =>
        rw [tasks] at waiting
        cases waiting
    | cons first rest =>
        rw [tasks] at waiting
        rcases List.mem_cons.mp waiting with same | later
        · exact Or.inl (List.mem_append_right _ (same ▸ List.mem_singleton_self _))
        · exact Or.inr later

/-- A scroll step with room behind every task that stays on screen takes no
image from a visible row. -/
theorem KeepsVisibleImages.scroll {n top row : Nat} {table : ImageTable} {event : TableEvent}
    (sound : Sound n table) (keeps : KeepsVisibleImages n table)
    (moved : scrolled n table.top event = some (top, row)) (room : RoomBehind n table event) :
    KeepsVisibleImages n { table.cellForRow row with top := top } := by
  rcases scrolled_spec moved with ⟨positive, _, _, staying⟩
  have cellFits : (cellTasks table.requested.length row).length ≤ table.vc.maxQueueLength :=
    sound.room positive
  have survives : forall task, task ∈ table.vc.tasks -> OnScreen n table task ->
      InWindow n top task.row -> task ∉ discarded table.vc.maxQueueLength
        (table.vc.tasks ++ cellTasks table.requested.length row) := by
    intro task _ onScreen visible lost
    rcases (mem_discarded_append_iff cellFits task).mp lost with ⟨before, after, split, behind⟩
    have short := room top row moved before task after split onScreen visible
    exact absurd behind (Nat.not_le.mpr short)
  rw [cellForRow_eq sound.fits]
  constructor
  · intro task member onScreen
    rcases List.mem_append.mp member with earlier | now
    · have standing := (onScreen_after_request moved (sound.dropped_known task earlier)).mp onScreen
      exact keeps.dropped task earlier standing.1
    · rcases (mem_discarded_append_iff cellFits task).mp now with ⟨before, after, split, _⟩
      have waiting : task ∈ table.vc.tasks :=
        split ▸ List.mem_append_right before List.mem_cons_self
      have standing := (onScreen_after_request moved (sound.waiting_known task waiting)).mp onScreen
      exact survives task waiting standing.1 standing.2 now
  · intro other visible
    by_cases entering : other = row
    · refine ⟨table.requested.length, fun image => ⟨?_, Or.inr ?_⟩⟩
      · rw [entering]
        exact latest_new_request table.requested row image
      · exact mem_keepNewest_append_right cellFits
          (mem_cellTasks_iff.mpr ⟨rfl, entering⟩)
    · have before := staying other visible entering
      rcases keeps.drawn other before with ⟨request, drawn⟩
      have known : request < table.requested.length :=
        (List.getElem?_eq_some_iff.mp (drawn 0).1.1).choose
      refine ⟨request, fun image => ⟨(latest_concat known).mpr ⟨(drawn image).1, entering⟩, ?_⟩⟩
      rcases (drawn image).2 with executed | waiting
      · exact Or.inl executed
      · right
        have all : (⟨request, other, image⟩ : ImageTask) ∈
            table.vc.tasks ++ cellTasks table.requested.length row :=
          List.mem_append_left _ waiting
        rw [← discarded_append_keepNewest table.vc.maxQueueLength
          (table.vc.tasks ++ cellTasks table.requested.length row)] at all
        rcases List.mem_append.mp all with lost | kept
        · exact absurd lost (survives _ waiting ⟨before, (drawn image).1⟩ visible)
        · exact kept

/-- Conversely, a scroll step that keeps the images of visible rows found
room behind every task that stays on screen. -/
theorem roomBehind_of_keeps {n top row : Nat} {table : ImageTable} {event : TableEvent}
    (sound : Sound n table) (moved : scrolled n table.top event = some (top, row))
    (keeps : KeepsVisibleImages n { table.cellForRow row with top := top }) :
    RoomBehind n table event := by
  intro newTop newRow moved' before task after split onScreen visible
  have same := Option.some.inj (moved.symm.trans moved')
  cases same
  rcases scrolled_spec moved with ⟨positive, _, _, _⟩
  rw [cellForRow_eq sound.fits] at keeps
  apply Nat.not_le.mp
  intro behind
  have lost : task ∈ discarded table.vc.maxQueueLength
      (table.vc.tasks ++ cellTasks table.requested.length row) :=
    (mem_discarded_append_iff (sound.room positive) task).mpr ⟨before, after, split, behind⟩
  have waiting : task ∈ table.vc.tasks :=
    split ▸ List.mem_append_right before List.mem_cons_self
  exact keeps.dropped task (List.mem_append_right _ lost)
    ((onScreen_after_request moved (sound.waiting_known task waiting)).mpr ⟨onScreen, visible⟩)

/-- The step law: in a table that has kept its visible images, one step
keeps them exactly if it finds room behind the tasks that stay on screen. -/
theorem keepsVisibleImages_next_iff {n : Nat} {table : ImageTable} (sound : Sound n table)
    (keeps : KeepsVisibleImages n table) (event : TableEvent) :
    KeepsVisibleImages n ((system n).next table event) ↔ RoomBehind n table event := by
  cases moved : scrolled n table.top event with
  | none =>
      constructor
      · intro _ top row impossible
        rw [moved] at impossible
        cases impossible
      · intro _
        rcases next_of_not_scrolled moved with fired | same
        · rw [fired]
          exact keeps.beforeWaiting
        · rw [same]
          exact keeps
  | some window =>
      rw [next_of_scrolled moved]
      exact ⟨roomBehind_of_keeps sound moved, keeps.scroll sound moved⟩

/-! ## Every run -/

theorem length_initialTasks (n : Nat) :
    ((List.range n).flatMap fun row => cellTasks row row).length = 3 * n := by
  induction n with
  | zero => rfl
  | succ n inductionHypothesis =>
      rw [List.range_succ, List.flatMap_append, List.length_append, inductionHypothesis]
      rfl

/-- The requests of the first layout fit, so nothing is dropped. -/
theorem requestInitialRows_eq {n maxQueueLength : Nat} (room : 3 * n ≤ maxQueueLength) :
    requestInitialRows n maxQueueLength =
      { top := 0
        requested := List.range n
        vc := ⟨(List.range n).flatMap fun row => cellTasks row row, maxQueueLength⟩
        executed := []
        dropped := [] } := by
  induction n with
  | zero => rfl
  | succ n inductionHypothesis =>
      have earlier := inductionHypothesis (by omega)
      have earlierFits : ((List.range n).flatMap fun row => cellTasks row row).length ≤
          maxQueueLength := by
        rw [length_initialTasks]
        omega
      have unfolded : requestInitialRows (n + 1) maxQueueLength =
          (requestInitialRows n maxQueueLength).cellForRow n := by
        unfold requestInitialRows
        rw [List.range_succ, List.foldl_append]
        rfl
      have all : ((List.range n).flatMap fun row => cellTasks row row) ++ cellTasks n n =
          (List.range (n + 1)).flatMap fun row => cellTasks row row := by
        rw [List.range_succ, List.flatMap_append]
        rfl
      have fits : ((List.range (n + 1)).flatMap fun row => cellTasks row row).length ≤
          maxQueueLength := by
        rw [length_initialTasks]
        exact room
      rw [unfolded, earlier, cellForRow_eq earlierFits]
      simp only [List.length_range, all, List.nil_append,
        keepNewest_of_length_le fits, discarded_of_length_le fits]
      rw [List.range_succ]

theorem requestInitialRows_sound {n maxQueueLength : Nat} (room : 3 * n ≤ maxQueueLength) :
    Sound n (requestInitialRows n maxQueueLength) := by
  rw [requestInitialRows_eq room]
  refine ⟨?_, ?_, ?_, ?_⟩
  · change List.length _ ≤ maxQueueLength
    rw [length_initialTasks]
    exact room
  · intro positive
    change 3 ≤ maxQueueLength
    omega
  · intro task member
    rcases List.mem_flatMap.mp member with ⟨row, listed, fresh⟩
    rw [List.length_range, (mem_cellTasks_iff.mp fresh).1]
    exact List.mem_range.mp listed
  · intro task impossible
    cases impossible

theorem requestInitialRows_keeps {n maxQueueLength : Nat} (room : 3 * n ≤ maxQueueLength) :
    KeepsVisibleImages n (requestInitialRows n maxQueueLength) := by
  rw [requestInitialRows_eq room]
  constructor
  · intro task impossible
    cases impossible
  · intro row visible
    have listed : row < n := by
      have upper : row < 0 + n := visible.2
      omega
    refine ⟨row, fun image => ⟨⟨?_, ?_⟩, Or.inr ?_⟩⟩
    · exact List.getElem?_range listed
    · intro member
      rcases List.mem_drop_iff_getElem.mp member with ⟨index, bound, same⟩
      have position : row + 1 + index = row := by
        rw [List.getElem_range] at same
        exact same
      omega
    · exact List.mem_flatMap.mpr ⟨row, List.mem_range.mpr listed, mem_cellTasks_iff.mpr ⟨rfl, rfl⟩⟩

/-- For every window that fits the queue and every history of scrolling and
observer calls, the images of visible rows are kept in every state reached
exactly if each scroll step found room behind the tasks that stay on screen. -/
theorem visible_images_kept_iff (n maxQueueLength : Nat) (room : 3 * n ≤ maxQueueLength)
    (events : List TableEvent) :
    KeepsVisibleImages n (requestInitialRows n maxQueueLength) ∧
      ((system n).Along (fun table event => KeepsVisibleImages n ((system n).next table event))
          (requestInitialRows n maxQueueLength) events ↔
        (system n).Along (RoomBehind n) (requestInitialRows n maxQueueLength) events) := by
  refine ⟨requestInitialRows_keeps room, ?_⟩
  exact (system n).along_iff_of_invariant
    (fun table => Sound n table ∧ KeepsVisibleImages n table)
    (fun _ event holds keeps => ⟨holds.1.next event, keeps⟩)
    (fun _ event holds => keepsVisibleImages_next_iff holds.1 holds.2 event)
    ⟨requestInitialRows_sound room, requestInitialRows_keeps room⟩ events

/-- Two visible rows and the app's own bound of eighteen tasks. -/
theorem visible_images_kept_iff_two :
    3 * 2 ≤ 18 ∧ KeepsVisibleImages 2 (requestInitialRows 2 18) ∧
      ((system 2).Along (fun table event => KeepsVisibleImages 2 ((system 2).next table event))
          (requestInitialRows 2 18) [.scrollDown, .callback, .scrollUp] ↔
        (system 2).Along (RoomBehind 2) (requestInitialRows 2 18)
          [.scrollDown, .callback, .scrollUp]) :=
  ⟨by decide, visible_images_kept_iff 2 18 (by decide) _⟩

/-- One step down and one step up over the full queue of `viewDidLoad`: the
second step drops the first image of row one, which was visible all the time. -/
theorem visible_images_lost_by_turning :
    3 * 6 ≤ (viewDidLoad : LoadImageViewController ImageTask).maxQueueLength ∧
      ¬ KeepsVisibleImages 6 ((system 6).run
        (requestInitialRows 6 (viewDidLoad : LoadImageViewController ImageTask).maxQueueLength)
        [.scrollDown, .scrollUp]) := by
  refine ⟨by decide, ?_⟩
  intro keeps
  have lost : (⟨1, 1, 0⟩ : ImageTask) ∈ ((system 6).run (requestInitialRows 6 18)
      [.scrollDown, .scrollUp]).dropped := by
    decide +kernel
  have onScreen : OnScreen 6 ((system 6).run (requestInitialRows 6 18) [.scrollDown, .scrollUp])
      ⟨1, 1, 0⟩ := by
    decide +kernel
  exact keeps.dropped ⟨1, 1, 0⟩ lost onScreen

end ImageTable
end LoadImage
end HowBigDemo
