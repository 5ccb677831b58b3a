import HowBigDemo.Library.EventSystem
import HowBigDemo.GPUDemo.Documents

namespace HowBigDemo
namespace GPUDemo

open Library

/-!
# Takes of a camera screen

The camera button only posts blocks to the main queue.  A start block calls
`startRecording` on whatever writer the screen has when the block runs, a
stop block asks that writer to finish, and the handler of the finished
writer, at some later time, lists the current URL and makes the next writer.
Taps, blocks and handlers come in any order, except that blocks run in the
order in which they were posted.

The screen lists the URLs `LiveMovied-0.m4v`, `LiveMovied-1.m4v` and so on,
one for each handler, whatever was recorded.  That list is the list of takes
exactly as long as each start block finds no finish in progress.
`lists_takes_iff` proves this for every run.
-/

/-- A movie writer.  The identity stands for the object. -/
structure GPUImageMovieWriter where
  identity : Nat
  movieURL : NSURL
  deriving DecidableEq

/-- The properties of a camera screen that name its outputs.  The number of
`resetVideoWrite` calls tells the writers apart and is not in the source. -/
structure GPUCameraDemoViewController where
  fileURLArrays : Option (List NSURL)
  movieURL : Option NSURL
  movieWriter : Option GPUImageMovieWriter
  resets : Nat
  deriving DecidableEq

namespace GPUCameraDemoViewController

/-- List the current URL, if there is one, and make a writer for the next.
Messages to a nil array do nothing and count zero. -/
def resetVideoWrite (vc : GPUCameraDemoViewController) : GPUCameraDemoViewController :=
  let fileURLArrays :=
    match vc.movieURL with
    | some url => vc.fileURLArrays.map fun urls => urls ++ [url]
    | none => vc.fileURLArrays
  let movieURL := [liveMovied (fileURLArrays.map List.length |>.getD 0)]
  { fileURLArrays := fileURLArrays
    movieURL := some movieURL
    movieWriter := some ⟨vc.resets, movieURL⟩
    resets := vc.resets + 1 }

/-- The first writer is made before the array. -/
def viewDidLoad : GPUCameraDemoViewController :=
  { resetVideoWrite ⟨none, none, none, 0⟩ with fileURLArrays := some [] }

end GPUCameraDemoViewController

/-- The blocks that the camera button posts. -/
inductive MainBlock
  | startRecording
  | finishRecording
  deriving DecidableEq

/-- A camera screen with the blocks posted and the finishes in progress.
The last three fields record which writers were started, the output of the
take being recorded, and the outputs of the takes started and stopped. -/
structure CameraScreen where
  vc : GPUCameraDemoViewController
  isSelected : Bool
  mainQueue : List MainBlock
  finishing : Nat
  started : List GPUImageMovieWriter
  recording : Option NSURL
  takes : List NSURL
  deriving DecidableEq

/-- A tap, the next block of the main queue, or the handler of a finish. -/
inductive CameraEvent
  | cameraBtnAction
  | mainBlock
  | finishHandler
  deriving DecidableEq

namespace CameraScreen

/-- Toggle the button and post the block for its new state. -/
def cameraBtnAction (screen : CameraScreen) : CameraScreen :=
  let isSelected := ! screen.isSelected
  let block := if isSelected then MainBlock.startRecording else MainBlock.finishRecording
  { screen with isSelected := isSelected, mainQueue := screen.mainQueue ++ [block] }

/-- A block acts on the writer of the moment at which it runs.  A writer
counts as started with every `startRecording`, also while it is being
finished: what the asset writer below it makes of that call is not modelled. -/
def runBlock (screen : CameraScreen) (block : MainBlock) : CameraScreen :=
  match screen.vc.movieWriter, block with
  | none, _ => screen
  | some writer, .startRecording =>
      { screen with
        started := screen.started ++ [writer]
        recording := some writer.movieURL }
  | some _, .finishRecording =>
      { screen with
        finishing := screen.finishing + 1
        recording := none
        takes := screen.takes ++ screen.recording.toList }

/-- Each finish in progress runs its handler once. -/
def finishHandler (screen : CameraScreen) : CameraScreen :=
  match screen.finishing with
  | 0 => screen
  | finishing + 1 => { screen with vc := screen.vc.resetVideoWrite, finishing := finishing }

def system : EventSystem CameraScreen CameraEvent Unit where
  step screen event :=
    match event, screen.mainQueue with
    | .cameraBtnAction, _ => (screen.cameraBtnAction, [])
    | .mainBlock, [] => (screen, [])
    | .mainBlock, block :: rest => ({ screen with mainQueue := rest }.runBlock block, [])
    | .finishHandler, _ => (screen.finishHandler, [])

/-- The screen when its view has loaded. -/
def opened : CameraScreen :=
  ⟨.viewDidLoad, false, [], 0, [], none, []⟩

/-- With no finish in progress, the screen lists the takes in the order in
which they were stopped, each once, and only URLs of started writers. -/
def ListsTakes (screen : CameraScreen) : Prop :=
  screen.finishing = 0 -> Exists fun urls => screen.vc.fileURLArrays = some urls ∧
    urls = screen.takes ∧ urls.Nodup ∧
    forall url, url ∈ urls -> Exists fun writer => writer ∈ screen.started ∧ writer.movieURL = url

/-- A start block runs only when no finish is in progress, and the screen
does not stop more takes than there are names. -/
def StartsAtRest (screen : CameraScreen) (event : CameraEvent) : Prop :=
  event = .mainBlock ->
    (screen.mainQueue.head? = some .startRecording -> screen.finishing = 0) ∧
    (screen.mainQueue.head? = some .finishRecording -> screen.takes.length < 2 ^ 32)

/-- Nothing is being recorded or finished. -/
def AtRest (screen : CameraScreen) : Prop :=
  screen.finishing = 0 ∧ screen.recording = none

instance (screen : CameraScreen) : Decidable (AtRest screen) :=
  inferInstanceAs (Decidable (_ ∧ _))

/-! ## The writers of a screen are numbered by its handlers -/

/-- The output of the writer with the given number. -/
def url (number : Nat) : NSURL :=
  [liveMovied number]

def writer (number : Nat) : GPUImageMovieWriter :=
  ⟨number, url number⟩

/-- The properties of a screen after the given number of handlers. -/
def numbered (handlers : Nat) : GPUCameraDemoViewController where
  fileURLArrays := some ((List.range handlers).map url)
  movieURL := some (url handlers)
  movieWriter := some (writer handlers)
  resets := handlers + 1

theorem viewDidLoad_eq : GPUCameraDemoViewController.viewDidLoad = numbered 0 := rfl

theorem resetVideoWrite_numbered (handlers : Nat) :
    (numbered handlers).resetVideoWrite = numbered (handlers + 1) := by
  unfold GPUCameraDemoViewController.resetVideoWrite numbered
  simp only [Option.map_some, Option.getD_some, List.length_append, List.length_map,
    List.length_range, List.length_singleton, List.range_succ, List.map_append, List.map_singleton]
  exact rfl

/-- Start and stop blocks alternate from the recording to the button. -/
def Alternates : Bool -> List MainBlock -> Bool -> Prop
  | recording, [], selected => recording = selected
  | recording, block :: rest, selected =>
      block = (if recording then .finishRecording else .startRecording) ∧
        Alternates (! recording) rest selected

theorem Alternates.snoc {recording selected : Bool} {blocks : List MainBlock}
    (alternates : Alternates recording blocks selected) :
    Alternates recording
      (blocks ++ [if ! selected then MainBlock.startRecording else .finishRecording])
      (! selected) := by
  induction blocks generalizing recording with
  | nil =>
      cases alternates
      cases selected <;> exact ⟨rfl, rfl⟩
  | cons block rest inductionHypothesis =>
      exact ⟨alternates.1, inductionHypothesis alternates.2⟩

/-- What holds after every run: `handlers` finishes have run their handler,
and the writer of each take is at most as far as the take. -/
structure Sound (handlers : Nat) (screen : CameraScreen) : Prop where
  numbered : screen.vc = numbered handlers
  handled : handlers + screen.finishing = screen.takes.length
  alternates : Alternates screen.recording.isSome screen.mainQueue screen.isSelected
  recorded : screen.takes ++ screen.recording.toList = screen.started.map (·.movieURL)
  writers : forall index started, screen.started[index]? = some started ->
    started = writer started.identity ∧ started.identity ≤ index

theorem opened_sound : Sound 0 opened := by
  refine ⟨viewDidLoad_eq, rfl, rfl, rfl, ?_⟩
  intro index started impossible
  rw [show opened.started = [] from rfl, List.getElem?_nil] at impossible
  cases impossible

theorem Sound.cameraBtnAction {handlers : Nat} {screen : CameraScreen}
    (sound : Sound handlers screen) : Sound handlers screen.cameraBtnAction :=
  ⟨sound.numbered, sound.handled, sound.alternates.snoc, sound.recorded, sound.writers⟩

/-- What a start block does when it is the next block. -/
theorem Sound.mainBlock_start {handlers : Nat} {screen : CameraScreen}
    (sound : Sound handlers screen) {rest : List MainBlock}
    (next : screen.mainQueue = .startRecording :: rest) :
    screen.recording = none ∧ system.next screen .mainBlock =
      { screen with
        mainQueue := rest
        started := screen.started ++ [writer handlers]
        recording := some (url handlers) } := by
  constructor
  · have first := sound.alternates
    rw [next] at first
    cases idle : screen.recording with
    | none => rfl
    | some output =>
        rw [idle] at first
        cases first.1
  · have made : screen.vc.movieWriter = some (writer handlers) := by
      rw [sound.numbered]
      rfl
    simp only [EventSystem.next, system, next, runBlock, made, writer]

/-- What a stop block does when it is the next block. -/
theorem Sound.mainBlock_finish {handlers : Nat} {screen : CameraScreen}
    (sound : Sound handlers screen) {rest : List MainBlock}
    (next : screen.mainQueue = .finishRecording :: rest) :
    Exists fun output => screen.recording = some output ∧ system.next screen .mainBlock =
      { screen with
        mainQueue := rest
        finishing := screen.finishing + 1
        recording := none
        takes := screen.takes ++ [output] } := by
  have first := sound.alternates
  rw [next] at first
  cases active : screen.recording with
  | none =>
      rw [active] at first
      cases first.1
  | some output =>
      have made : screen.vc.movieWriter = some (writer handlers) := by
        rw [sound.numbered]
        rfl
      refine ⟨output, rfl, ?_⟩
      simp only [EventSystem.next, system, next, runBlock, made, active, Option.toList_some]

theorem Sound.start {handlers : Nat} {screen : CameraScreen} (sound : Sound handlers screen)
    {rest : List MainBlock} (next : screen.mainQueue = .startRecording :: rest) :
    Sound handlers (system.next screen .mainBlock) := by
  rcases sound.mainBlock_start next with ⟨idle, stepped⟩
  have recorded := sound.recorded
  have alternates := sound.alternates
  rw [idle, Option.toList_none, List.append_nil] at recorded
  rw [idle, next] at alternates
  rw [stepped]
  refine ⟨sound.numbered, sound.handled, alternates.2, ?_, ?_⟩
  · change screen.takes ++ [url handlers] = _
    rw [recorded, List.map_append]
    rfl
  · intro index started found
    change (screen.started ++ [writer handlers])[index]? = some started at found
    by_cases old : index < screen.started.length
    · rw [List.getElem?_append_left old] at found
      exact sound.writers index started found
    · rw [List.getElem?_append_right (Nat.le_of_not_lt old)] at found
      rcases List.mem_singleton.mp (List.mem_of_getElem? found) with rfl
      have counted := congrArg List.length recorded
      rw [List.length_map] at counted
      have handled := sound.handled
      refine ⟨rfl, ?_⟩
      change handlers ≤ index
      omega

theorem Sound.finish {handlers : Nat} {screen : CameraScreen} (sound : Sound handlers screen)
    {rest : List MainBlock} (next : screen.mainQueue = .finishRecording :: rest) :
    Sound handlers (system.next screen .mainBlock) := by
  rcases sound.mainBlock_finish next with ⟨output, active, stepped⟩
  have recorded := sound.recorded
  have alternates := sound.alternates
  rw [active, Option.toList_some] at recorded
  rw [active, next] at alternates
  rw [stepped]
  refine ⟨sound.numbered, ?_, alternates.2, ?_, sound.writers⟩
  · change handlers + (screen.finishing + 1) = (screen.takes ++ [output]).length
    rw [List.length_append, ← sound.handled]
    rfl
  · change (screen.takes ++ [output]) ++ [] = _
    rw [List.append_nil, recorded]

theorem Sound.finishHandler {handlers : Nat} {screen : CameraScreen}
    (sound : Sound handlers screen) :
    Exists fun handlers => Sound handlers screen.finishHandler := by
  unfold CameraScreen.finishHandler
  cases inProgress : screen.finishing with
  | zero => exact ⟨handlers, sound⟩
  | succ finishing =>
      refine ⟨handlers + 1, ?_, ?_, sound.alternates, sound.recorded, sound.writers⟩
      · change screen.vc.resetVideoWrite = _
        rw [sound.numbered, resetVideoWrite_numbered]
      · have handled := sound.handled
        change handlers + 1 + finishing = screen.takes.length
        omega

/-- One step keeps the numbering. -/
theorem Sound.next {screen : CameraScreen} (sound : Exists fun handlers => Sound handlers screen)
    (event : CameraEvent) : Exists fun handlers => Sound handlers (system.next screen event) := by
  rcases sound with ⟨handlers, sound⟩
  cases event with
  | cameraBtnAction => exact ⟨handlers, sound.cameraBtnAction⟩
  | finishHandler => exact sound.finishHandler
  | mainBlock =>
      cases next : screen.mainQueue with
      | nil =>
          have same : system.next screen .mainBlock = screen := by
            simp only [EventSystem.next, system, next]
          rw [same]
          exact ⟨handlers, sound⟩
      | cons block rest =>
          cases block with
          | startRecording => exact ⟨handlers, sound.start next⟩
          | finishRecording => exact ⟨handlers, sound.finish next⟩

/-! ## Starting at rest keeps the writers in order -/

/-- The k-th take was started on the k-th writer, and the names of the takes
are different. -/
def InOrder (screen : CameraScreen) : Prop :=
  screen.started = (List.range screen.started.length).map writer ∧
    screen.takes.length ≤ 2 ^ 32

theorem map_writer_append_eq_iff {started : List GPUImageMovieWriter} {handlers : Nat} :
    started ++ [writer handlers] =
        (List.range (started ++ [writer handlers]).length).map writer ↔
      started = (List.range started.length).map writer ∧ handlers = started.length := by
  rw [List.length_append, List.length_singleton, List.range_succ, List.map_append,
    List.map_singleton]
  constructor
  · intro same
    rcases List.append_inj' same rfl with ⟨earlier, last⟩
    exact ⟨earlier, congrArg GPUImageMovieWriter.identity (List.singleton_inj.mp last)⟩
  · rintro ⟨earlier, rfl⟩
    exact congrArg (fun start => start ++ [writer started.length]) earlier

/-- A start block leaves the writers in order exactly if all earlier takes
have been finished, so that it starts the writer of its own number. -/
theorem Sound.inOrder_start_iff {handlers : Nat} {screen : CameraScreen}
    (sound : Sound handlers screen) {rest : List MainBlock}
    (next : screen.mainQueue = .startRecording :: rest) :
    InOrder (system.next screen .mainBlock) ↔ InOrder screen ∧ StartsAtRest screen .mainBlock := by
  rcases sound.mainBlock_start next with ⟨idle, stepped⟩
  have counted := congrArg List.length sound.recorded
  have handled := sound.handled
  rw [idle, Option.toList_none, List.append_nil, List.length_map] at counted
  rw [stepped]
  simp only [InOrder, StartsAtRest, map_writer_append_eq_iff, next, List.head?_cons, forall_const,
    reduceCtorEq, Option.some.injEq, IsEmpty.forall_iff, and_true]
  constructor
  · rintro ⟨⟨earlier, last⟩, named⟩
    exact ⟨⟨earlier, named⟩, by omega⟩
  · rintro ⟨⟨earlier, named⟩, rest⟩
    exact ⟨⟨earlier, by omega⟩, named⟩

/-- A stop block starts no writer, but it adds a take. -/
theorem Sound.inOrder_finish_iff {handlers : Nat} {screen : CameraScreen}
    (sound : Sound handlers screen) {rest : List MainBlock}
    (next : screen.mainQueue = .finishRecording :: rest) :
    InOrder (system.next screen .mainBlock) ↔ InOrder screen ∧ StartsAtRest screen .mainBlock := by
  rcases sound.mainBlock_finish next with ⟨output, active, stepped⟩
  rw [stepped]
  simp only [InOrder, StartsAtRest, next, List.head?_cons, forall_const, reduceCtorEq,
    Option.some.injEq, IsEmpty.forall_iff, true_and, List.length_append, List.length_singleton]
  constructor
  · rintro ⟨ordered, named⟩
    exact ⟨⟨ordered, by omega⟩, by omega⟩
  · rintro ⟨⟨ordered, _⟩, named⟩
    exact ⟨ordered, by omega⟩

/-- A step leaves the writers in order exactly if they were in order and the
step starts at rest. -/
theorem inOrder_next_iff {screen : CameraScreen}
    (sound : Exists fun handlers => Sound handlers screen) (event : CameraEvent) :
    InOrder (system.next screen event) ↔ InOrder screen ∧ StartsAtRest screen event := by
  rcases sound with ⟨handlers, sound⟩
  cases event with
  | cameraBtnAction =>
      exact (and_iff_left fun impossible => by cases impossible).symm
  | finishHandler =>
      have same : InOrder (system.next screen .finishHandler) ↔ InOrder screen := by
        change InOrder screen.finishHandler ↔ _
        rw [CameraScreen.finishHandler]
        cases screen.finishing <;> exact Iff.rfl
      rw [same]
      exact (and_iff_left fun impossible => by cases impossible).symm
  | mainBlock =>
      cases next : screen.mainQueue with
      | nil =>
          have same : system.next screen .mainBlock = screen := by
            simp only [EventSystem.next, system, next]
          rw [same]
          apply (and_iff_left _).symm
          intro _
          rw [next]
          constructor <;> intro impossible <;> cases impossible
      | cons block rest =>
          cases block with
          | startRecording => exact sound.inOrder_start_iff next
          | finishRecording => exact sound.inOrder_finish_iff next

/-- In every run the writers are in order exactly if every step starts at
rest. -/
theorem inOrder_run_iff (events : List CameraEvent) :
    InOrder (system.run opened events) ↔ system.Along StartsAtRest opened events := by
  rw [system.run_iff_along (fun screen => Exists fun handlers => Sound handlers screen)
    (fun _ event sound => Sound.next sound event)
    (fun _ event sound => inOrder_next_iff sound event) ⟨0, opened_sound⟩]
  exact and_iff_right ⟨rfl, by decide⟩

/-! ## The list of takes -/

theorem url_injective {first second : Nat} (firstBound : first < 2 ^ 32)
    (secondBound : second < 2 ^ 32) (same : url first = url second) : first = second :=
  liveMovied_injective firstBound secondBound (List.singleton_inj.mp same)

theorem map_movieURL_map_writer (count : Nat) :
    ((List.range count).map writer).map (·.movieURL) = (List.range count).map url := by
  rw [List.map_map]
  rfl

/-- Writers in order make the list of the screen the list of takes. -/
theorem InOrder.listsTakes {handlers : Nat} {screen : CameraScreen}
    (sound : Sound handlers screen) (ordered : InOrder screen) : ListsTakes screen := by
  intro rest
  have handled := sound.handled
  rw [rest, Nat.add_zero] at handled
  have recorded := sound.recorded
  have counted := congrArg List.length recorded
  rw [List.length_append, List.length_map] at counted
  rw [ordered.1, map_movieURL_map_writer] at recorded
  have listed : (List.range handlers).map url = screen.takes := by
    have start := congrArg (List.take screen.takes.length) recorded
    rw [List.take_left, ← List.map_take, List.take_range, Nat.min_eq_left (by omega)] at start
    rw [handled]
    exact start.symm
  refine ⟨(List.range handlers).map url, ?_, listed, ?_, ?_⟩
  · rw [sound.numbered]
    rfl
  · refine List.Nodup.map_on ?_ List.nodup_range
    intro first firstMember second secondMember same
    have names := ordered.2
    have firstBound := List.mem_range.mp firstMember
    have secondBound := List.mem_range.mp secondMember
    exact url_injective (by omega) (by omega) same
  · intro output member
    rcases List.mem_map.mp member with ⟨number, numbered, rfl⟩
    have bound := List.mem_range.mp numbered
    refine ⟨writer number, ?_, rfl⟩
    rw [ordered.1]
    exact List.mem_map_of_mem (List.mem_range.mpr (by omega))

/-- Numbers that each come no later than their own place, and that cover
all places, are in order. -/
theorem eq_range_of_covers {numbers : List Nat}
    (early : forall (index number : Nat), numbers[index]? = some number -> number ≤ index)
    (covers : forall index, index < numbers.length -> index ∈ numbers) :
    numbers = List.range numbers.length := by
  induction numbers using List.reverseRecOn with
  | nil => rfl
  | append_singleton earlier last inductionHypothesis =>
      have before : forall (index number : Nat), earlier[index]? = some number -> number ≤ index := by
        intro index number found
        rcases List.getElem?_eq_some_iff.mp found with ⟨bound, _⟩
        exact early index number (by rw [List.getElem?_append_left bound, found])
      have small : forall number, number ∈ earlier -> number < earlier.length := by
        intro number member
        rcases List.mem_iff_getElem?.mp member with ⟨index, found⟩
        rcases List.getElem?_eq_some_iff.mp found with ⟨bound, _⟩
        exact Nat.lt_of_le_of_lt (before index number found) bound
      have lastEq : last = earlier.length := by
        rcases List.mem_append.mp (covers earlier.length (by simp)) with old | new
        · exact absurd (small _ old) (Nat.lt_irrefl _)
        · exact (List.mem_singleton.mp new).symm
      have covered : forall index, index < earlier.length -> index ∈ earlier := by
        intro index bound
        rcases List.mem_append.mp (covers index (by simp; omega)) with old | new
        · exact old
        · rw [List.mem_singleton.mp new, lastEq] at bound
          exact absurd bound (Nat.lt_irrefl _)
      rw [List.length_append, List.length_singleton, List.range_succ, lastEq]
      exact congrArg (fun start => start ++ [earlier.length]) (inductionHypothesis before covered)

/-- At rest, a screen that lists its takes has its writers in order. -/
theorem ListsTakes.inOrder {handlers : Nat} {screen : CameraScreen}
    (sound : Sound handlers screen) (rest : AtRest screen) (lists : ListsTakes screen) :
    InOrder screen := by
  rcases lists rest.1 with ⟨urls, listed, same, distinct, started⟩
  have handled := sound.handled
  rw [rest.1, Nat.add_zero] at handled
  have counted := congrArg List.length sound.recorded
  rw [rest.2, Option.toList_none, List.append_nil, List.length_map] at counted
  rw [sound.numbered] at listed
  have urlsEq : (List.range handlers).map url = urls := Option.some.inj listed
  rw [← urlsEq] at distinct started
  have names : handlers ≤ 2 ^ 32 := by
    apply Nat.le_of_not_lt
    intro tooMany
    have repeated : (2 : Nat) ^ 32 = 0 :=
      List.inj_on_of_nodup_map distinct (List.mem_range.mpr tooMany)
        (List.mem_range.mpr (by omega))
        (congrArg (fun name => [name]) (liveMovied_add_period 0))
    omega
  have inOrder : screen.started.map (·.identity) = List.range (screen.started.map (·.identity)).length := by
    refine eq_range_of_covers ?_ ?_
    · intro index number found
      rw [List.getElem?_map, Option.map_eq_some_iff] at found
      rcases found with ⟨made, found, rfl⟩
      exact (sound.writers index made found).2
    · intro index bound
      rw [List.length_map] at bound
      rcases started (url index) (List.mem_map_of_mem (List.mem_range.mpr (by omega)))
        with ⟨made, member, output⟩
      rcases List.mem_iff_getElem?.mp member with ⟨place, found⟩
      rcases List.getElem?_eq_some_iff.mp found with ⟨placeBound, _⟩
      have known := sound.writers place made found
      rw [known.1] at output
      have number : made.identity = index := url_injective (by omega) (by omega) output
      rw [← number]
      exact List.mem_map_of_mem member
  refine ⟨?_, by omega⟩
  rw [List.length_map] at inOrder
  have rebuilt : screen.started.map (writer ∘ (·.identity)) = screen.started.map id := by
    apply List.map_congr_left
    intro made member
    rcases List.mem_iff_getElem?.mp member with ⟨place, found⟩
    exact (sound.writers place made found).1.symm
  rw [← inOrder, List.map_map, rebuilt, List.map_id]

/-- For every order of taps, blocks and handlers: if each start block found
no finish in progress, the screen lists its takes whenever no finish is in
progress, and in a run that ends at rest it does so only then. -/
theorem lists_takes_iff (events : List CameraEvent) :
    (system.Along StartsAtRest opened events -> ListsTakes (system.run opened events)) ∧
      (AtRest (system.run opened events) ->
        (ListsTakes (system.run opened events) ↔ system.Along StartsAtRest opened events)) := by
  rcases system.run_invariant (fun screen => Exists fun handlers => Sound handlers screen)
    (fun _ event sound => Sound.next sound event) ⟨0, opened_sound⟩ events with ⟨handlers, sound⟩
  have lists (starts : system.Along StartsAtRest opened events) :=
    ((inOrder_run_iff events).mpr starts).listsTakes sound
  refine ⟨lists, fun rest => ⟨fun listed => ?_, lists⟩⟩
  exact (inOrder_run_iff events).mp (listed.inOrder sound rest)

/-- The second take starts before the first is finished.  Its stop finishes
a writer that was never started, and that writer's URL is listed. -/
theorem unstarted_writer_listed :
    AtRest (system.run opened [.cameraBtnAction, .mainBlock, .cameraBtnAction, .mainBlock,
        .cameraBtnAction, .mainBlock, .finishHandler, .cameraBtnAction, .mainBlock,
        .finishHandler]) ∧
      ¬ ListsTakes (system.run opened [.cameraBtnAction, .mainBlock, .cameraBtnAction, .mainBlock,
        .cameraBtnAction, .mainBlock, .finishHandler, .cameraBtnAction, .mainBlock,
        .finishHandler]) := by
  refine ⟨by decide +kernel, ?_⟩
  intro lists
  rcases lists (by decide +kernel) with ⟨urls, listed, same, _⟩
  subst same
  revert listed
  decide +kernel

end CameraScreen
end GPUDemo
end HowBigDemo
