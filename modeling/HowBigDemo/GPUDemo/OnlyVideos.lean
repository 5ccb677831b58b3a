import HowBigDemo.GPUDemo.App

namespace HowBigDemo
namespace GPUDemo
namespace App

open Library
open DataBase
open VideoManagerCenter

/-!
# What restoring lists and clearing deletes

A restore should list, and a clear should delete, only video files that the
app itself wrote.  The restore does not look at what it lists, and the
database is in the same directory.  So each restore is harmless exactly if
Documents holds nothing but the app's videos at that moment.

Clears need no condition of their own.  What a harmless restore has listed
are names of the video flow, and from then on only the video flow writes
under these names.  `only_videos_iff` says this for every run, and that no
such run launches the app twice: the first launch leaves a database that the
second one lists.
-/

variable (fileManager : NSFileManager)

/-- Every entry of Documents is a video file that the app wrote. -/
def AllVideos (documents : Documents) : Prop :=
  forall path node, documents.lookup path = some node -> IsAppVideo path node

/-- A restore lists only the app's videos and answers YES only if there is
one.  A clear deletes only the app's videos and changes nothing else. -/
def TouchesOnlyVideos : AppFact -> Prop
  | .restored result listed documents =>
      (forall url, url ∈ listed -> Exists fun node =>
        documents.lookup url = some node ∧ IsAppVideo url node) ∧
      (result = true -> Exists fun url => Exists fun node =>
        documents.lookup url = some node ∧ IsAppVideo url node)
  | .cleared before after =>
      (forall path node, before.lookup path = some node ->
        after.lookup path = some node ∨ IsAppVideo path node) ∧
      (forall path node, after.lookup path = some node -> before.lookup path = some node)
  | _ => True

/-- A restore finds nothing but the app's videos. -/
def FindsOnlyVideos (app : App) : AppEvent -> Prop
  | .launch _ => AllVideos app.documents
  | .restoreLocalVideo => app.running = true -> AllVideos app.documents
  | _ => True

/-- A listed URL has a name of the video flow and names an app video or
nothing. -/
def ListsVideos (app : App) : Prop :=
  forall array, app.manager._videoPathArray = some array -> forall url, url ∈ array ->
    IsVideoName url ∧ forall node, app.documents.lookup url = some node -> IsAppVideo url node

/-! ## What the app writes -/

/-- Whatever is new is a video of the app or belongs to the database. -/
def WroteOnly (before after : Documents) : Prop :=
  forall path node, after.lookup path = some node -> before.lookup path = some node ∨
    IsAppVideo path node ∨ Exists fun companion => path = [databaseName companion]

theorem WroteOnly.refl (documents : Documents) : WroteOnly documents documents :=
  fun _ _ found => Or.inl found

theorem wroteOnly_createFile (documents : Documents) {name : String} {content : Content}
    (written : WrittenAt [name] content) :
    WroteOnly documents (createFile documents [name] content) := by
  intro path node found
  rcases FileTree.lookup_create_cases found with old | ⟨rfl, rfl⟩
  · exact Or.inl old
  · exact Or.inr (Or.inl written)

theorem wroteOnly_database (work : DatabaseWork) (documents : Documents) :
    WroteOnly documents (DeviceModel.initAndInsert work documents) := by
  intro path node found
  by_cases database : Exists fun companion => path = [databaseName companion]
  · exact Or.inr (Or.inr database)
  · rw [DeviceModel.initAndInsert_sameElsewhere work documents path
      (fun companion same => database ⟨companion, same⟩)] at found
    exact Or.inl found

theorem wroteOnly_openEditor (app : App) (fromCamera : Bool) (videosArray : List NSURL)
    (random : Fin 1000) (insertions : Insertions) :
    WroteOnly app.documents
      (app.openEditor fromCamera videosArray random insertions).1.documents := by
  rcases app.openEditor_cases fromCamera videosArray random insertions with
    ⟨_, opened⟩ | ⟨_, _, opened⟩ | ⟨_, mixComposition, _, opened⟩ <;>
    rw [opened] <;> exact WroteOnly.refl app.documents

/-- Every event writes videos and database files only. -/
theorem wroteOnly_perform {app : App} (tracked : Tracked app) (event : AppEvent) :
    WroteOnly app.documents (app.perform fileManager event).1.documents := by
  cases event with
  | launch work =>
      change WroteOnly app.documents (app.launch fileManager work).1.documents
      rw [launch_eq]
      exact wroteOnly_database work app.documents
  | insertIntoDB work => exact wroteOnly_database work app.documents
  | restoreLocalVideo => exact WroteOnly.refl app.documents
  | clearLocalVideos failing =>
      exact fun path node found => Or.inl (lookup_of_lookup_removeItems found)
  | openCamera => exact WroteOnly.refl app.documents
  | finishTake asset =>
      change WroteOnly app.documents (app.finishTake asset).1.documents
      cases screen : app.camera with
      | none =>
          rw [finishTake_of_none screen]
          exact WroteOnly.refl app.documents
      | some vc =>
          rcases tracked.camera vc screen with ⟨handlers, rfl⟩
          rw [finishTake_numbered screen]
          exact wroteOnly_createFile app.documents ⟨handlers, rfl⟩
  | nextBtnAction random insertions =>
      change WroteOnly app.documents (app.nextBtnAction random insertions).1.documents
      cases screen : app.camera with
      | none =>
          rw [nextBtnAction_of_none screen]
          exact WroteOnly.refl app.documents
      | some vc =>
          rw [nextBtnAction_of_some screen]
          exact wroteOnly_openEditor app true _ random insertions
  | continueEditing random insertions =>
      exact wroteOnly_openEditor { app with manager := _ } false _ random insertions
  | exportFinished index completed asset =>
      change WroteOnly app.documents (app.exportFinished index completed asset).1.documents
      rcases app.exportFinished_cases index completed asset with
        ⟨_, exports, _, finished⟩ | ⟨pending, finishes, finished⟩
      · rw [finished]
        exact WroteOnly.refl app.documents
      · rcases tracked.exports pending (List.mem_of_getElem? finishes.1) with ⟨random, output⟩
        rw [finished]
        change WroteOnly app.documents (createFile app.documents pending.exporter.outputURL _)
        rw [output]
        exact wroteOnly_createFile app.documents ⟨random, rfl⟩
  | filterBegin seconds asset => exact wroteOnly_createFile app.documents ⟨seconds, rfl⟩

/-- Opening an editor leaves the list, unless the process ends. -/
theorem videoPathArray_openEditor {app : App} {array : List NSURL}
    (listed : app.manager._videoPathArray = some array) {fromCamera : Bool}
    {videosArray : List NSURL} {random : Fin 1000} {insertions : Insertions} {array' : List NSURL}
    (listed' : (app.openEditor fromCamera videosArray random
      insertions).1.manager._videoPathArray = some array') : array' = array := by
  rcases app.openEditor_cases fromCamera videosArray random insertions with
    ⟨_, opened⟩ | ⟨_, _, opened⟩ | ⟨_, mixComposition, _, opened⟩ <;> rw [opened] at listed'
  · exact Option.some.inj (listed'.symm.trans listed)
  · cases listed'
  · exact Option.some.inj (listed'.symm.trans listed)

theorem manager_finishTake (app : App) (asset : AVURLAsset) :
    (app.finishTake asset).1.manager = app.manager := by
  rw [finishTake]
  split
  · rfl
  · split <;> rfl

/-- A restore is where the list of a running process changes. -/
theorem videoPathArray_perform {app : App} {array : List NSURL}
    (listed : app.manager._videoPathArray = some array) {event : AppEvent}
    (noLaunch : forall work, event ≠ .launch work) (noRestore : event ≠ .restoreLocalVideo)
    {array' : List NSURL}
    (listed' : (app.perform fileManager event).1.manager._videoPathArray = some array') :
    array' = array := by
  cases event with
  | launch work => exact absurd rfl (noLaunch work)
  | restoreLocalVideo => exact absurd rfl noRestore
  | insertIntoDB work => exact Option.some.inj (listed'.symm.trans listed)
  | clearLocalVideos failing =>
      change (app.manager.videoPathArray _).1._videoPathArray = some array' at listed'
      rw [videoPathArray_of_some _ listed] at listed'
      exact Option.some.inj (listed'.symm.trans listed)
  | openCamera => exact Option.some.inj (listed'.symm.trans listed)
  | finishTake asset =>
      change (app.finishTake asset).1.manager._videoPathArray = some array' at listed'
      rw [manager_finishTake] at listed'
      exact Option.some.inj (listed'.symm.trans listed)
  | nextBtnAction random insertions =>
      change (app.nextBtnAction random insertions).1.manager._videoPathArray = some array'
        at listed'
      cases screen : app.camera with
      | none =>
          rw [nextBtnAction_of_none screen] at listed'
          exact Option.some.inj (listed'.symm.trans listed)
      | some vc =>
          rw [nextBtnAction_of_some screen] at listed'
          exact videoPathArray_openEditor listed listed'
  | continueEditing random insertions =>
      change (app.continueEditing fileManager random insertions).1.manager._videoPathArray =
        some array' at listed'
      rw [continueEditing_of_some fileManager listed] at listed'
      exact videoPathArray_openEditor listed listed'
  | exportFinished index completed asset =>
      change (app.exportFinished index completed asset).1.manager._videoPathArray = some array'
        at listed'
      rcases app.exportFinished_cases index completed asset with
        ⟨_, exports, _, finished⟩ | ⟨pending, _, finished⟩ <;> rw [finished] at listed' <;>
        exact Option.some.inj (listed'.symm.trans listed)
  | filterBegin seconds asset => exact Option.some.inj (listed'.symm.trans listed)

/-! ## The list keeps naming videos -/

/-- The names of the database are not listed, so writing keeps the law. -/
theorem ListsVideos.wroteOnly {before after : Documents} {url : NSURL}
    (law : IsVideoName url ∧ forall node, before.lookup url = some node -> IsAppVideo url node)
    (wrote : WroteOnly before after) :
    IsVideoName url ∧ forall node, after.lookup url = some node -> IsAppVideo url node := by
  refine ⟨law.1, fun node found => ?_⟩
  rcases wrote url node found with old | video | ⟨companion, rfl⟩
  · exact law.2 node old
  · exact video
  · exact absurd law.1 (not_isVideoName_database companion)

theorem AllVideos.law {documents : Documents} (videos : AllVideos documents) {url : NSURL}
    (member : url ∈ fileManager.subpathsAtPath documents) :
    IsVideoName url ∧ forall node, documents.lookup url = some node -> IsAppVideo url node := by
  rcases FileTree.mem_paths_iff.mp (fileManager.mem_subpathsAtPath_iff.mp member)
    with ⟨node, found⟩
  exact ⟨(videos url node found).isVideoName, videos url⟩

theorem listsVideos_launch {app : App} (videos : AllVideos app.documents) (work : DatabaseWork) :
    ListsVideos (app.launch fileManager work).1 := by
  rw [launch_eq]
  intro array same url member
  cases same
  exact ListsVideos.wroteOnly (videos.law fileManager member) (wroteOnly_database work app.documents)

/-- One step keeps the law of the list. -/
theorem ListsVideos.next {app : App} (tracked : Tracked app) (lists : ListsVideos app)
    {event : AppEvent} (finds : FindsOnlyVideos app event) :
    ListsVideos ((system fileManager).next app event) := by
  refine next_induction fileManager event lists ?_ ?_
  · intro work same
    subst same
    exact listsVideos_launch fileManager finds work
  · intro running
    by_cases launched : Exists fun work => event = .launch work
    · rcases launched with ⟨work, rfl⟩
      exact listsVideos_launch fileManager finds work
    by_cases restores : event = .restoreLocalVideo
    · subst restores
      change ListsVideos (app.restoreLocalVideo fileManager).1
      rw [restoreLocalVideo_eq]
      intro array same url member
      cases same
      exact (finds running).law fileManager member
    rcases tracked.restored running with ⟨array, listed⟩
    intro array' listed' url member
    have same := videoPathArray_perform fileManager listed
      (fun work launch => launched ⟨work, launch⟩) restores listed'
    rw [same] at member
    exact ListsVideos.wroteOnly (lists array listed url member)
      (wroteOnly_perform fileManager tracked event)

/-! ## Restores and clears -/

/-- A restore reports only videos exactly if it finds only videos. -/
theorem touchesOnlyVideos_restored_iff (documents : Documents) :
    TouchesOnlyVideos (.restored
        (decide (0 < (fileManager.subpathsAtPath documents).length))
        (fileManager.subpathsAtPath documents) documents) ↔ AllVideos documents := by
  constructor
  · rintro ⟨listed, _⟩ path node found
    have member := fileManager.mem_subpathsAtPath_iff.mpr (FileTree.mem_paths_of_lookup found)
    rcases listed path member with ⟨node', found', video⟩
    rw [found] at found'
    cases found'
    exact video
  · intro videos
    have each : forall url, url ∈ fileManager.subpathsAtPath documents -> Exists fun node =>
        documents.lookup url = some node ∧ IsAppVideo url node := by
      intro url member
      rcases FileTree.mem_paths_iff.mp (fileManager.mem_subpathsAtPath_iff.mp member)
        with ⟨node, found⟩
      exact ⟨node, found, videos url node found⟩
    refine ⟨each, fun answered => ?_⟩
    rcases List.exists_mem_of_length_pos (of_decide_eq_true answered) with ⟨url, member⟩
    exact ⟨url, each url member⟩

/-- A listed URL names a file or nothing, so nothing else is deleted with it. -/
theorem ListsVideos.touchesOnlyVideos_cleared {app : App} (lists : ListsVideos app)
    {array : List NSURL} (listed : app.manager._videoPathArray = some array)
    (failing : List NSURL) :
    TouchesOnlyVideos (.cleared app.documents (removeItems failing app.documents array)) := by
  refine ⟨fun path node found => ?_, fun path node kept => lookup_of_lookup_removeItems kept⟩
  rcases lookup_removeItems_cases failing array found with
    kept | ⟨url, member, _, above⟩
  · exact Or.inl kept
  rcases lists array listed url member with ⟨name, video⟩
  have nonempty : url ≠ [] := by
    rcases name with ⟨_, rfl⟩ | ⟨_, rfl⟩ | ⟨_, rfl⟩ <;> exact List.cons_ne_nil _ _
  have file : app.documents.lookup url ≠ some .directory := fun directory => video _ directory
  have same := FileTree.eq_of_below (FileTree.mem_paths_of_lookup found) above nonempty file
  subst same
  exact Or.inr (video node found)

/-- The other events report neither a restore nor a clear. -/
theorem touchesOnlyVideos_other {app : App} {event : AppEvent}
    (noLaunch : forall work, event ≠ .launch work) (noRestore : event ≠ .restoreLocalVideo)
    (noClear : forall failing, event ≠ .clearLocalVideos failing) :
    forall fact, fact ∈ (app.perform fileManager event).2 -> TouchesOnlyVideos fact := by
  intro fact member
  have reported := reports_perform fileManager member
  cases fact with
  | restored result listed documents =>
      cases event with
      | launch work => exact absurd rfl (noLaunch work)
      | restoreLocalVideo => exact absurd rfl noRestore
      | _ => cases reported
  | cleared before after =>
      cases event with
      | clearLocalVideos failing => exact absurd rfl (noClear failing)
      | _ => cases reported
  | outputURL url documents => exact trivial
  | shown clips content => exact trivial

/-- The step law: while the list names videos, a step touches only videos
exactly if it finds only videos. -/
theorem ListsVideos.touchesOnlyVideos_iff {app : App} (tracked : Tracked app)
    (lists : ListsVideos app) (event : AppEvent) :
    (system fileManager).Emits TouchesOnlyVideos app event ↔ FindsOnlyVideos app event := by
  by_cases launched : Exists fun work => event = .launch work
  · rcases launched with ⟨work, rfl⟩
    rw [EventSystem.emits_iff_of_eq _ (emits_launch fileManager app work), launch_eq,
      List.forall_mem_singleton]
    exact touchesOnlyVideos_restored_iff fileManager app.documents
  cases running : app.running with
  | false =>
      rcases launch_or_rest fileManager running event with launches | ⟨_, silent⟩
      · exact absurd launches launched
      rw [EventSystem.emits_iff_of_eq _ silent]
      constructor
      · intro _
        cases event with
        | launch work => exact absurd ⟨work, rfl⟩ launched
        | restoreLocalVideo =>
            intro impossible
            rw [running] at impossible
            cases impossible
        | _ => exact trivial
      · intro _ fact impossible
        cases impossible
  | true =>
      rw [EventSystem.emits_iff_of_eq _ (emits_of_running fileManager running event)]
      by_cases restores : event = .restoreLocalVideo
      · subst restores
        change (forall fact, fact ∈ (app.restoreLocalVideo fileManager).2 -> _) ↔
          (app.running = true -> AllVideos app.documents)
        rw [restoreLocalVideo_eq, List.forall_mem_singleton,
          touchesOnlyVideos_restored_iff fileManager app.documents]
        exact ⟨fun videos _ => videos, fun videos => videos running⟩
      have finds : FindsOnlyVideos app event := by
        cases event with
        | launch work => exact absurd ⟨work, rfl⟩ launched
        | restoreLocalVideo => exact absurd rfl restores
        | _ => exact trivial
      refine iff_of_true ?_ finds
      by_cases clears : Exists fun failing => event = .clearLocalVideos failing
      · rcases clears with ⟨failing, rfl⟩
        rcases tracked.restored running with ⟨array, listed⟩
        intro fact member
        rcases List.mem_singleton.mp member with rfl
        change TouchesOnlyVideos (.cleared app.documents
          (removeItems failing app.documents (app.manager.videoPathArray _).2))
        rw [videoPathArray_of_some _ listed]
        exact lists.touchesOnlyVideos_cleared listed failing
      · exact touchesOnlyVideos_other fileManager (fun work same => launched ⟨work, same⟩) restores
          (fun failing same => clears ⟨failing, same⟩)

/-! ## The second launch -/

/-- The database file is there. -/
def HasDatabase (documents : Documents) : Prop :=
  [databaseName none] ∈ documents.paths

def isLaunch : AppEvent -> Bool
  | .launch _ => true
  | _ => false

theorem AllVideos.noDatabase {documents : Documents} (videos : AllVideos documents) :
    ¬ HasDatabase documents := by
  intro has
  rcases FileTree.mem_paths_iff.mp has with ⟨node, found⟩
  exact not_isVideoName_database none (videos _ node found).isVideoName

/-- A list of videos does not name the database, so a clear leaves it. -/
theorem ListsVideos.hasDatabase_removeItems {app : App} (lists : ListsVideos app)
    {array : List NSURL} (listed : app.manager._videoPathArray = some array)
    (has : HasDatabase app.documents) (failing : List NSURL) :
    HasDatabase (removeItems failing app.documents array) := by
  rcases FileTree.mem_paths_iff.mp has with ⟨node, found⟩
  rcases lookup_removeItems_cases failing array found with kept | ⟨url, member, _, above⟩
  · exact FileTree.mem_paths_of_lookup kept
  · have name := (lists array listed url member).1
    rcases List.prefix_concat_iff.mp (show url <+: [] ++ [databaseName none] from above) with
      same | within
    · rw [same] at name
      exact absurd name (not_isVideoName_database none)
    · rw [List.prefix_nil.mp within] at name
      rcases name with ⟨_, impossible⟩ | ⟨_, impossible⟩ | ⟨_, impossible⟩ <;> cases impossible

theorem documents_openEditor (app : App) (fromCamera : Bool) (videosArray : List NSURL)
    (random : Fin 1000) (insertions : Insertions) :
    (app.openEditor fromCamera videosArray random insertions).1.documents = app.documents := by
  rcases app.openEditor_cases fromCamera videosArray random insertions with
    ⟨_, opened⟩ | ⟨_, _, opened⟩ | ⟨_, mixComposition, _, opened⟩ <;>
    exact congrArg (fun result => result.1.documents) opened

/-- No event of a running process deletes the database while the list names
videos. -/
theorem ListsVideos.hasDatabase_perform {app : App} (tracked : Tracked app)
    (running : app.running = true) (lists : ListsVideos app) (has : HasDatabase app.documents)
    (event : AppEvent) : HasDatabase (app.perform fileManager event).1.documents := by
  cases event with
  | launch work =>
      change HasDatabase (app.launch fileManager work).1.documents
      rw [launch_eq]
      exact DeviceModel.mem_paths_initAndInsert work (Or.inr rfl)
  | insertIntoDB work => exact DeviceModel.mem_paths_initAndInsert work (Or.inr rfl)
  | restoreLocalVideo => exact has
  | clearLocalVideos failing =>
      rcases tracked.restored running with ⟨array, listed⟩
      change HasDatabase (removeItems failing app.documents (app.manager.videoPathArray _).2)
      rw [videoPathArray_of_some _ listed]
      exact lists.hasDatabase_removeItems listed has failing
  | openCamera => exact has
  | finishTake asset =>
      change HasDatabase (app.finishTake asset).1.documents
      cases screen : app.camera with
      | none =>
          rw [finishTake_of_none screen]
          exact has
      | some vc =>
          rcases tracked.camera vc screen with ⟨handlers, rfl⟩
          rw [finishTake_numbered screen]
          exact FileTree.mem_paths_create_of_mem _ has
  | nextBtnAction random insertions =>
      change HasDatabase (app.nextBtnAction random insertions).1.documents
      cases screen : app.camera with
      | none =>
          rw [nextBtnAction_of_none screen]
          exact has
      | some vc =>
          rw [nextBtnAction_of_some screen, documents_openEditor]
          exact has
  | continueEditing random insertions =>
      rcases tracked.restored running with ⟨array, listed⟩
      change HasDatabase (app.continueEditing fileManager random insertions).1.documents
      rw [continueEditing_of_some fileManager listed, documents_openEditor]
      exact has
  | exportFinished index completed asset =>
      change HasDatabase (app.exportFinished index completed asset).1.documents
      rcases app.exportFinished_cases index completed asset with
        ⟨_, exports, _, finished⟩ | ⟨pending, _, finished⟩
      · rw [finished]
        exact has
      · rw [finished]
        exact mem_paths_createFile _ _ has
  | filterBegin seconds asset => exact mem_paths_createFile _ _ has

/-- Once the database is there, no launch finds only videos. -/
theorem no_launch_of_hasDatabase {app : App} (tracked : Tracked app) (lists : ListsVideos app)
    (has : HasDatabase app.documents) {events : List AppEvent}
    (finds : (system fileManager).Along FindsOnlyVideos app events) :
    events.countP isLaunch = 0 := by
  induction events generalizing app with
  | nil => rfl
  | cons event rest inductionHypothesis =>
      have noLaunch : forall work, event ≠ .launch work := by
        rintro work rfl
        exact AllVideos.noDatabase finds.1 has
      have still : HasDatabase ((system fileManager).next app event).documents := by
        refine @next_induction fileManager (fun app => HasDatabase app.documents) app event has
          (fun work same => absurd same (noLaunch work)) ?_
        intro running
        exact lists.hasDatabase_perform fileManager tracked running has event
      have later := inductionHypothesis (tracked.next fileManager event)
        (lists.next fileManager tracked finds.1) still finds.2
      cases event with
      | launch work => exact absurd rfl (noLaunch work)
      | _ => exact later

/-- A run whose restores find only videos launches the app at most once. -/
theorem countP_isLaunch_le_one {app : App} (tracked : Tracked app) (lists : ListsVideos app)
    {events : List AppEvent} (finds : (system fileManager).Along FindsOnlyVideos app events) :
    events.countP isLaunch ≤ 1 := by
  induction events generalizing app with
  | nil => exact Nat.zero_le 1
  | cons event rest inductionHypothesis =>
      have trackedNext := tracked.next fileManager event
      have listsNext := lists.next fileManager tracked finds.1
      cases event with
      | launch work =>
          have has : HasDatabase ((system fileManager).next app (.launch work)).documents := by
            rw [next_launch, launch_eq]
            exact DeviceModel.mem_paths_initAndInsert work (Or.inr rfl)
          rw [List.countP_cons_of_pos rfl,
            no_launch_of_hasDatabase fileManager trackedNext listsNext has finds.2]
      | _ => exact inductionHypothesis trackedNext listsNext finds.2

/-- For all Documents and all runs of the app, restores list and clears
delete only the app's videos exactly if each restore finds only such files
in Documents, and then the app is launched at most once. -/
theorem only_videos_iff (documents : Documents) (events : List AppEvent) :
    ((system fileManager).Along ((system fileManager).Emits TouchesOnlyVideos) (installed documents)
        events ↔
      (system fileManager).Along FindsOnlyVideos (installed documents) events) ∧
    ((system fileManager).Along FindsOnlyVideos (installed documents) events ->
      events.countP isLaunch ≤ 1) := by
  have start : Tracked (installed documents) ∧ ListsVideos (installed documents) := by
    refine ⟨tracked_installed documents, fun array impossible => ?_⟩
    cases impossible
  constructor
  · refine (system fileManager).along_iff_of_invariant
      (fun app => Tracked app ∧ ListsVideos app)
      (fun app event holds touches => ?_)
      (fun app event holds => holds.2.touchesOnlyVideos_iff fileManager holds.1 event) start events
    exact ⟨holds.1.next fileManager event, holds.2.next fileManager holds.1
      ((holds.2.touchesOnlyVideos_iff fileManager holds.1 event).mp touches)⟩
  · exact countP_isLaunch_le_one fileManager start.1 start.2

/-- The first launch makes the database, the second lists it, and a clear
deletes it. -/
theorem database_cleared_after_relaunch :
    ¬ (system .inEntryOrder).Along ((system .inEntryOrder).Emits TouchesOnlyVideos)
        (installed FileTree.empty) [.launch ⟨[], "2018", true⟩, .launch ⟨[], "2018", true⟩] ∧
      ((system .inEntryOrder).run (installed FileTree.empty) [.launch ⟨[], "2018", true⟩,
        .launch ⟨[], "2018", true⟩, .clearLocalVideos []]).documents.lookup
          [databaseName none] = none := by
  constructor
  · rintro ⟨_, second, _⟩
    rw [EventSystem.emits_iff_of_eq _ (emits_launch _ _ _), next_launch, launch_eq, launch_eq,
      List.forall_mem_singleton] at second
    have videos := (touchesOnlyVideos_restored_iff .inEntryOrder _).mp second
    exact videos [databaseName none] (.file (.database (some [DeviceModel.inserted "2018"])))
      (by decide +kernel)
  · rw [EventSystem.run_cons, EventSystem.run_cons, next_launch, next_launch, launch_eq, launch_eq,
      EventSystem.run_cons, next_of_running _ rfl]
    apply FileTree.not_mem_paths_iff.mp
    change [databaseName none] ∉ (removeItems _ _ (VideoManagerCenter.videoPathArray _ _).2).paths
    rw [videoPathArray_of_some _ rfl]
    exact not_mem_removeItems (by decide +kernel) List.not_mem_nil

end App
end GPUDemo
end HowBigDemo
