import HowBigDemo.DataBase.DeviceModel
import HowBigDemo.GPUDemo.CameraSession
import HowBigDemo.GPUDemo.VideoManagerCenter

namespace HowBigDemo
namespace GPUDemo

open Library
open DataBase

/-!
# The app over its Documents directory

One process after another works on the same directory.  Each launch makes a
new manager, restores, and then opens the database.  Camera screens write
clips, an editor merges the clips it is given or shows the merged file that
the manager remembers, and an editor can export a filtered movie.  A raised
exception ends the process, and only Documents survives.

Every step reports what the laws of the following modules are about: the
result of a restore, the effect of a clear, the URL chosen for a new file,
and the file an editor shows for the clips of a camera screen.
-/

/-- An export in progress.  An exporter fails if its output existed when it
was started.  `recorded` holds the clips if the editor was opened by a
camera screen. -/
structure PendingExport where
  exporter : AVAssetExportSession
  blocked : Bool
  recorded : Option (List AVURLAsset)
  insertions : Insertions

/-- The process and the directory.  `takes` records the outputs of the takes
of the run whose files have existed ever since. -/
structure App where
  running : Bool
  documents : Documents
  manager : VideoManagerCenter
  camera : Option GPUCameraDemoViewController
  exports : List PendingExport
  takes : List NSURL

/-- What a step lets an observer record, with the Documents of that moment. -/
inductive AppFact
  | restored (result : Bool) (listed : List NSURL) (documents : Documents)
  | cleared (before after : Documents)
  | outputURL (url : NSURL) (documents : Documents)
  | shown (clips : List AVURLAsset) (content : Option (Node Content))

inductive AppEvent
  | launch (work : DatabaseWork)
  | insertIntoDB (work : DatabaseWork)
  | restoreLocalVideo
  | clearLocalVideos (failing : List NSURL)
  | openCamera
  | finishTake (asset : AVURLAsset)
  | nextBtnAction (random : Fin 1000) (insertions : Insertions)
  | continueEditing (random : Fin 1000) (insertions : Insertions)
  | exportFinished (index : Nat) (completed : Bool) (asset : AVURLAsset)
  | filterBegin (seconds : Int) (asset : AVURLAsset)

namespace App

/-- The app before its first launch. -/
def installed (documents : Documents) : App :=
  ⟨false, documents, .shareInstance, none, [], []⟩

/-- The process is gone. -/
def terminated (app : App) : App :=
  { installed app.documents with takes := app.takes }

variable (fileManager : NSFileManager)

/-- A call of `restoreLocalVideo`. -/
def restoreLocalVideo (app : App) : App × List AppFact :=
  let restored := app.manager.restoreLocalVideo (fileManager.subpathsAtPath app.documents)
  ({ app with manager := restored.1 },
    [.restored restored.2 (restored.1._videoPathArray.getD []) app.documents])

/-- The main screen of a new process: restore, then the database. -/
def launch (work : DatabaseWork) (app : App) : App × List AppFact :=
  let restored := restoreLocalVideo fileManager { app.terminated with running := true }
  ({ restored.1 with documents := DeviceModel.initAndInsert work restored.1.documents },
    restored.2)

def clearLocalVideos (failing : List NSURL) (app : App) : App × List AppFact :=
  let cleared := VideoManagerCenter.clearLocalVideos
    (fileManager.subpathsAtPath app.documents) failing app.documents app.manager
  ({ app with
      documents := cleared.1
      manager := cleared.2
      takes := app.takes.filter fun url => url ∈ cleared.1.paths },
    [.cleared app.documents cleared.1])

/-- A new camera screen replaces an earlier one. -/
def openCamera (app : App) : App × List AppFact :=
  let vc := GPUCameraDemoViewController.viewDidLoad
  ({ app with camera := some vc },
    vc.movieURL.toList.map fun url => .outputURL url app.documents)

/-- One completed take: the writer writes its file, and the handler makes
the next writer. -/
def finishTake (asset : AVURLAsset) (app : App) : App × List AppFact :=
  match app.camera with
  | none => (app, [])
  | some vc =>
    match vc.movieWriter with
    | none => (app, [])
    | some writer =>
      let documents := createFile app.documents writer.movieURL (.clip asset)
      let vc := vc.resetVideoWrite
      ({ app with
          documents := documents
          camera := some vc
          takes := app.takes ++ [writer.movieURL] },
        vc.movieURL.toList.map fun url => .outputURL url documents)

/-- The editor's `viewDidLoad`: show the remembered merge, or merge the
given videos. -/
def openEditor (fromCamera : Bool) (videosArray : List NSURL) (random : Fin 1000)
    (insertions : Insertions) (app : App) : App × List AppFact :=
  let clips := videosArray.map (assetAt app.documents)
  if app.manager.hasCombined then
    (app, if fromCamera then [.shown clips (app.manager.mergeFilePath.bind app.documents.lookup)]
      else [])
  else
    match VideoManagerCenter.compressionSession insertions random app.documents videosArray with
    | .error _ => (app.terminated, [])
    | .ok exporter =>
      ({ app with
          exports := app.exports ++
            [{ exporter := exporter
               blocked := decide (exporter.outputURL ∈ app.documents.paths)
               recorded := if fromCamera then some clips else none
               insertions := insertions }] },
        [.outputURL exporter.outputURL app.documents])

/-- The camera screen hands its list of takes to a new editor. -/
def nextBtnAction (random : Fin 1000) (insertions : Insertions) (app : App) :
    App × List AppFact :=
  match app.camera with
  | none => (app, [])
  | some vc => openEditor true (vc.fileURLArrays.getD []) random insertions app

/-- The alert of the main screen hands the restored list to a new editor. -/
def continueEditing (random : Fin 1000) (insertions : Insertions) (app : App) :
    App × List AppFact :=
  let accessed := app.manager.videoPathArray (fileManager.subpathsAtPath app.documents)
  openEditor false accessed.2 random insertions { app with manager := accessed.1 }

/-- The end of an export.  A completed one is shown by its editor. -/
def exportFinished (index : Nat) (completed : Bool) (asset : AVURLAsset) (app : App) :
    App × List AppFact :=
  match app.exports[index]? with
  | none => (app, [])
  | some pending =>
    let finished := { app with exports := app.exports.eraseIdx index }
    if completed = true ∧ pending.blocked = false ∧
        pending.exporter.outputURL ∉ app.documents.paths then
      let documents := VideoManagerCenter.finishExport app.documents pending.exporter asset
      ({ finished with documents := documents },
        pending.recorded.toList.map fun clips =>
          .shown clips (documents.lookup pending.exporter.outputURL))
    else (finished, [])

/-- The editor's export of a filtered movie. -/
def filterBegin (seconds : Int) (asset : AVURLAsset) (app : App) : App × List AppFact :=
  ({ app with documents := createFile app.documents [movie seconds] (.movie asset) }, [])

/-- What a running process does for an event. -/
def perform (app : App) : AppEvent -> App × List AppFact
  | .launch work => app.launch fileManager work
  | .insertIntoDB work =>
      ({ app with documents := DeviceModel.initAndInsert work app.documents }, [])
  | .restoreLocalVideo => app.restoreLocalVideo fileManager
  | .clearLocalVideos failing => app.clearLocalVideos fileManager failing
  | .openCamera => app.openCamera
  | .finishTake asset => app.finishTake asset
  | .nextBtnAction random insertions => app.nextBtnAction random insertions
  | .continueEditing random insertions => app.continueEditing fileManager random insertions
  | .exportFinished index completed asset => app.exportFinished index completed asset
  | .filterBegin seconds asset => app.filterBegin seconds asset

/-- Without a process, only a launch does anything. -/
def system : EventSystem App AppEvent AppFact where
  step app event :=
    match app.running, event with
    | false, .launch work => app.launch fileManager work
    | false, _ => (app, [])
    | true, event => app.perform fileManager event

/-! ## The steps of a running process -/

theorem next_of_running {app : App} (running : app.running = true) (event : AppEvent) :
    (system fileManager).next app event = (app.perform fileManager event).1 := by
  simp only [EventSystem.next, system, running]

theorem emits_of_running {app : App} (running : app.running = true) (event : AppEvent) :
    (system fileManager).emits app event = (app.perform fileManager event).2 := by
  simp only [EventSystem.emits, system, running]

/-- Without a process, an event launches one or does nothing. -/
theorem launch_or_rest {app : App} (stopped : app.running = false) (event : AppEvent) :
    (Exists fun work => event = .launch work) ∨
      ((system fileManager).next app event = app ∧ (system fileManager).emits app event = []) := by
  cases event with
  | launch work => exact Or.inl ⟨work, rfl⟩
  | _ => exact Or.inr ⟨by simp only [EventSystem.next, system, stopped],
      by simp only [EventSystem.emits, system, stopped]⟩

/-- A launch is the same with and without an earlier process. -/
theorem step_launch (app : App) (work : DatabaseWork) :
    (system fileManager).step app (.launch work) = app.launch fileManager work := by
  cases running : app.running with
  | false => simp only [system, running]
  | true => simp only [system, running, perform]

theorem launch_eq (app : App) (work : DatabaseWork) :
    app.launch fileManager work =
      ({ running := true
         documents := DeviceModel.initAndInsert work app.documents
         manager := VideoManagerCenter.restored (fileManager.subpathsAtPath app.documents)
           .shareInstance
         camera := none
         exports := []
         takes := app.takes },
        [.restored (decide (0 < (fileManager.subpathsAtPath app.documents).length))
          (fileManager.subpathsAtPath app.documents) app.documents]) := by
  simp only [launch, restoreLocalVideo, terminated, installed,
    VideoManagerCenter.restoreLocalVideo_eq]
  rfl

theorem next_launch (app : App) (work : DatabaseWork) :
    (system fileManager).next app (.launch work) = (app.launch fileManager work).1 :=
  congrArg Prod.fst (step_launch fileManager app work)

theorem emits_launch (app : App) (work : DatabaseWork) :
    (system fileManager).emits app (.launch work) = (app.launch fileManager work).2 :=
  congrArg Prod.snd (step_launch fileManager app work)

/-- What holds of the state itself, of a launched process and of what a
running process does holds after every step. -/
theorem next_induction {goal : App -> Prop} {app : App} (event : AppEvent) (kept : goal app)
    (launched : forall work, event = .launch work -> goal (app.launch fileManager work).1)
    (performed : app.running = true -> goal (app.perform fileManager event).1) :
    goal ((system fileManager).next app event) := by
  cases running : app.running with
  | true =>
      rw [next_of_running fileManager running]
      exact performed running
  | false =>
      rcases launch_or_rest fileManager running event with ⟨work, same⟩ | ⟨same, _⟩
      · rw [same, next_launch]
        exact launched work same
      · rw [same]
        exact kept

theorem restoreLocalVideo_eq (app : App) :
    app.restoreLocalVideo fileManager =
      ({ app with
          manager := VideoManagerCenter.restored (fileManager.subpathsAtPath app.documents)
            app.manager },
        [.restored (decide (0 < (fileManager.subpathsAtPath app.documents).length))
          (fileManager.subpathsAtPath app.documents) app.documents]) := by
  simp only [restoreLocalVideo, VideoManagerCenter.restoreLocalVideo_eq]
  rfl

/-- Without a camera screen there is no take and no list to hand on. -/
theorem finishTake_of_none {app : App} (closed : app.camera = none) (asset : AVURLAsset) :
    app.finishTake asset = (app, []) := by
  simp only [finishTake, closed]

theorem nextBtnAction_of_none {app : App} (closed : app.camera = none) (random : Fin 1000)
    (insertions : Insertions) : app.nextBtnAction random insertions = (app, []) := by
  simp only [nextBtnAction, closed]

/-- The camera screen hands on its own list. -/
theorem nextBtnAction_of_some {app : App} {vc : GPUCameraDemoViewController}
    (screen : app.camera = some vc) (random : Fin 1000) (insertions : Insertions) :
    app.nextBtnAction random insertions =
      app.openEditor true (vc.fileURLArrays.getD []) random insertions := by
  simp only [nextBtnAction, screen]

/-- A manager with a list hands on that list. -/
theorem continueEditing_of_some {app : App} {array : List NSURL}
    (listed : app.manager._videoPathArray = some array) (random : Fin 1000)
    (insertions : Insertions) :
    app.continueEditing fileManager random insertions =
      app.openEditor false array random insertions := by
  simp only [continueEditing, VideoManagerCenter.videoPathArray_of_some _ listed]

/-- A take on a camera screen with numbered writers. -/
theorem finishTake_numbered {app : App} {handlers : Nat}
    (screen : app.camera = some (CameraScreen.numbered handlers)) (asset : AVURLAsset) :
    app.finishTake asset =
      ({ app with
          documents := app.documents.create (liveMovied handlers) (.clip asset)
          camera := some (CameraScreen.numbered (handlers + 1))
          takes := app.takes ++ [CameraScreen.url handlers] },
        [.outputURL (CameraScreen.url (handlers + 1))
          (app.documents.create (liveMovied handlers) (.clip asset))]) := by
  simp only [finishTake, screen, CameraScreen.resetVideoWrite_numbered]
  rfl

/-- The three outcomes of opening an editor. -/
theorem openEditor_cases (app : App) (fromCamera : Bool) (videosArray : List NSURL)
    (random : Fin 1000) (insertions : Insertions) :
    (app.manager.hasCombined = true ∧
      app.openEditor fromCamera videosArray random insertions =
        (app, if fromCamera then [.shown (videosArray.map (assetAt app.documents))
          (app.manager.mergeFilePath.bind app.documents.lookup)] else [])) ∨
    (app.manager.hasCombined = false ∧ (Exists fun exception =>
        composition insertions (videosArray.map (assetAt app.documents)) = .error exception) ∧
      app.openEditor fromCamera videosArray random insertions = (app.terminated, [])) ∨
    (app.manager.hasCombined = false ∧ Exists fun mixComposition =>
      composition insertions (videosArray.map (assetAt app.documents)) = .ok mixComposition ∧
      app.openEditor fromCamera videosArray random insertions =
        ({ app with
            exports := app.exports ++
              [{ exporter := ⟨mixComposition, [finalVideo random]⟩
                 blocked := decide ([finalVideo random] ∈ app.documents.paths)
                 recorded := if fromCamera then some (videosArray.map (assetAt app.documents))
                   else none
                 insertions := insertions }] },
          [.outputURL [finalVideo random] app.documents])) := by
  unfold openEditor VideoManagerCenter.compressionSession
  cases app.manager.hasCombined with
  | true => exact Or.inl ⟨rfl, rfl⟩
  | false =>
      cases built : composition insertions (videosArray.map (assetAt app.documents)) with
      | error exception => exact Or.inr (Or.inl ⟨rfl, ⟨exception, rfl⟩, rfl⟩)
      | ok mixComposition => exact Or.inr (Or.inr ⟨rfl, mixComposition, rfl, rfl⟩)

/-- The export at an index ends with a new file. -/
def Finishes (app : App) (index : Nat) (completed : Bool) (pending : PendingExport) : Prop :=
  app.exports[index]? = some pending ∧ completed = true ∧ pending.blocked = false ∧
    pending.exporter.outputURL ∉ app.documents.paths

/-- An export ends with a new file or without any effect on Documents. -/
theorem exportFinished_cases (app : App) (index : Nat) (completed : Bool) (asset : AVURLAsset) :
    ((forall pending, ¬ app.Finishes index completed pending) ∧ Exists fun exports =>
      (forall pending, pending ∈ exports -> pending ∈ app.exports) ∧
      app.exportFinished index completed asset = ({ app with exports := exports }, [])) ∨
    (Exists fun pending => app.Finishes index completed pending ∧
      app.exportFinished index completed asset =
        ({ app with
            exports := app.exports.eraseIdx index
            documents := VideoManagerCenter.finishExport app.documents pending.exporter asset },
          pending.recorded.toList.map fun clips =>
            .shown clips ((VideoManagerCenter.finishExport app.documents pending.exporter
              asset).lookup pending.exporter.outputURL))) := by
  unfold exportFinished
  cases found : app.exports[index]? with
  | none =>
      refine Or.inl ⟨fun pending finishes => ?_, app.exports, fun _ member => member, rfl⟩
      rw [finishes.1] at found
      cases found
  | some pending =>
      dsimp only
      by_cases ends : completed = true ∧ pending.blocked = false ∧
          pending.exporter.outputURL ∉ app.documents.paths
      · rw [if_pos ends]
        exact Or.inr ⟨pending, ⟨found, ends⟩, rfl⟩
      · rw [if_neg ends]
        refine Or.inl ⟨fun other finishes => ?_, _,
          fun _ member => List.mem_of_mem_eraseIdx member, rfl⟩
        have same := finishes.1
        rw [found] at same
        cases same
        exact ends finishes.2

/-! ## Which events report what -/

/-- The kinds of facts that an event can report. -/
def Reports : AppEvent -> AppFact -> Prop
  | .launch _, .restored _ _ _ => True
  | .restoreLocalVideo, .restored _ _ _ => True
  | .clearLocalVideos _, .cleared _ _ => True
  | .openCamera, .outputURL _ _ => True
  | .finishTake _, .outputURL _ _ => True
  | .nextBtnAction _ _, .outputURL _ _ => True
  | .nextBtnAction _ _, .shown _ _ => True
  | .continueEditing _ _, .outputURL _ _ => True
  | .exportFinished _ _ _, .shown _ _ => True
  | _, _ => False

/-- An editor shows the remembered merge only to a camera screen. -/
theorem openEditor_reports {app : App} {fromCamera : Bool} {videosArray : List NSURL}
    {random : Fin 1000} {insertions : Insertions} {fact : AppFact}
    (member : fact ∈ (app.openEditor fromCamera videosArray random insertions).2) :
    (fromCamera = true ∧ Exists fun clips => Exists fun content => fact = .shown clips content) ∨
      Exists fun url => Exists fun documents => fact = .outputURL url documents := by
  rcases app.openEditor_cases fromCamera videosArray random insertions with
    ⟨_, opened⟩ | ⟨_, _, opened⟩ | ⟨_, mixComposition, _, opened⟩ <;> rw [opened] at member
  · cases fromCamera with
    | false => cases member
    | true => exact Or.inl ⟨rfl, _, _, List.mem_singleton.mp member⟩
  · cases member
  · exact Or.inr ⟨_, _, List.mem_singleton.mp member⟩

theorem reports_perform {app : App} {event : AppEvent} {fact : AppFact}
    (member : fact ∈ (app.perform fileManager event).2) : Reports event fact := by
  cases event with
  | launch work =>
      change fact ∈ (app.launch fileManager work).2 at member
      rw [launch_eq] at member
      rw [List.mem_singleton.mp member]
      exact trivial
  | insertIntoDB work => cases member
  | restoreLocalVideo =>
      rw [List.mem_singleton.mp member]
      exact trivial
  | clearLocalVideos failing =>
      rw [List.mem_singleton.mp member]
      exact trivial
  | openCamera =>
      rcases List.mem_map.mp member with ⟨url, _, rfl⟩
      exact trivial
  | finishTake asset =>
      change fact ∈ (app.finishTake asset).2 at member
      unfold finishTake at member
      split at member
      · cases member
      · split at member
        · cases member
        · rcases List.mem_map.mp member with ⟨url, _, rfl⟩
          exact trivial
  | nextBtnAction random insertions =>
      change fact ∈ (app.nextBtnAction random insertions).2 at member
      cases screen : app.camera with
      | none =>
          rw [nextBtnAction_of_none screen] at member
          cases member
      | some vc =>
          rw [nextBtnAction_of_some screen] at member
          rcases openEditor_reports member with ⟨_, clips, content, rfl⟩ | ⟨url, documents, rfl⟩ <;>
            exact trivial
  | continueEditing random insertions =>
      rcases openEditor_reports member with ⟨impossible, _⟩ | ⟨url, documents, rfl⟩
      · cases impossible
      · exact trivial
  | exportFinished index completed asset =>
      change fact ∈ (app.exportFinished index completed asset).2 at member
      rcases app.exportFinished_cases index completed asset with
        ⟨_, exports, _, finished⟩ | ⟨pending, _, finished⟩ <;> rw [finished] at member
      · cases member
      · rcases List.mem_map.mp member with ⟨clips, _, rfl⟩
        exact trivial
  | filterBegin seconds asset => cases member

/-! ## What holds in every state -/

/-- A running process has restored, its camera screen has numbered writers,
and its exports go to names of merged files. -/
structure Tracked (app : App) : Prop where
  restored : app.running = true -> Exists fun array => app.manager._videoPathArray = some array
  camera : forall vc, app.camera = some vc -> Exists fun handlers =>
    vc = CameraScreen.numbered handlers
  exports : forall pending, pending ∈ app.exports -> Exists fun random =>
    pending.exporter.outputURL = [finalVideo random]

theorem tracked_installed (documents : Documents) : Tracked (installed documents) := by
  refine ⟨fun impossible => ?_, fun vc impossible => ?_, fun pending impossible => ?_⟩ <;>
    cases impossible

theorem Tracked.terminated {app : App} : Tracked app.terminated := by
  refine ⟨fun impossible => ?_, fun vc impossible => ?_, fun pending impossible => ?_⟩ <;>
    cases impossible

theorem Tracked.launch (app : App) (work : DatabaseWork) :
    Tracked (app.launch fileManager work).1 := by
  rw [launch_eq]
  refine ⟨fun _ => ⟨_, rfl⟩, fun vc impossible => ?_, fun pending impossible => ?_⟩ <;>
    cases impossible

theorem Tracked.openEditor {app : App} (tracked : Tracked app) (fromCamera : Bool)
    (videosArray : List NSURL) (random : Fin 1000) (insertions : Insertions) :
    Tracked (app.openEditor fromCamera videosArray random insertions).1 := by
  rcases app.openEditor_cases fromCamera videosArray random insertions with
    ⟨_, opened⟩ | ⟨_, _, opened⟩ | ⟨_, mixComposition, _, opened⟩
  · rw [opened]
    exact tracked
  · rw [opened]
    exact Tracked.terminated
  · rw [opened]
    refine ⟨tracked.restored, tracked.camera, fun pending member => ?_⟩
    rcases List.mem_append.mp member with old | new
    · exact tracked.exports pending old
    · rw [List.mem_singleton.mp new]
      exact ⟨random, rfl⟩

theorem Tracked.perform {app : App} (tracked : Tracked app) (running : app.running = true)
    (event : AppEvent) : Tracked (app.perform fileManager event).1 := by
  rcases tracked.restored running with ⟨array, listed⟩
  cases event with
  | launch work => exact Tracked.launch fileManager app work
  | insertIntoDB work => exact ⟨tracked.restored, tracked.camera, tracked.exports⟩
  | restoreLocalVideo =>
      change Tracked (app.restoreLocalVideo fileManager).1
      rw [restoreLocalVideo_eq]
      exact ⟨fun _ => ⟨_, rfl⟩, tracked.camera, tracked.exports⟩
  | clearLocalVideos failing =>
      exact ⟨fun _ => ⟨_, VideoManagerCenter.videoPathArray_listed _ app.manager⟩, tracked.camera,
        tracked.exports⟩
  | openCamera =>
      refine ⟨tracked.restored, fun vc same => ⟨0, ?_⟩, tracked.exports⟩
      rw [← CameraScreen.viewDidLoad_eq]
      exact (Option.some.inj same).symm
  | finishTake asset =>
      change Tracked (app.finishTake asset).1
      cases screen : app.camera with
      | none =>
          rw [finishTake_of_none screen]
          exact tracked
      | some vc =>
          rcases tracked.camera vc screen with ⟨handlers, rfl⟩
          rw [finishTake_numbered screen]
          exact ⟨tracked.restored, fun vc same => ⟨handlers + 1, (Option.some.inj same).symm⟩,
            tracked.exports⟩
  | nextBtnAction random insertions =>
      change Tracked (app.nextBtnAction random insertions).1
      cases screen : app.camera with
      | none =>
          rw [nextBtnAction_of_none screen]
          exact tracked
      | some vc =>
          rw [nextBtnAction_of_some screen]
          exact tracked.openEditor true _ random insertions
  | continueEditing random insertions =>
      change Tracked (app.continueEditing fileManager random insertions).1
      rw [continueEditing_of_some fileManager listed]
      exact tracked.openEditor false array random insertions
  | exportFinished index completed asset =>
      change Tracked (app.exportFinished index completed asset).1
      rcases app.exportFinished_cases index completed asset with
        ⟨_, exports, kept, finished⟩ | ⟨pending, _, finished⟩
      · rw [finished]
        exact ⟨tracked.restored, tracked.camera, fun pending member =>
          tracked.exports pending (kept pending member)⟩
      · rw [finished]
        exact ⟨tracked.restored, tracked.camera, fun pending member =>
          tracked.exports pending (List.mem_of_mem_eraseIdx member)⟩
  | filterBegin seconds asset => exact ⟨tracked.restored, tracked.camera, tracked.exports⟩

/-- Every step keeps the tracking. -/
theorem Tracked.next {app : App} (tracked : Tracked app) (event : AppEvent) :
    Tracked ((system fileManager).next app event) :=
  next_induction fileManager event tracked
    (fun work _ => Tracked.launch fileManager app work)
    (fun running => tracked.perform fileManager running event)

end App
end GPUDemo
end HowBigDemo
