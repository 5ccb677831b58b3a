import HowBigDemo.GPUDemo.App

namespace HowBigDemo
namespace GPUDemo
namespace App

open Library
open DataBase

/-!
# What the editor shows for the clips of a camera screen

The editor gets the clips of a camera screen, but looks at the flag of the
shared manager first.  If the flag is set, it shows the file that the
manager remembers and ignores the clips.  Otherwise it shows the merge of
the clips once that is exported.

So the editor shows a merge of its own clips exactly if, whenever the flag
is set, the remembered file happens to be one, and no insertion of a clip
failed in a merge that is shown.  `editor_shows_merge_iff` proves this for
every run.
-/

variable (fileManager : NSFileManager)

/-- A shown file is a merge of exactly the given clips, in their order. -/
def ShowsMerge : AppFact -> Prop
  | .shown clips content => clips ≠ [] -> Exists fun asset =>
      content = some (.file (.merge (mergeOf clips) asset))
  | _ => True

/-- An editor opened by a camera screen with a set flag finds the merge of
its own clips, and an export that is shown lost no insertion. -/
def MergesOwnClips (app : App) : AppEvent -> Prop
  | .nextBtnAction _ _ => app.running = true -> forall vc, app.camera = some vc ->
      vc.fileURLArrays.getD [] ≠ [] -> app.manager.hasCombined = true -> Exists fun asset =>
        app.manager.mergeFilePath.bind app.documents.lookup =
          some (.file (.merge (mergeOf ((vc.fileURLArrays.getD []).map (assetAt app.documents)))
            asset))
  | .exportFinished index completed _ => app.running = true -> forall pending,
      app.Finishes index completed pending -> forall clips, pending.recorded = some clips ->
        clips ≠ [] -> AllInserted pending.insertions clips.length
  | _ => True

/-- The composition of each export for a camera screen was built from the
clips that it records. -/
def Composed (app : App) : Prop :=
  forall pending, pending ∈ app.exports -> forall clips, pending.recorded = some clips ->
    composition pending.insertions clips = .ok pending.exporter.asset

theorem Composed.openEditor {app : App} (composed : Composed app) (fromCamera : Bool)
    (videosArray : List NSURL) (random : Fin 1000) (insertions : Insertions) :
    Composed (app.openEditor fromCamera videosArray random insertions).1 := by
  rcases app.openEditor_cases fromCamera videosArray random insertions with
    ⟨_, opened⟩ | ⟨_, _, opened⟩ | ⟨_, mixComposition, built, opened⟩ <;> rw [opened]
  · exact composed
  · intro pending impossible
    cases impossible
  · intro pending member clips recorded
    rcases List.mem_append.mp member with old | new
    · exact composed pending old clips recorded
    · rw [List.mem_singleton.mp new] at recorded ⊢
      cases fromCamera with
      | false => cases recorded
      | true =>
          cases recorded
          exact built

theorem Composed.perform {app : App} (composed : Composed app) (event : AppEvent) :
    Composed (app.perform fileManager event).1 := by
  cases event with
  | launch work =>
      change Composed (app.launch fileManager work).1
      rw [launch_eq]
      intro pending impossible
      cases impossible
  | insertIntoDB work => exact composed
  | restoreLocalVideo => exact composed
  | clearLocalVideos failing => exact composed
  | openCamera => exact composed
  | finishTake asset =>
      change Composed (app.finishTake asset).1
      unfold finishTake
      split
      · exact composed
      · split <;> exact composed
  | nextBtnAction random insertions =>
      change Composed (app.nextBtnAction random insertions).1
      cases screen : app.camera with
      | none =>
          rw [nextBtnAction_of_none screen]
          exact composed
      | some vc =>
          rw [nextBtnAction_of_some screen]
          exact composed.openEditor true _ random insertions
  | continueEditing random insertions =>
      have accessed : Composed { app with manager :=
          (app.manager.videoPathArray (fileManager.subpathsAtPath app.documents)).1 } := composed
      exact accessed.openEditor false _ random insertions
  | exportFinished index completed asset =>
      change Composed (app.exportFinished index completed asset).1
      rcases app.exportFinished_cases index completed asset with
        ⟨_, exports, kept, finished⟩ | ⟨pending, _, finished⟩ <;> rw [finished]
      · exact fun pending member => composed pending (kept pending member)
      · exact fun pending member => composed pending (List.mem_of_mem_eraseIdx member)
  | filterBegin seconds asset => exact composed

theorem Composed.next {app : App} (composed : Composed app) (event : AppEvent) :
    Composed ((system fileManager).next app event) :=
  next_induction fileManager event composed
    (fun work _ => composed.perform fileManager (.launch work))
    (fun _ => composed.perform fileManager event)

/-- An editor opened by a camera screen shows the merge of its clips exactly
if the flag is not set or the remembered file is that merge. -/
theorem showsMerge_openEditor_iff (app : App) (videosArray : List NSURL) (random : Fin 1000)
    (insertions : Insertions) :
    (forall fact, fact ∈ (app.openEditor true videosArray random insertions).2 ->
        ShowsMerge fact) ↔
      (videosArray ≠ [] -> app.manager.hasCombined = true -> Exists fun asset =>
        app.manager.mergeFilePath.bind app.documents.lookup =
          some (.file (.merge (mergeOf (videosArray.map (assetAt app.documents))) asset))) := by
  rcases app.openEditor_cases true videosArray random insertions with
    ⟨combined, opened⟩ | ⟨separate, _, opened⟩ | ⟨separate, mixComposition, _, opened⟩ <;>
    rw [opened]
  · rw [if_pos rfl, List.forall_mem_singleton]
    constructor
    · intro shows nonempty _
      exact shows fun impossible => nonempty (List.map_eq_nil_iff.mp impossible)
    · intro remembers nonempty
      exact remembers (fun impossible => nonempty (List.map_eq_nil_iff.mpr impossible)) combined
  · refine iff_of_true (fun fact impossible => by cases impossible) fun _ impossible => ?_
    rw [separate] at impossible
    cases impossible
  · refine iff_of_true ?_ fun _ impossible => ?_
    · rw [List.forall_mem_singleton]
      exact trivial
    · rw [separate] at impossible
      cases impossible

/-- A finished export is the merge of the recorded clips exactly if no
insertion failed. -/
theorem showsMerge_exportFinished_iff {app : App} (tracked : Tracked app)
    (composed : Composed app) (index : Nat) (completed : Bool) (asset : AVURLAsset) :
    (forall fact, fact ∈ (app.exportFinished index completed asset).2 -> ShowsMerge fact) ↔
      forall pending, app.Finishes index completed pending -> forall clips,
        pending.recorded = some clips -> clips ≠ [] ->
          AllInserted pending.insertions clips.length := by
  rcases app.exportFinished_cases index completed asset with
    ⟨none, exports, _, finished⟩ | ⟨pending, finishes, finished⟩ <;> rw [finished]
  · refine iff_of_true (fun fact impossible => by cases impossible) fun pending finishes => ?_
    exact absurd finishes (none pending)
  have listed := List.mem_of_getElem? finishes.1
  have only : forall other, app.Finishes index completed other -> other = pending := by
    intro other finishes'
    exact Option.some.inj (finishes'.1.symm.trans finishes.1)
  have content : (VideoManagerCenter.finishExport app.documents pending.exporter asset).lookup
      pending.exporter.outputURL = some (.file (.merge pending.exporter.asset asset)) := by
    rcases tracked.exports pending listed with ⟨random, output⟩
    have new := finishes.2.2.2
    rw [VideoManagerCenter.finishExport, output]
    rw [output] at new
    exact FileTree.lookup_create_self _ new
  dsimp only
  rw [content]
  constructor
  · intro shows other finishes' clips recorded nonempty
    rw [only other finishes'] at recorded ⊢
    rw [recorded] at shows
    rcases shows _ List.mem_cons_self nonempty with ⟨written, same⟩
    have exactly := (Content.merge.inj (Node.file.inj (Option.some.inj same))).1
    exact (composition_eq_mergeOf_iff (composed pending listed clips recorded)).mp exactly
  · intro inserted fact member
    rcases List.mem_map.mp member with ⟨clips, listedClips, rfl⟩
    intro nonempty
    have recorded := Option.mem_toList.mp listedClips
    have built := composed pending listed clips recorded
    rw [(composition_eq_mergeOf_iff built).mpr (inserted pending finishes clips recorded nonempty)]
    exact ⟨asset, rfl⟩

/-- The step law of the editor. -/
theorem emits_showsMerge_iff {app : App} (tracked : Tracked app) (composed : Composed app)
    (event : AppEvent) :
    (system fileManager).Emits ShowsMerge app event ↔ MergesOwnClips app event := by
  cases running : app.running with
  | false =>
      refine iff_of_true ?_ ?_
      · rcases launch_or_rest fileManager running event with ⟨work, rfl⟩ | ⟨_, silent⟩
        · rw [EventSystem.emits_iff_of_eq _ (emits_launch fileManager app work), launch_eq,
            List.forall_mem_singleton]
          exact trivial
        · rw [EventSystem.emits_iff_of_eq _ silent]
          intro fact impossible
          cases impossible
      · cases event with
        | nextBtnAction random insertions =>
            intro impossible
            rw [running] at impossible
            cases impossible
        | exportFinished index completed asset =>
            intro impossible
            rw [running] at impossible
            cases impossible
        | _ => exact trivial
  | true =>
      rw [EventSystem.emits_iff_of_eq _ (emits_of_running fileManager running event)]
      have other (silent : forall clips content, ¬ Reports event (.shown clips content)) :
          forall fact, fact ∈ (app.perform fileManager event).2 -> ShowsMerge fact := by
        intro fact member
        cases fact with
        | shown clips content =>
            exact absurd (reports_perform fileManager member) (silent clips content)
        | _ => exact trivial
      cases event with
      | nextBtnAction random insertions =>
          change (forall fact, fact ∈ (app.nextBtnAction random insertions).2 -> _) ↔
            (app.running = true -> forall vc, app.camera = some vc -> _)
          cases screen : app.camera with
          | none =>
              rw [nextBtnAction_of_none screen]
              refine iff_of_true (fun fact impossible => by cases impossible) ?_
              intro _ vc impossible
              cases impossible
          | some vc =>
              rw [nextBtnAction_of_some screen, showsMerge_openEditor_iff]
              constructor
              · intro shows _ vc' same
                cases same
                exact shows
              · intro merges
                exact merges running vc rfl
      | exportFinished index completed asset =>
          change (forall fact, fact ∈ (app.exportFinished index completed asset).2 -> _) ↔
            (app.running = true -> _)
          rw [showsMerge_exportFinished_iff tracked composed]
          exact ⟨fun inserted _ => inserted, fun inserted => inserted running⟩
      | _ => exact iff_of_true (other fun clips content => id) trivial

/-- For all Documents and all runs of the app, every file that an editor
shows for the clips of a camera screen is the merge of exactly these clips,
exactly if the flag was never set for another merge and no insertion failed. -/
theorem editor_shows_merge_iff (documents : Documents) (events : List AppEvent) :
    (system fileManager).Along ((system fileManager).Emits ShowsMerge) (installed documents)
        events ↔
      (system fileManager).Along MergesOwnClips (installed documents) events :=
  (system fileManager).along_iff_of_invariant (fun app => Tracked app ∧ Composed app)
    (fun _ event holds _ => ⟨holds.1.next fileManager event, holds.2.next fileManager event⟩)
    (fun _ event holds => emits_showsMerge_iff fileManager holds.1 holds.2 event)
    ⟨tracked_installed documents, fun _ impossible => by cases impossible⟩ events

/-- The number of clips that a shown merge plays. -/
def shownSegments : Option (Node Content) -> Nat
  | some (.file (.merge built _)) => built.videoTrack.length
  | _ => 0

/-- An editor that finds the flag set starts no export. -/
theorem next_continueEditing_of_combined {app : App} (running : app.running = true)
    {array : List NSURL} (listed : app.manager._videoPathArray = some array)
    (combined : app.manager.hasCombined = true) (random : Fin 1000) (insertions : Insertions) :
    (system fileManager).next app (.continueEditing random insertions) = app := by
  rw [next_of_running fileManager running]
  change (app.continueEditing fileManager random insertions).1 = app
  rw [continueEditing_of_some fileManager listed, openEditor, if_pos combined]

/-- A take is merged and the app is launched again.  The earlier merge is
shown first, and then for the two clips of a second camera screen too. -/
theorem old_merge_shown_for_new_clips :
    ¬ (system .inEntryOrder).Along ((system .inEntryOrder).Emits ShowsMerge)
        (installed FileTree.empty)
        [.launch ⟨[], "2018", true⟩, .openCamera, .finishTake ⟨1, 5, 1, 1⟩,
          .nextBtnAction 0 fun _ _ => true, .exportFinished 0 true ⟨10, 5, 1, 1⟩,
          .launch ⟨[], "2018", true⟩, .continueEditing 1 fun _ _ => true, .openCamera,
          .finishTake ⟨2, 3, 1, 1⟩, .finishTake ⟨3, 4, 1, 1⟩,
          .nextBtnAction 2 fun _ _ => true] := by
  rintro ⟨_, _, _, _, _, _, _, _, _, _, last, _⟩
  simp only [next_launch, launch_eq] at last
  rw [next_continueEditing_of_combined _ rfl rfl (by decide +kernel), EventSystem.Emits,
    emits_of_running _ rfl] at last
  have remembers := (showsMerge_openEditor_iff _ [CameraScreen.url 0, CameraScreen.url 1] 2
    fun _ _ => true).mp last (List.cons_ne_nil _ _) (by decide +kernel)
  rcases remembers with ⟨asset, same⟩
  have segments := congrArg shownSegments same
  change _ = (segmentsOf .video 0 _).length at segments
  rw [length_segmentsOf] at segments
  exact absurd segments (by decide +kernel)

end App
end GPUDemo
end HowBigDemo
