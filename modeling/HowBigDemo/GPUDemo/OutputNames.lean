import HowBigDemo.GPUDemo.Alignment
import HowBigDemo.GPUDemo.App

namespace HowBigDemo
namespace GPUDemo
namespace App

open Library
open DataBase

/-!
# The names of new files

A camera screen names its outputs by the number of takes it has listed, and
an editor names a merge by a random number.  Neither looks at Documents, where
other screens and earlier merges may have left files of the same numbers.

`output_names_new` shows that the names of a run are new exactly if, before
each step, no clip or merged file in Documents has the number that comes
next, and that the takes whose files exist then have different URLs.
-/

variable (fileManager : NSFileManager)

/-- An output URL names no file at the moment when it is chosen. -/
def NamesNoFile : AppFact -> Prop
  | .outputURL url documents => url ∉ documents.paths
  | _ => True

/-- Documents has a clip of the number, as `%d` prints it. -/
def HasClip (documents : Documents) (number : Nat) : Prop :=
  [liveMovied number] ∈ documents.paths

/-- Documents has a merged file of the number. -/
def HasMerge (documents : Documents) (random : Fin 1000) : Prop :=
  [finalVideo random] ∈ documents.paths

/-- How many takes a screen has listed. -/
def listedTakes (vc : GPUCameraDemoViewController) : Nat :=
  (vc.fileURLArrays.getD []).length

/-- An editor starts an export: the flag is not set, and every video has a
picture and sound. -/
def EditorExports (app : App) (videosArray : List NSURL) : Prop :=
  app.manager.hasCombined = false ∧ forall url, url ∈ videosArray -> forall mediaType,
    0 < (assetAt app.documents url).trackCount mediaType

/-- A screen is opened when there is no clip with the number zero.  When a
take ends, no clip has the number behind those of the listed takes and of the
take itself.  A merge draws a number that no merged file has. -/
def NumbersFree (app : App) : AppEvent -> Prop
  | .openCamera => app.running = true -> ¬ HasClip app.documents 0
  | .finishTake _ => app.running = true -> forall vc, app.camera = some vc ->
      ¬ HasClip app.documents (listedTakes vc + 1)
  | .nextBtnAction random _ => app.running = true -> forall vc, app.camera = some vc ->
      EditorExports app (vc.fileURLArrays.getD []) -> ¬ HasMerge app.documents random
  | .continueEditing random _ => app.running = true ->
      EditorExports app (app.manager._videoPathArray.getD []) -> ¬ HasMerge app.documents random
  | _ => True

/-- The current output of the screen is not written yet.  The takes whose
files exist have different URLs. -/
structure Fresh (app : App) : Prop where
  current : forall handlers, app.camera = some (CameraScreen.numbered handlers) ->
    CameraScreen.url handlers ∉ app.documents.paths
  existing : forall url, url ∈ app.takes -> (Exists fun handlers => url = CameraScreen.url handlers) ∧
    url ∈ app.documents.paths
  distinct : app.takes.Nodup

/-! ## Changes that leave the clips alone -/

/-- Both trees have the same entries under the names of camera screens. -/
def SameClips (before after : Documents) : Prop :=
  forall handlers, after.lookup (CameraScreen.url handlers) =
    before.lookup (CameraScreen.url handlers)

theorem SameClips.mem_paths_iff {before after : Documents} (same : SameClips before after)
    (handlers : Nat) :
    CameraScreen.url handlers ∈ after.paths ↔ CameraScreen.url handlers ∈ before.paths := by
  rw [FileTree.mem_paths_iff, FileTree.mem_paths_iff, same handlers]

/-- A new file under a name that no camera screen uses. -/
theorem sameClips_createFile (documents : Documents) {name : String} (content : Content)
    (other : name.toList.head? ≠ some 'L') :
    SameClips documents (createFile documents [name] content) := by
  intro handlers
  refine FileTree.lookup_create_of_ne content (singleton_ne_of_head? fun same => other ?_)
  rw [← same, head?_liveMovied]

theorem sameClips_database (work : DatabaseWork) (documents : Documents) :
    SameClips documents (DeviceModel.initAndInsert work documents) := by
  intro handlers
  apply DeviceModel.initAndInsert_sameElsewhere work documents
  intro companion
  exact singleton_ne_of_head? (by simp)

theorem Fresh.sameClips {app app' : App} (fresh : Fresh app)
    (same : SameClips app.documents app'.documents)
    (camera : app'.camera = app.camera ∨ app'.camera = none) (takes : app'.takes = app.takes) :
    Fresh app' := by
  refine ⟨fun handlers screen => ?_, fun url member => ?_, ?_⟩
  · rw [same.mem_paths_iff]
    rcases camera with kept | closed
    · exact fresh.current handlers (kept ▸ screen)
    · rw [closed] at screen
      cases screen
  · rw [takes] at member
    rcases fresh.existing url member with ⟨⟨handlers, rfl⟩, present⟩
    exact ⟨⟨handlers, rfl⟩, (same.mem_paths_iff handlers).mpr present⟩
  · rw [takes]
    exact fresh.distinct

theorem numbered_injective {first second : Nat}
    (same : CameraScreen.numbered first = CameraScreen.numbered second) : first = second :=
  Nat.succ.inj (congrArg GPUCameraDemoViewController.resets same)

/-! ## Takes -/

theorem listedTakes_numbered (handlers : Nat) :
    listedTakes (CameraScreen.numbered handlers) = handlers := by
  change ((List.range handlers).map CameraScreen.url).length = handlers
  rw [List.length_map, List.length_range]

/-- A name is never followed by the same name. -/
theorem liveMovied_succ_ne (number : Nat) : liveMovied (number + 1) ≠ liveMovied number := by
  intro same
  have printed : format (number + 1) = format number :=
    (String.append_left_inj _).mp ((String.append_right_inj _).mp same)
  have values := congrArg BitVec.toNat (BitVec.toInt_inj.mp (Int.repr_injective printed))
  rw [BitVec.toNat_ofNat, BitVec.toNat_ofNat] at values
  omega

/-- The next name of a screen is new after a take if no clip had its number
before. -/
theorem next_url_new_iff (documents : Documents) (handlers : Nat) (content : Content) :
    CameraScreen.url (handlers + 1) ∉ (documents.create (liveMovied handlers) content).paths ↔
      ¬ HasClip documents (handlers + 1) := by
  have different : CameraScreen.url (handlers + 1) ≠ [liveMovied handlers] := fun same =>
    liveMovied_succ_ne handlers (List.singleton_inj.mp same)
  exact not_congr (FileTree.mem_paths_create_of_ne content different)

/-- A take writes its own file. -/
theorem Fresh.finishTake {app : App} (fresh : Fresh app) {handlers : Nat}
    (screen : app.camera = some (CameraScreen.numbered handlers)) (asset : AVURLAsset)
    (new : CameraScreen.url (handlers + 1) ∉
      (app.documents.create (liveMovied handlers) (.clip asset)).paths) :
    Fresh (app.finishTake asset).1 := by
  have free := fresh.current handlers screen
  rw [finishTake_numbered screen]
  refine ⟨fun number same => ?_, fun url member => ?_, ?_⟩
  · rw [← numbered_injective (Option.some.inj same)]
    exact new
  · rcases List.mem_append.mp member with old | now
    · rcases fresh.existing url old with ⟨named, present⟩
      exact ⟨named, FileTree.mem_paths_create_of_mem _ present⟩
    · rw [List.mem_singleton.mp now]
      exact ⟨⟨handlers, rfl⟩, FileTree.mem_paths_create_self _ _ _⟩
  · refine List.nodup_append.mpr ⟨fresh.distinct, List.pairwise_singleton _ _, ?_⟩
    intro url old other now same
    rw [List.mem_singleton.mp now] at same
    rw [same] at old
    exact free (fresh.existing _ old).2

/-- A clear leaves the takes whose files it leaves. -/
theorem Fresh.clearLocalVideos {app : App} (fresh : Fresh app) (failing : List NSURL) :
    Fresh (app.clearLocalVideos fileManager failing).1 := by
  refine ⟨fun handlers screen present => ?_, fun url member => ?_, ?_⟩
  · rcases FileTree.mem_paths_iff.mp present with ⟨node, found⟩
    exact fresh.current handlers screen (FileTree.mem_paths_of_lookup
      (VideoManagerCenter.lookup_of_lookup_removeItems found))
  · rcases List.mem_filter.mp member with ⟨old, kept⟩
    exact ⟨(fresh.existing url old).1, of_decide_eq_true kept⟩
  · exact fresh.distinct.filter _

theorem Fresh.openEditor {app : App} (fresh : Fresh app) (fromCamera : Bool)
    (videosArray : List NSURL) (random : Fin 1000) (insertions : Insertions) :
    Fresh (app.openEditor fromCamera videosArray random insertions).1 := by
  rcases app.openEditor_cases fromCamera videosArray random insertions with
    ⟨_, opened⟩ | ⟨_, _, opened⟩ | ⟨_, mixComposition, _, opened⟩ <;> rw [opened]
  · exact fresh
  · exact fresh.sameClips (fun _ => rfl) (Or.inr rfl) rfl
  · exact fresh.sameClips (fun _ => rfl) (Or.inl rfl) rfl

/-- A step that finds its numbers free keeps the takes apart. -/
theorem Fresh.perform {app : App} (tracked : Tracked app) (fresh : Fresh app)
    (running : app.running = true) {event : AppEvent} (free : NumbersFree app event) :
    Fresh (app.perform fileManager event).1 := by
  cases event with
  | launch work =>
      change Fresh (app.launch fileManager work).1
      rw [launch_eq]
      exact fresh.sameClips (sameClips_database work app.documents) (Or.inr rfl) rfl
  | insertIntoDB work =>
      exact fresh.sameClips (sameClips_database work app.documents) (Or.inl rfl) rfl
  | restoreLocalVideo => exact fresh.sameClips (fun _ => rfl) (Or.inl rfl) rfl
  | clearLocalVideos failing => exact fresh.clearLocalVideos fileManager failing
  | openCamera =>
      refine ⟨fun handlers same => ?_, fresh.existing, fresh.distinct⟩
      have screen : some (CameraScreen.numbered 0) = some (CameraScreen.numbered handlers) := same
      rw [← numbered_injective (Option.some.inj screen)]
      exact free running
  | finishTake asset =>
      change Fresh (app.finishTake asset).1
      cases screen : app.camera with
      | none =>
          rw [finishTake_of_none screen]
          exact fresh
      | some vc =>
          rcases tracked.camera vc screen with ⟨handlers, rfl⟩
          have next := free running _ screen
          rw [listedTakes_numbered] at next
          exact fresh.finishTake screen asset ((next_url_new_iff _ _ _).mpr next)
  | nextBtnAction random insertions =>
      change Fresh (app.nextBtnAction random insertions).1
      cases screen : app.camera with
      | none =>
          rw [nextBtnAction_of_none screen]
          exact fresh
      | some vc =>
          rw [nextBtnAction_of_some screen]
          exact fresh.openEditor true _ random insertions
  | continueEditing random insertions =>
      rcases tracked.restored running with ⟨array, listed⟩
      change Fresh (app.continueEditing fileManager random insertions).1
      rw [continueEditing_of_some fileManager listed]
      exact fresh.openEditor false array random insertions
  | exportFinished index completed asset =>
      change Fresh (app.exportFinished index completed asset).1
      rcases app.exportFinished_cases index completed asset with
        ⟨_, exports, _, finished⟩ | ⟨pending, finishes, finished⟩ <;> rw [finished]
      · exact fresh.sameClips (fun _ => rfl) (Or.inl rfl) rfl
      · rcases tracked.exports pending (List.mem_of_getElem? finishes.1) with ⟨random, output⟩
        refine fresh.sameClips ?_ (Or.inl rfl) rfl
        change SameClips app.documents (createFile app.documents pending.exporter.outputURL _)
        rw [output]
        exact sameClips_createFile app.documents _ (by simp)
  | filterBegin seconds asset =>
      exact fresh.sameClips (sameClips_createFile app.documents _ (by simp)) (Or.inl rfl) rfl

/-! ## The chosen names -/

/-- Building the composition raises no exception for an editor that exports. -/
theorem editorExports_iff (app : App) (insertions : Insertions) (videosArray : List NSURL) :
    EditorExports app videosArray ↔ app.manager.hasCombined = false ∧ Exists fun mixComposition =>
      composition insertions (videosArray.map (assetAt app.documents)) = .ok mixComposition := by
  unfold EditorExports composition
  rw [← isOk_iff, compositionLoop_isOk_iff, List.forall_mem_map]

/-- An editor's output is new exactly if it draws no existing number. -/
theorem namesNoFile_openEditor_iff (app : App) (fromCamera : Bool) (videosArray : List NSURL)
    (random : Fin 1000) (insertions : Insertions) :
    (forall fact, fact ∈ (app.openEditor fromCamera videosArray random insertions).2 ->
        NamesNoFile fact) ↔
      (EditorExports app videosArray -> ¬ HasMerge app.documents random) := by
  rw [editorExports_iff app insertions]
  rcases app.openEditor_cases fromCamera videosArray random insertions with
    ⟨combined, opened⟩ | ⟨_, ⟨exception, raised⟩, opened⟩ | ⟨separate, mixComposition, built, opened⟩ <;>
    rw [opened]
  · refine iff_of_true (fun fact member => ?_) fun exports => ?_
    · cases fromCamera with
      | false => cases member
      | true =>
          rw [List.mem_singleton.mp member]
          exact trivial
    · rw [exports.1] at combined
      cases combined
  · refine iff_of_true (fun fact impossible => by cases impossible) ?_
    rintro ⟨_, mixComposition, built⟩
    rw [raised] at built
    cases built
  · rw [List.forall_mem_singleton]
    exact ⟨fun new _ => new, fun new => new ⟨separate, mixComposition, built⟩⟩

/-- Whatever an event reports without choosing a name is acceptable. -/
theorem namesNoFile_of_silent {app : App} {event : AppEvent}
    (silent : forall url documents, ¬ Reports event (.outputURL url documents)) :
    forall fact, fact ∈ (app.perform fileManager event).2 -> NamesNoFile fact := by
  intro fact member
  cases fact with
  | outputURL url documents =>
      exact absurd (reports_perform fileManager member) (silent url documents)
  | _ => exact trivial

/-- The names chosen in a step of a running process are new exactly if the
step finds its numbers free. -/
theorem namesNoFile_perform_iff {app : App} (tracked : Tracked app) (running : app.running = true)
    (event : AppEvent) :
    (forall fact, fact ∈ (app.perform fileManager event).2 -> NamesNoFile fact) ↔
      NumbersFree app event := by
  cases event with
  | openCamera =>
      change (forall fact, fact ∈ [AppFact.outputURL [liveMovied 0] app.documents] -> _) ↔ _
      rw [List.forall_mem_singleton]
      exact ⟨fun new _ => new, fun free => free running⟩
  | finishTake asset =>
      change (forall fact, fact ∈ (app.finishTake asset).2 -> _) ↔ _
      cases screen : app.camera with
      | none =>
          rw [finishTake_of_none screen]
          refine iff_of_true (fun fact impossible => by cases impossible) fun _ vc impossible => ?_
          rw [screen] at impossible
          cases impossible
      | some vc =>
          rcases tracked.camera vc screen with ⟨handlers, rfl⟩
          rw [finishTake_numbered screen, List.forall_mem_singleton]
          refine (next_url_new_iff app.documents handlers (.clip asset)).trans ⟨?_, ?_⟩
          · rintro free _ vc same
            rw [screen] at same
            cases same
            rw [listedTakes_numbered]
            exact free
          · intro free
            have next := free running _ screen
            rwa [listedTakes_numbered] at next
  | nextBtnAction random insertions =>
      change (forall fact, fact ∈ (app.nextBtnAction random insertions).2 -> _) ↔ _
      cases screen : app.camera with
      | none =>
          rw [nextBtnAction_of_none screen]
          refine iff_of_true (fun fact impossible => by cases impossible) fun _ vc impossible => ?_
          rw [screen] at impossible
          cases impossible
      | some vc =>
          rw [nextBtnAction_of_some screen, namesNoFile_openEditor_iff]
          constructor
          · rintro free _ other same
            rw [screen] at same
            cases same
            exact free
          · exact fun free => free running vc screen
  | continueEditing random insertions =>
      rcases tracked.restored running with ⟨array, listed⟩
      change (forall fact, fact ∈ (app.continueEditing fileManager random insertions).2 -> _) ↔ _
      rw [continueEditing_of_some fileManager listed, namesNoFile_openEditor_iff]
      unfold NumbersFree
      rw [listed]
      exact ⟨fun free _ => free, fun free => free running⟩
  | _ =>
      refine iff_of_true ?_ trivial
      exact namesNoFile_of_silent fileManager fun url documents => id

/-- The names of a step are new exactly if it finds its numbers free. -/
theorem emits_namesNoFile_iff {app : App} (tracked : Tracked app) (event : AppEvent) :
    (system fileManager).Emits NamesNoFile app event ↔ NumbersFree app event := by
  cases running : app.running with
  | true =>
      rw [EventSystem.emits_iff_of_eq _ (emits_of_running fileManager running event)]
      exact namesNoFile_perform_iff fileManager tracked running event
  | false =>
      have idle : NumbersFree app event := by
        have stopped : app.running ≠ true := by
          rw [running]
          exact Bool.false_ne_true
        cases event <;> first | exact trivial | exact fun impossible => absurd impossible stopped
      rcases launch_or_rest fileManager running event with ⟨work, rfl⟩ | ⟨_, silent⟩
      · rw [EventSystem.emits_iff_of_eq _ (emits_launch fileManager app work), launch_eq,
          List.forall_mem_singleton]
        exact iff_of_true trivial idle
      · rw [EventSystem.emits_iff_of_eq _ silent]
        exact iff_of_true (fun fact impossible => by cases impossible) idle

/-- A step that finds its numbers free keeps the takes apart. -/
theorem Fresh.next {app : App} (tracked : Tracked app) (fresh : Fresh app) {event : AppEvent}
    (free : NumbersFree app event) : Fresh ((system fileManager).next app event) := by
  apply next_induction fileManager event fresh
  · intro work _
    rw [launch_eq]
    exact fresh.sameClips (sameClips_database work app.documents) (Or.inr rfl) rfl
  · intro running
    exact fresh.perform fileManager tracked running free

/-- For all Documents and all runs of the app, every chosen name is new and
the takes whose files exist have different URLs after every step exactly if
every step finds its numbers free. -/
theorem output_names_new (documents : Documents) (events : List AppEvent) :
    (system fileManager).Along
        (fun app event => (system fileManager).Emits NamesNoFile app event ∧
          ((system fileManager).next app event).takes.Nodup)
        (installed documents) events ↔
      (system fileManager).Along NumbersFree (installed documents) events := by
  have start : Fresh (installed documents) := by
    refine ⟨fun handlers impossible => ?_, fun url impossible => ?_, List.nodup_nil⟩ <;>
      cases impossible
  refine ((system fileManager).along_iff_of_invariant (fun app => Tracked app ∧ Fresh app) ?_ ?_
    ⟨tracked_installed documents, start⟩ events).symm
  · intro app event holds free
    exact ⟨holds.1.next fileManager event, holds.2.next fileManager holds.1 free⟩
  · intro app event holds
    have names := emits_namesNoFile_iff fileManager holds.1 event
    constructor
    · intro free
      exact ⟨names.mpr free, (holds.2.next fileManager holds.1 free).distinct⟩
    · intro new
      exact names.mp new.1

/-- A second camera screen chooses the name of the first screen's take. -/
theorem second_screen_repeats_name :
    ¬ (system .inEntryOrder).Along ((system .inEntryOrder).Emits NamesNoFile)
      (installed FileTree.empty)
      [.launch ⟨[], "2018", true⟩, .openCamera, .finishTake ⟨1, 5, 1, 1⟩, .openCamera] := by
  rintro ⟨_, _, _, last, _⟩
  simp only [next_launch, launch_eq] at last
  rw [EventSystem.Emits, emits_of_running _ rfl] at last
  have new : [liveMovied 0] ∉ _ := last _ List.mem_cons_self
  exact new (by decide +kernel)

end App
end GPUDemo
end HowBigDemo
