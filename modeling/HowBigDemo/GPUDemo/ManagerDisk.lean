import HowBigDemo.Library.EventSystem
import HowBigDemo.GPUDemo.LazyRestore

namespace HowBigDemo
namespace GPUDemo

open Library
open VideoManagerCenter

/-!
# The manager and the disk

The manager agrees with the disk when every listed URL exists, the flag says
whether there is a merged file, and the merged file's URL is set with the
flag and names a listed merged file.  No operation always establishes this.
The first access and a restore look at whole paths, so that a directory, or
a file inside one, may pass for a merged file.  Restoring never resets the
flag, clearing keeps the list of what it has deleted, and a finished merge
is not noted.

`agrees_iff` gives for each operation the states in which it leaves
agreement behind, and carries that to every run.
-/

/-- The shared manager and the Documents directory. -/
structure ManagedDocuments where
  documents : Documents
  manager : VideoManagerCenter

/-- An operation on the manager.  A restore comes with the Documents that it
finds, in which files may have appeared or disappeared. -/
inductive ManagerEvent
  | videoPathArray
  | restoreLocalVideo (found : Documents)
  | clearLocalVideos (failing : List NSURL)
  | compressionSession (insertions : Insertions) (random : Fin 1000) (fileURLs : List NSURL)
      (asset : AVURLAsset)

namespace ManagedDocuments

variable (fileManager : NSFileManager)

def system : EventSystem ManagedDocuments ManagerEvent Unit where
  step state event :=
    match event with
    | .videoPathArray =>
        let files := fileManager.subpathsAtPath state.documents
        ({ state with manager := (state.manager.videoPathArray files).1 }, [])
    | .restoreLocalVideo found =>
        let files := fileManager.subpathsAtPath found
        (⟨found, (state.manager.restoreLocalVideo files).1⟩, [])
    | .clearLocalVideos failing =>
        let files := fileManager.subpathsAtPath state.documents
        let cleared := clearLocalVideos files failing state.documents state.manager
        (⟨cleared.1, cleared.2⟩, [])
    | .compressionSession insertions random fileURLs asset =>
        match compressionSession insertions random state.documents fileURLs with
        | .ok exporter =>
            ({ state with documents := finishExport state.documents exporter asset }, [])
        | .error _ => (state, [])

/-- A file whose own name contains `FinalVideo`. -/
def IsMergedFile (documents : Documents) (path : NSURL) : Prop :=
  (Exists fun content => documents.lookup path = some (.file content)) ∧
    Exists fun name => path.getLast? = some name ∧ containsString name "FinalVideo" = true

/-- Documents has a merged file. -/
def HasMerge (documents : Documents) : Prop :=
  Exists fun path => IsMergedFile documents path

/-- In the listing of Documents, the last path that contains `FinalVideo`, if
any does, is the path of a merged file. -/
def LastMergeIsFile (documents : Documents) : Prop :=
  forall path, IsLastFinalVideo (fileManager.subpathsAtPath documents) path ->
    IsMergedFile documents path

/-- The manager's three fields agree with the disk. -/
structure Agrees (state : ManagedDocuments) : Prop where
  listed : forall array, state.manager._videoPathArray = some array ->
    forall url, url ∈ array -> url ∈ state.documents.paths
  flag : state.manager.hasCombined = true ↔ HasMerge state.documents
  mergeFile : state.manager.mergeFilePath.isSome = state.manager.hasCombined
  merged : forall url, state.manager.mergeFilePath = some url ->
    IsMergedFile state.documents url ∧
      Exists fun array => state.manager._videoPathArray = some array ∧ url ∈ array

/-- The export completes: the composition can be built and its output is new. -/
def Completes (insertions : Insertions) (random : Fin 1000) (documents : Documents)
    (fileURLs : List NSURL) : Prop :=
  (Exists fun exporter => compressionSession insertions random documents fileURLs = .ok exporter) ∧
    [finalVideo random] ∉ documents.paths

/-- A merge counts as an operation when its export completes. -/
def IsOperation (state : ManagedDocuments) : ManagerEvent -> Prop
  | .compressionSession insertions random fileURLs _ =>
      Completes insertions random state.documents fileURLs
  | _ => True

/-- The operation leaves a manager that agrees with the disk. -/
def AgreesAfter (state : ManagedDocuments) (event : ManagerEvent) : Prop :=
  IsOperation state event -> Agrees ((system fileManager).next state event)

/-- What each operation needs.  What restores needs a listing that ends its
merged paths with a merged file, and a merged file if the flag is set.  A
clear needs that there is nothing to delete or reset, and a merge needs that
the flag is already set. -/
def KeepsAgreement (state : ManagedDocuments) : ManagerEvent -> Prop
  | .videoPathArray => state.manager._videoPathArray = none ->
      LastMergeIsFile fileManager state.documents
  | .restoreLocalVideo found => LastMergeIsFile fileManager found ∧
      (state.manager.hasCombined = true -> HasMerge found)
  | .clearLocalVideos failing =>
      (forall url,
        url ∈ (state.manager.videoPathArray (fileManager.subpathsAtPath state.documents)).2 ->
          url ∈ failing) ∧ ¬ HasMerge state.documents
  | .compressionSession insertions random fileURLs _ =>
      Completes insertions random state.documents fileURLs -> state.manager.hasCombined = true

/-- The state of a new manager or one that agrees with the disk. -/
def Reached (state : ManagedDocuments) : Prop :=
  state.manager = shareInstance ∨ Agrees state

/-! ## One operation -/

/-- The whole path of a merged file passes the test of the manager. -/
theorem IsMergedFile.namesMerge {documents : Documents} {path : NSURL}
    (merged : IsMergedFile documents path) : namesMerge path = true := by
  rcases merged.2 with ⟨name, last, contains⟩
  rcases List.getLast?_eq_some_iff.mp last with ⟨parents, rfl⟩
  apply decide_eq_true
  refine (of_decide_eq_true contains).trans ?_
  unfold fileName
  cases parents with
  | nil => exact List.infix_refl _
  | cons parent rest =>
      rw [String.intercalate_append_of_ne_nil (List.cons_ne_nil _ _) (List.cons_ne_nil _ _),
        String.intercalate_singleton, String.toList_append]
      exact (List.suffix_append _ _).isInfix

theorem IsMergedFile.mem_paths {documents : Documents} {path : NSURL}
    (merged : IsMergedFile documents path) : path ∈ documents.paths := by
  rcases merged.1 with ⟨content, found⟩
  exact FileTree.mem_paths_of_lookup found

theorem any_namesMerge_of_hasMerge {documents : Documents} (hasMerge : HasMerge documents) :
    (fileManager.subpathsAtPath documents).any namesMerge = true := by
  rcases hasMerge with ⟨path, merged⟩
  exact List.any_eq_true.mpr ⟨path, fileManager.mem_subpathsAtPath_iff.mpr merged.mem_paths,
    merged.namesMerge⟩

/-- Restoring agrees with the disk unless an old flag outlives its file or the
last merged path is not that of a merged file. -/
theorem agrees_restored_iff {manager : VideoManagerCenter} (documents : Documents)
    (coupled : manager.mergeFilePath.isSome = manager.hasCombined) :
    Agrees ⟨documents, restored (fileManager.subpathsAtPath documents) manager⟩ ↔
      LastMergeIsFile fileManager documents ∧ (manager.hasCombined = true -> HasMerge documents) := by
  have someMerge := lastMerge_isSome_iff (fileManager.subpathsAtPath documents)
  constructor
  · intro agrees
    constructor
    · intro path isLast
      have last := (lastMerge_eq_some_iff _ path).mpr isLast
      refine (agrees.merged path ?_).1
      change (lastMerge _).or manager.mergeFilePath = some path
      rw [last, Option.some_or]
    · intro old
      apply agrees.flag.mp
      change (manager.hasCombined || _) = true
      rw [old, Bool.true_or]
  · rintro ⟨lastIsFile, still⟩
    have mergedOfLast : forall {filePath}, lastMerge (fileManager.subpathsAtPath documents) =
        some filePath -> IsMergedFile documents filePath := fun last =>
      lastIsFile _ ((lastMerge_eq_some_iff _ _).mp last)
    refine ⟨?_, ?_, ?_, ?_⟩
    · intro array same url member
      cases same
      exact fileManager.mem_subpathsAtPath_iff.mp member
    · change (manager.hasCombined || _) = true ↔ _
      rw [Bool.or_eq_true]
      constructor
      · rintro (old | named)
        · exact still old
        · rw [named] at someMerge
          rcases Option.isSome_iff_exists.mp someMerge with ⟨filePath, last⟩
          exact ⟨filePath, mergedOfLast last⟩
      · intro hasMerge
        exact Or.inr (any_namesMerge_of_hasMerge fileManager hasMerge)
    · change ((lastMerge _).or manager.mergeFilePath).isSome = (manager.hasCombined || _)
      rw [Option.isSome_or, someMerge, coupled, Bool.or_comm]
    · intro url same
      change (lastMerge _).or manager.mergeFilePath = some url at same
      cases last : lastMerge (fileManager.subpathsAtPath documents) with
      | some filePath =>
          rw [last, Option.some_or] at same
          cases same
          have member := (lastMerge_eq_some last).1
          exact ⟨mergedOfLast last, _, rfl, member⟩
      | none =>
          rw [last, Option.isSome_none] at someMerge
          rw [last, Option.none_or] at same
          rw [same, Option.isSome_some] at coupled
          rw [any_namesMerge_of_hasMerge fileManager (still coupled.symm)] at someMerge
          cases someMerge

theorem Reached.coupled {state : ManagedDocuments} (reached : Reached state) :
    state.manager.mergeFilePath.isSome = state.manager.hasCombined := by
  rcases reached with new | agrees
  · rw [new]
    rfl
  · exact agrees.mergeFile

/-- Without a list there is no merged file in the manager. -/
theorem Reached.hasCombined_of_none {state : ManagedDocuments} (reached : Reached state)
    (missing : state.manager._videoPathArray = none) : state.manager.hasCombined = false := by
  rcases reached with new | agrees
  · rw [new]
    rfl
  · cases merged : state.manager.mergeFilePath with
    | none =>
        rw [← agrees.mergeFile, merged]
        rfl
    | some url =>
        rcases (agrees.merged url merged).2 with ⟨array, found, _⟩
        rw [missing] at found
        cases found

/-- The getter returns only URLs that exist. -/
theorem Reached.mem_paths {state : ManagedDocuments} (reached : Reached state) {url : NSURL}
    (member : url ∈
      (state.manager.videoPathArray (fileManager.subpathsAtPath state.documents)).2) :
    url ∈ state.documents.paths := by
  cases found : state.manager._videoPathArray with
  | none =>
      rw [videoPathArray_of_none _ found] at member
      exact fileManager.mem_subpathsAtPath_iff.mp member
  | some array =>
      rw [videoPathArray_of_some _ found] at member
      rcases reached with new | agrees
      · rw [new] at found
        cases found
      · exact agrees.listed array found url member

/-- The first access agrees with the disk if the last merged path does. -/
theorem Reached.agrees_videoPathArray_iff {state : ManagedDocuments} (reached : Reached state) :
    Agrees ((system fileManager).next state .videoPathArray) ↔
      KeepsAgreement fileManager state .videoPathArray := by
  change Agrees ⟨state.documents, (state.manager.videoPathArray _).1⟩ ↔
    (state.manager._videoPathArray = none -> _)
  cases found : state.manager._videoPathArray with
  | none =>
      rw [videoPathArray_of_none _ found, agrees_restored_iff fileManager state.documents reached.coupled,
        reached.hasCombined_of_none found]
      exact ⟨fun parts _ => parts.1, fun lastIsFile => ⟨lastIsFile rfl, nofun⟩⟩
  | some array =>
      rw [videoPathArray_of_some _ found]
      rcases reached with new | agrees
      · rw [new] at found
        cases found
      · exact iff_of_true agrees nofun

/-- After a clear the list agrees with the disk exactly if nothing was
deleted, and the flag exactly if there was no merged file. -/
theorem Reached.agrees_clearLocalVideos_iff {state : ManagedDocuments} (reached : Reached state)
    (failing : List NSURL) :
    Agrees ((system fileManager).next state (.clearLocalVideos failing)) ↔
      KeepsAgreement fileManager state (.clearLocalVideos failing) := by
  have listed := videoPathArray_listed (fileManager.subpathsAtPath state.documents) state.manager
  constructor
  · intro agrees
    have all : forall url,
        url ∈ (state.manager.videoPathArray (fileManager.subpathsAtPath state.documents)).2 ->
          url ∈ failing := by
      intro url member
      by_cases fails : url ∈ failing
      · exact fails
      · exact absurd (agrees.listed _ listed url member) (not_mem_removeItems member fails)
    refine ⟨all, fun hasMerge => ?_⟩
    have kept : removeItems failing state.documents _ = state.documents :=
      removeItems_of_all_failing state.documents all
    have flag := agrees.flag
    change false = true ↔ HasMerge (removeItems failing state.documents _) at flag
    rw [kept] at flag
    exact absurd (flag.mpr hasMerge) Bool.false_ne_true
  · rintro ⟨all, noMerge⟩
    have kept : removeItems failing state.documents _ = state.documents :=
      removeItems_of_all_failing state.documents all
    refine ⟨?_, ?_, rfl, ?_⟩
    · intro array found url member
      change url ∈ (removeItems failing state.documents _).paths
      rw [kept]
      have same : some _ = some array := listed.symm.trans found
      cases same
      exact reached.mem_paths fileManager member
    · change false = true ↔ HasMerge (removeItems failing state.documents _)
      rw [kept]
      exact ⟨fun impossible => absurd impossible Bool.false_ne_true, fun hasMerge =>
        absurd hasMerge noMerge⟩
    · intro url impossible
      cases impossible

theorem next_compressionSession {state : ManagedDocuments} {insertions : Insertions}
    {random : Fin 1000} {fileURLs : List NSURL} {asset : AVURLAsset}
    {exporter : AVAssetExportSession}
    (ok : compressionSession insertions random state.documents fileURLs = .ok exporter) :
    (system fileManager).next state (.compressionSession insertions random fileURLs asset) =
      { state with
        documents := state.documents.create (finalVideo random) (.merge exporter.asset asset) } := by
  simp only [EventSystem.next, system, ok, finishExport, compressionSession_outputURL ok, createFile]

/-- A completed merge is on the disk, but only a flag that was set before
says so. -/
theorem Reached.agreesAfter_compressionSession_iff {state : ManagedDocuments}
    (reached : Reached state) (insertions : Insertions) (random : Fin 1000)
    (fileURLs : List NSURL) (asset : AVURLAsset) :
    AgreesAfter fileManager state (.compressionSession insertions random fileURLs asset) ↔
      KeepsAgreement fileManager state
        (.compressionSession insertions random fileURLs asset) := by
  constructor
  · intro agrees completes
    have agrees := agrees completes
    rcases completes with ⟨⟨exporter, ok⟩, new⟩
    rw [next_compressionSession fileManager ok] at agrees
    have named : containsString (finalVideo random) "FinalVideo" = true :=
      containsString_finalVideo random
    exact agrees.flag.mpr ⟨[finalVideo random],
      ⟨_, FileTree.lookup_create_self _ new⟩, finalVideo random, rfl, named⟩
  · intro keeps completes
    have flagged := keeps completes
    rcases completes with ⟨⟨exporter, ok⟩, _⟩
    rcases reached with new | agrees
    · rw [new] at flagged
      cases flagged
    rw [next_compressionSession fileManager ok]
    have stays : forall url, url ∈ state.documents.paths ->
        url ∈ (state.documents.create (finalVideo random) (.merge exporter.asset asset)).paths :=
      fun _ member => FileTree.mem_paths_create_of_mem _ member
    have staysMerged : forall path, IsMergedFile state.documents path -> IsMergedFile
        (state.documents.create (finalVideo random) (.merge exporter.asset asset)) path := by
      rintro path ⟨⟨content, present⟩, named⟩
      exact ⟨⟨content, FileTree.lookup_create_of_lookup _ present⟩, named⟩
    rcases agrees.flag.mp flagged with ⟨path, merged⟩
    refine ⟨?_, ⟨fun _ => ⟨path, staysMerged path merged⟩, fun _ => flagged⟩,
      agrees.mergeFile, ?_⟩
    · intro array found url listed
      exact stays url (agrees.listed array found url listed)
    · intro url found
      rcases agrees.merged url found with ⟨merged, listed⟩
      exact ⟨staysMerged url merged, listed⟩

/-- Each operation leaves agreement behind exactly when it gets what it
needs. -/
theorem Reached.agreesAfter_iff {state : ManagedDocuments} (reached : Reached state)
    (event : ManagerEvent) :
    AgreesAfter fileManager state event ↔ KeepsAgreement fileManager state event := by
  cases event with
  | videoPathArray =>
      unfold AgreesAfter
      rw [reached.agrees_videoPathArray_iff fileManager]
      exact forall_prop_of_true trivial
  | restoreLocalVideo found =>
      have next : (system fileManager).next state (.restoreLocalVideo found) =
          ⟨found, restored (fileManager.subpathsAtPath found) state.manager⟩ := by
        simp only [EventSystem.next, system, restoreLocalVideo_eq]
      unfold AgreesAfter
      rw [next, agrees_restored_iff fileManager found reached.coupled]
      exact forall_prop_of_true trivial
  | clearLocalVideos failing =>
      unfold AgreesAfter
      rw [reached.agrees_clearLocalVideos_iff fileManager failing]
      exact forall_prop_of_true trivial
  | compressionSession insertions random fileURLs asset =>
      exact reached.agreesAfter_compressionSession_iff fileManager insertions random fileURLs asset

/-- A merge that is not an operation changes nothing. -/
theorem next_of_not_isOperation {state : ManagedDocuments} {event : ManagerEvent}
    (none : ¬ IsOperation state event) : (system fileManager).next state event = state := by
  cases event with
  | videoPathArray => exact absurd trivial none
  | restoreLocalVideo found => exact absurd trivial none
  | clearLocalVideos failing => exact absurd trivial none
  | compressionSession insertions random fileURLs asset =>
      cases ok : compressionSession insertions random state.documents fileURLs with
      | error exception => simp only [EventSystem.next, system, ok]
      | ok exporter =>
          have taken : [finalVideo random] ∈ state.documents.paths := by
            by_cases new : [finalVideo random] ∈ state.documents.paths
            · exact new
            · exact absurd ⟨⟨exporter, ok⟩, new⟩ none
          rw [next_compressionSession fileManager ok, FileTree.create_of_mem _ taken]

theorem Reached.next {state : ManagedDocuments} (reached : Reached state) {event : ManagerEvent}
    (agrees : AgreesAfter fileManager state event) :
    Reached ((system fileManager).next state event) := by
  by_cases operation : IsOperation state event
  · exact Or.inr (agrees operation)
  · rw [next_of_not_isOperation fileManager operation]
    exact reached

/-- For all initial Documents and all sequences of operations, the manager
agrees with the disk after each operation exactly if each operation gets what
it needs. -/
theorem agrees_iff (documents : Documents) (events : List ManagerEvent) :
    (system fileManager).Along (AgreesAfter fileManager) ⟨documents, shareInstance⟩ events ↔
      (system fileManager).Along (KeepsAgreement fileManager) ⟨documents, shareInstance⟩ events :=
  (system fileManager).along_iff_of_invariant Reached
    (fun _ _ reached agrees => reached.next fileManager agrees)
    (fun _ event reached => reached.agreesAfter_iff fileManager event) (Or.inl rfl) events

/-- A clip on the disk, the first access, and a clear that deletes the clip:
the list still has its URL. -/
theorem clear_keeps_deleted_url :
    ¬ (system .inEntryOrder).Along (AgreesAfter .inEntryOrder)
      ⟨FileTree.empty.create (liveMovied 0) (.clip ⟨0, 1, 1, 1⟩), shareInstance⟩
      [.videoPathArray, .clearLocalVideos []] := by
  rintro ⟨first, second, _⟩
  have reached := Reached.next .inEntryOrder (Or.inl rfl) first
  have keeps := (reached.agreesAfter_iff .inEntryOrder (.clearLocalVideos [])).mp second
  have listed := keeps.1 [liveMovied 0]
  have accessed : (system .inEntryOrder).next
      ⟨FileTree.empty.create (liveMovied 0) (.clip ⟨0, 1, 1, 1⟩), shareInstance⟩ .videoPathArray =
      ⟨FileTree.empty.create (liveMovied 0) (.clip ⟨0, 1, 1, 1⟩),
        restored [[liveMovied 0]] shareInstance⟩ := by
    have missing : shareInstance._videoPathArray = none := rfl
    simp only [EventSystem.next, system, videoPathArray_of_none _ missing]
    rfl
  have found : (restored [[liveMovied 0]] shareInstance)._videoPathArray = some [[liveMovied 0]] :=
    rfl
  rw [accessed, videoPathArray_of_some _ found] at listed
  exact List.not_mem_nil (listed List.mem_cons_self)

end ManagedDocuments
end GPUDemo
end HowBigDemo
