import HowBigDemo.Library.EventSystem
import HowBigDemo.GPUDemo.VideoManagerCenter

namespace HowBigDemo
namespace GPUDemo

open Library

/-!
# First use of the shared manager

The getter of `videoPathArray` restores when there is no list yet, and
`restoreLocalVideo` asks the getter for the list that it fills.  So the first
explicit restore runs a complete restore inside, clears the list and fills it
again.  The methods are followed here over any sequence of calls on a fresh
manager, each with the Documents directory as it is at that time.
-/

/-- The two methods that call each other. -/
inductive ManagerCall
  | videoPathArray
  | restoreLocalVideo
  deriving DecidableEq

/-- A call, with the directory at that time. -/
structure Access where
  call : ManagerCall
  documents : Documents

/-- What a call returns. -/
inductive Returned
  | array (array : List NSURL)
  | bool (restored : Bool)
  deriving DecidableEq

/-- An explicit restore. -/
def Access.isRestore (access : Access) : Bool :=
  decide (access.call = .restoreLocalVideo)

/-- The calls on a manager, each of which lists the directory if it restores. -/
def managerSystem (fileManager : NSFileManager) : EventSystem VideoManagerCenter Access Returned where
  step manager access :=
    let files := fileManager.subpathsAtPath access.documents
    match access.call with
    | .videoPathArray =>
      let accessed := manager.videoPathArray files
      (accessed.1, [.array accessed.2])
    | .restoreLocalVideo =>
      let restoring := manager.restoreLocalVideo files
      (restoring.1, [.bool restoring.2])

/-- A fresh manager after some calls. -/
def managerAfter (fileManager : NSFileManager) (accesses : List Access) : VideoManagerCenter :=
  (managerSystem fileManager).run VideoManagerCenter.shareInstance accesses

/-- The call during which `restoreLocalVideo` ran last: the last explicit one,
or else the first access, which restores inside the getter. -/
def latestRestore (accesses : List Access) : Option Access :=
  (accesses.filter Access.isRestore).getLast?.or accesses.head?

/-- Calls while the directory does not change. -/
def callsOn (documents : Documents) (calls : List ManagerCall) : List Access :=
  calls.map fun call => ⟨call, documents⟩

/-- The name of the file contains `FinalVideo`. -/
def NamesFinalVideo (path : EntryPath) : Prop :=
  containsString (fileName path) "FinalVideo" = true

/-- The last path of the listing whose name contains `FinalVideo`. -/
def IsLastFinalVideo (files : List EntryPath) (path : EntryPath) : Prop :=
  Exists fun before => Exists fun after =>
    files = before ++ path :: after ∧ NamesFinalVideo path ∧
      forall other, other ∈ after -> ¬ NamesFinalVideo other

/-- What the two methods promise of a fresh manager. -/
structure RestoresLazily (fileManager : NSFileManager) : Prop where
  /-- After each call the list holds the files of the latest restore in the
  order of its listing, each once. -/
  holdsLatest : forall accesses access,
    Exists fun latest => latestRestore (accesses ++ [access]) = some latest ∧
      (managerAfter fileManager (accesses ++ [access]))._videoPathArray =
        some (fileManager.subpathsAtPath latest.documents) ∧
      (fileManager.subpathsAtPath latest.documents).Nodup
  /-- The getter returns that list. -/
  returnsLatest : forall accesses documents,
    Exists fun latest => latestRestore (accesses ++ [⟨.videoPathArray, documents⟩]) = some latest ∧
      (managerSystem fileManager).emits (managerAfter fileManager accesses)
        ⟨.videoPathArray, documents⟩ = [.array (fileManager.subpathsAtPath latest.documents)]
  /-- While the directory does not change, neither the first method used nor
  later calls make a difference. -/
  sameState : forall documents first second calls others,
    managerAfter fileManager (callsOn documents (first :: calls)) =
      managerAfter fileManager (callsOn documents (second :: others))
  combined : forall documents first calls,
    (managerAfter fileManager (callsOn documents (first :: calls))).hasCombined = true ↔
      Exists fun path => path ∈ fileManager.subpathsAtPath documents ∧ NamesFinalVideo path
  mergeFile : forall documents first calls path,
    (managerAfter fileManager (callsOn documents (first :: calls))).mergeFilePath = some path ↔
      IsLastFinalVideo (fileManager.subpathsAtPath documents) path
  noMergeFile : forall documents first calls,
    (managerAfter fileManager (callsOn documents (first :: calls))).mergeFilePath = none ↔
      forall path, path ∈ fileManager.subpathsAtPath documents -> ¬ NamesFinalVideo path

/-! ## One call -/

/-- The list after a call: a restore replaces it, and the getter only makes
one where there is none. -/
theorem next_videoPathArray (fileManager : NSFileManager) (manager : VideoManagerCenter)
    (access : Access) :
    ((managerSystem fileManager).next manager access)._videoPathArray =
      if access.isRestore then some (fileManager.subpathsAtPath access.documents)
      else manager._videoPathArray.or (some (fileManager.subpathsAtPath access.documents)) := by
  rcases access with ⟨call, documents⟩
  cases call with
  | restoreLocalVideo =>
      change (manager.restoreLocalVideo _).1._videoPathArray = _
      rw [VideoManagerCenter.restoreLocalVideo_eq]
      rfl
  | videoPathArray =>
      change (manager.videoPathArray _).1._videoPathArray = _
      cases found : manager._videoPathArray with
      | none =>
          rw [VideoManagerCenter.videoPathArray_of_none _ found]
          rfl
      | some array =>
          rw [VideoManagerCenter.videoPathArray_of_some _ found]
          exact found

/-- The list after some calls, from any state. -/
theorem run_videoPathArray (fileManager : NSFileManager) (manager : VideoManagerCenter)
    (accesses : List Access) :
    ((managerSystem fileManager).run manager accesses)._videoPathArray =
      (((accesses.filter Access.isRestore).getLast?.map fun access =>
        fileManager.subpathsAtPath access.documents).or manager._videoPathArray).or
          (accesses.head?.map fun access => fileManager.subpathsAtPath access.documents) := by
  induction accesses generalizing manager with
  | nil => exact (Option.or_none).symm
  | cons access rest inductionHypothesis =>
      rw [EventSystem.run_cons, inductionHypothesis, next_videoPathArray]
      cases explicit : access.isRestore with
      | true =>
          rw [List.filter_cons_of_pos explicit, List.getLast?_cons, if_pos rfl]
          cases (rest.filter Access.isRestore).getLast? <;> rfl
      | false =>
          rw [List.filter_cons_of_neg (by rw [explicit]; exact Bool.false_ne_true),
            if_neg Bool.false_ne_true, List.head?_cons]
          cases (rest.filter Access.isRestore).getLast? with
          | some last => rfl
          | none => cases manager._videoPathArray <;> rfl

/-- A fresh manager holds the listing of the latest restore. -/
theorem managerAfter_videoPathArray (fileManager : NSFileManager) (accesses : List Access) :
    (managerAfter fileManager accesses)._videoPathArray =
      (latestRestore accesses).map fun access => fileManager.subpathsAtPath access.documents := by
  rw [managerAfter, run_videoPathArray, latestRestore, Option.map_or]
  exact congrArg (Option.or · _) Option.or_none

theorem latestRestore_concat (accesses : List Access) (access : Access) :
    Exists fun latest => latestRestore (accesses ++ [access]) = some latest := by
  apply Option.isSome_iff_exists.mp
  rw [latestRestore, Option.isSome_or]
  cases accesses <;> exact Bool.or_true _

theorem subpathsAtPath_nodup (fileManager : NSFileManager) (documents : Documents) :
    (fileManager.subpathsAtPath documents).Nodup :=
  (fileManager.lists documents).nodup_iff.mpr documents.unique

/-! ## The state while the directory does not change -/

open VideoManagerCenter in
/-- Both methods take a manager without a list to the restored state, and keep
the restored state. -/
theorem next_of_restoring (fileManager : NSFileManager) (call : ManagerCall)
    (documents : Documents) {manager : VideoManagerCenter}
    (state : manager = shareInstance ∨
      manager = restored (fileManager.subpathsAtPath documents) shareInstance) :
    (managerSystem fileManager).next manager ⟨call, documents⟩ =
      restored (fileManager.subpathsAtPath documents) shareInstance := by
  cases call with
  | restoreLocalVideo =>
      change (manager.restoreLocalVideo _).1 = _
      rw [restoreLocalVideo_eq]
      rcases state with rfl | rfl
      · rfl
      · exact restored_restored _ _
  | videoPathArray =>
      change (manager.videoPathArray _).1 = _
      rcases state with rfl | rfl
      · rw [videoPathArray_of_none _ rfl]
      · rw [videoPathArray_of_some _ rfl]

open VideoManagerCenter in
theorem managerAfter_callsOn (fileManager : NSFileManager) (documents : Documents)
    (first : ManagerCall) (calls : List ManagerCall) :
    managerAfter fileManager (callsOn documents (first :: calls)) =
      restored (fileManager.subpathsAtPath documents) shareInstance := by
  have afterFirst := next_of_restoring fileManager first documents (Or.inl rfl)
  change (managerSystem fileManager).run ((managerSystem fileManager).next shareInstance
    ⟨first, documents⟩) (callsOn documents calls) = _
  rw [afterFirst]
  induction calls with
  | nil => rfl
  | cons call rest inductionHypothesis =>
      have afterCall := next_of_restoring fileManager call documents (Or.inr rfl)
      change (managerSystem fileManager).run ((managerSystem fileManager).next _ ⟨call, documents⟩)
        (callsOn documents rest) = _
      rw [afterCall]
      exact inductionHypothesis

theorem any_namesMerge_iff (files : List EntryPath) :
    files.any VideoManagerCenter.namesMerge = true ↔
      Exists fun path => path ∈ files ∧ NamesFinalVideo path :=
  List.any_eq_true

open VideoManagerCenter in
theorem lastMerge_eq_none_iff (files : List EntryPath) :
    lastMerge files = none ↔ forall path, path ∈ files -> ¬ NamesFinalVideo path := by
  have someMerge := lastMerge_isSome_iff files
  constructor
  · intro absent path listed named
    rw [absent, (any_namesMerge_iff files).mpr ⟨path, listed, named⟩] at someMerge
    cases someMerge
  · intro noneNamed
    cases found : lastMerge files with
    | none => rfl
    | some path =>
        have parts := lastMerge_eq_some found
        exact absurd parts.2 (noneNamed path parts.1)

open VideoManagerCenter in
/-- `lastMerge` finds the last path whose name contains `FinalVideo`. -/
theorem lastMerge_eq_some_iff (files : List EntryPath) (path : EntryPath) :
    lastMerge files = some path ↔ IsLastFinalVideo files path := by
  induction files with
  | nil =>
      constructor
      · intro impossible
        cases impossible
      · rintro ⟨before, after, same, _⟩
        cases before <;> cases same
  | cons first rest inductionHypothesis =>
      rw [lastMerge_cons]
      constructor
      · intro found
        cases later : lastMerge rest with
        | some last =>
            rw [later] at found
            rcases inductionHypothesis.mp (later.trans found) with ⟨before, after, same, parts⟩
            exact ⟨first :: before, after, congrArg (List.cons first) same, parts⟩
        | none =>
            rw [later, Option.none_or] at found
            by_cases named : namesMerge first = true
            · rw [if_pos named] at found
              cases found
              exact ⟨[], rest, rfl, named, (lastMerge_eq_none_iff rest).mp later⟩
            · rw [if_neg named] at found
              cases found
      · rintro ⟨before, after, same, named, noneAfter⟩
        cases before with
        | nil =>
            cases same
            rw [(lastMerge_eq_none_iff rest).mpr noneAfter, Option.none_or]
            exact if_pos named
        | cons head before =>
            cases same
            rw [inductionHypothesis.mpr ⟨before, after, rfl, named, noneAfter⟩]
            rfl

/-- Every fresh manager restores lazily, whatever is called when. -/
theorem restoresLazily (fileManager : NSFileManager) : RestoresLazily fileManager := by
  have holds (accesses : List Access) (access : Access) :
      Exists fun latest => latestRestore (accesses ++ [access]) = some latest ∧
        (managerAfter fileManager (accesses ++ [access]))._videoPathArray =
          some (fileManager.subpathsAtPath latest.documents) := by
    rcases latestRestore_concat accesses access with ⟨latest, isLatest⟩
    refine ⟨latest, isLatest, ?_⟩
    rw [managerAfter_videoPathArray, isLatest]
    rfl
  constructor
  · intro accesses access
    rcases holds accesses access with ⟨latest, isLatest, array⟩
    exact ⟨latest, isLatest, array, subpathsAtPath_nodup fileManager latest.documents⟩
  · intro accesses documents
    rcases holds accesses ⟨.videoPathArray, documents⟩ with ⟨latest, isLatest, array⟩
    refine ⟨latest, isLatest, ?_⟩
    have listed := VideoManagerCenter.videoPathArray_listed (fileManager.subpathsAtPath documents)
      (managerAfter fileManager accesses)
    rw [managerAfter, EventSystem.run_concat] at array
    change [Returned.array ((managerAfter fileManager accesses).videoPathArray _).2] = _
    exact congrArg (fun files => [Returned.array files]) (Option.some.inj (listed.symm.trans array))
  · intro documents first second calls others
    rw [managerAfter_callsOn, managerAfter_callsOn]
  · intro documents first calls
    rw [managerAfter_callsOn]
    exact any_namesMerge_iff _
  · intro documents first calls path
    rw [managerAfter_callsOn]
    change (VideoManagerCenter.lastMerge _).or none = some path ↔ _
    rw [Option.or_none]
    exact lastMerge_eq_some_iff _ path
  · intro documents first calls
    rw [managerAfter_callsOn]
    change (VideoManagerCenter.lastMerge _).or none = none ↔ _
    rw [Option.or_none]
    exact lastMerge_eq_none_iff _

end GPUDemo
end HowBigDemo
