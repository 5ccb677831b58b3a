import HowBigDemo.GPUDemo.Documents

namespace HowBigDemo
namespace GPUDemo

open Library

/-!
# `VideoManagerCenter`

The shared manager keeps a lazily created list of URLs, a flag and the URL
of a merged file.  Its getter restores the list on first access, and
`restoreLocalVideo` itself uses the getter, so the two call each other.  The
definitions below do the same.  `restoreLocalVideo_eq` and
`videoPathArray_eq` give what they compute.

`restoreLocalVideo` lists whatever it finds in Documents, and only ever sets
the flag.  `clearLocalVideos` deletes whatever is listed and resets the flag,
but keeps the list.  A deletion may fail, and which ones do is an argument.
-/

/-- The file manager lists every path below the directory, in an order of
its own. -/
structure NSFileManager where
  subpathsAtPath : Documents -> List EntryPath
  lists : forall documents, (subpathsAtPath documents).Perm documents.paths

/-- A file manager that lists the paths in the order of their creation. -/
def NSFileManager.inEntryOrder : NSFileManager where
  subpathsAtPath := FileTree.paths
  lists := fun _ => List.Perm.refl _

theorem NSFileManager.mem_subpathsAtPath_iff (manager : NSFileManager) {documents : Documents}
    {path : EntryPath} : path ∈ manager.subpathsAtPath documents ↔ path ∈ documents.paths :=
  (manager.lists documents).mem_iff

structure VideoManagerCenter where
  _videoPathArray : Option (List NSURL)
  hasCombined : Bool
  mergeFilePath : Option NSURL
  deriving DecidableEq

namespace VideoManagerCenter

/-- The manager that `shareInstance` makes. -/
def shareInstance : VideoManagerCenter :=
  ⟨none, false, none⟩

/-- `[fileName containsString:@"FinalVideo"]`. -/
def namesMerge (path : EntryPath) : Bool :=
  containsString (fileName path) "FinalVideo"

/-- The test of one listed file. -/
def noteMerge (manager : VideoManagerCenter) (filePath : NSURL) : VideoManagerCenter :=
  if namesMerge filePath then
    { manager with hasCombined := true, mergeFilePath := some filePath }
  else manager

@[simp] theorem noteMerge_videoPathArray (manager : VideoManagerCenter) (filePath : NSURL) :
    (manager.noteMerge filePath)._videoPathArray = manager._videoPathArray := by
  unfold noteMerge
  split <;> rfl

/-- One as long as the list is still to be created. -/
def unset (manager : VideoManagerCenter) : Nat :=
  match manager._videoPathArray with
  | none => 1
  | some _ => 0

/-- A call on a manager with a list decreases whenever the rest of the
measure does. -/
theorem lex_of_set (manager : VideoManagerCenter) {less more : Nat × Nat}
    (decreases : Prod.Lex (· < ·) (· < ·) less more) :
    Prod.Lex (· < ·) (Prod.Lex (· < ·) (· < ·)) (0, less) (manager.unset, more) := by
  rcases Nat.eq_zero_or_pos manager.unset with same | positive
  · rw [same]
    exact Prod.Lex.right 0 decreases
  · exact Prod.Lex.left less more positive

mutual

/-- The getter, with the files that a listing of Documents would return. -/
def videoPathArray (files : List EntryPath) (manager : VideoManagerCenter) :
    VideoManagerCenter × List NSURL :=
  match _found : manager._videoPathArray with
  | some array => (manager, array)
  | none =>
    let restored := (restoreLocalVideo files { manager with _videoPathArray := some [] }).1
    (restored, restored._videoPathArray.getD [])
termination_by (manager.unset, 0, 0)
decreasing_by
  have positive : 0 < manager.unset := by
    rw [unset, _found]
    exact Nat.one_pos
  exact Prod.Lex.left _ _ positive

/-- Empty the list, list every file, and note the merged ones.  The result
says whether there was any file. -/
def restoreLocalVideo (files : List EntryPath) (manager : VideoManagerCenter) :
    VideoManagerCenter × Bool :=
  let accessed := videoPathArray files manager
  let emptied := { accessed.1 with _videoPathArray := some [] }
  (restoreLoop files files emptied, decide (0 < files.length))
termination_by (manager.unset, 2, 0)
decreasing_by
  · exact Prod.Lex.right _ (Prod.Lex.left _ _ (by decide))
  · exact lex_of_set manager (Prod.Lex.left _ _ (by decide))

/-- The `for` loop, which asks the getter for the list in every pass. -/
def restoreLoop (files : List EntryPath) (rest : List EntryPath)
    (manager : VideoManagerCenter) : VideoManagerCenter :=
  match rest with
  | [] => manager
  | filePath :: rest =>
    let accessed := videoPathArray files (manager.noteMerge filePath)
    restoreLoop files rest
      { accessed.1 with _videoPathArray := some (accessed.2 ++ [filePath]) }
termination_by (manager.unset, 1, rest.length)
decreasing_by
  · rw [unset, noteMerge_videoPathArray]
    exact Prod.Lex.right _ (Prod.Lex.left _ _ (by decide))
  · exact lex_of_set manager (Prod.Lex.right _ (Nat.lt_succ_self _))

end

/-- One `removeItemAtURL:error:`, with the URLs whose deletion fails. -/
def removeItemAtURL (failing : List NSURL) (documents : Documents) (filePath : NSURL) :
    Documents :=
  if filePath ∈ failing then documents else documents.remove filePath

/-- The deletions of `clearLocalVideos`, in list order. -/
def removeItems (failing : List NSURL) (documents : Documents) (array : List NSURL) : Documents :=
  array.foldl (removeItemAtURL failing) documents

/-- Delete every listed file, then reset the flag and the merged file.  The
result is always YES. -/
def clearLocalVideos (files : List EntryPath) (failing : List NSURL) (documents : Documents)
    (manager : VideoManagerCenter) : Documents × VideoManagerCenter :=
  let accessed := manager.videoPathArray files
  (removeItems failing documents accessed.2,
    { accessed.1 with hasCombined := false, mergeFilePath := none })

end VideoManagerCenter

/-- The export of a composition to a new file. -/
structure AVAssetExportSession where
  asset : AVMutableComposition
  outputURL : NSURL
  deriving DecidableEq

namespace VideoManagerCenter

/-- `compressionSession:completeHandler:` up to the start of the export. -/
def compressionSession (insertions : Insertions) (random : Fin 1000) (documents : Documents)
    (fileURLs : List NSURL) : Except NSException AVAssetExportSession :=
  match composition insertions (fileURLs.map (assetAt documents)) with
  | .ok mixComposition => .ok ⟨mixComposition, [finalVideo random]⟩
  | .error exception => .error exception

/-- What a completed export leaves in Documents. -/
def finishExport (documents : Documents) (exporter : AVAssetExportSession) (asset : AVURLAsset) :
    Documents :=
  createFile documents exporter.outputURL (.merge exporter.asset asset)

/-! ## What the mutually recursive methods compute -/

/-- The last merged file of a listing. -/
def lastMerge (files : List EntryPath) : Option NSURL :=
  (files.filter namesMerge).getLast?

/-- The manager after restoring from a listing. -/
def restored (files : List EntryPath) (manager : VideoManagerCenter) : VideoManagerCenter where
  _videoPathArray := some files
  hasCombined := manager.hasCombined || files.any namesMerge
  mergeFilePath := (lastMerge files).or manager.mergeFilePath

theorem videoPathArray_of_some (files : List EntryPath) {manager : VideoManagerCenter}
    {array : List NSURL} (found : manager._videoPathArray = some array) :
    manager.videoPathArray files = (manager, array) := by
  unfold videoPathArray
  split
  · next array' same =>
      rw [found] at same
      cases same
      rfl
  · next same =>
      rw [found] at same
      cases same

theorem lastMerge_cons (filePath : NSURL) (files : List EntryPath) :
    lastMerge (filePath :: files) =
      (lastMerge files).or (if namesMerge filePath then some filePath else none) := by
  unfold lastMerge
  by_cases merged : namesMerge filePath = true
  · rw [List.filter_cons_of_pos merged, if_pos merged, List.getLast?_cons]
    cases (files.filter namesMerge).getLast? <;> rfl
  · rw [List.filter_cons_of_neg merged, if_neg merged, Option.or_none]

/-- The loop appends the files to the list and notes the merged ones. -/
theorem restoreLoop_eq (files rest : List EntryPath) {manager : VideoManagerCenter}
    {array : List NSURL} (found : manager._videoPathArray = some array) :
    restoreLoop files rest manager =
      { _videoPathArray := some (array ++ rest)
        hasCombined := manager.hasCombined || rest.any namesMerge
        mergeFilePath := (lastMerge rest).or manager.mergeFilePath } := by
  induction rest generalizing manager array with
  | nil =>
      unfold restoreLoop
      rw [List.append_nil, ← found, List.any_nil, Bool.or_false]
      rfl
  | cons filePath rest inductionHypothesis =>
      have noted : (manager.noteMerge filePath)._videoPathArray = some array := by
        rw [noteMerge_videoPathArray, found]
      unfold restoreLoop
      rw [videoPathArray_of_some files noted]
      dsimp only
      rw [inductionHypothesis rfl, List.append_assoc, List.singleton_append, List.any_cons,
        lastMerge_cons, Option.or_assoc]
      unfold noteMerge
      cases namesMerge filePath with
      | true => simp only [if_true, Bool.true_or, Bool.or_true, Option.some_or]
      | false => simp only [Bool.false_eq_true, if_false, Bool.false_or, Option.none_or]

/-- Restoring from the same listing again changes nothing. -/
theorem restored_restored (files : List EntryPath) (manager : VideoManagerCenter) :
    restored files (restored files manager) = restored files manager := by
  unfold restored
  simp only [Bool.or_assoc, Bool.or_self, ← Option.or_assoc, Option.or_self]

/-- On first access the getter restores. -/
theorem videoPathArray_of_none (files : List EntryPath) {manager : VideoManagerCenter}
    (missing : manager._videoPathArray = none) :
    manager.videoPathArray files = (restored files manager, files) := by
  have nested : restoreLocalVideo files { manager with _videoPathArray := some [] } =
      (restored files manager, decide (0 < files.length)) := by
    unfold restoreLocalVideo
    rw [videoPathArray_of_some files rfl]
    dsimp only
    rw [restoreLoop_eq files files rfl]
    rfl
  unfold videoPathArray
  split
  · next array same =>
      rw [missing] at same
      cases same
  · rw [nested]
    rfl

/-- The getter returns the list that it leaves. -/
theorem videoPathArray_listed (files : List EntryPath) (manager : VideoManagerCenter) :
    (manager.videoPathArray files).1._videoPathArray = some (manager.videoPathArray files).2 := by
  cases found : manager._videoPathArray with
  | none =>
      rw [videoPathArray_of_none files found]
      rfl
  | some array =>
      rw [videoPathArray_of_some files found]
      exact found

/-- Whichever method is used first, the files are listed once. -/
theorem restoreLocalVideo_eq (files : List EntryPath) (manager : VideoManagerCenter) :
    manager.restoreLocalVideo files = (restored files manager, decide (0 < files.length)) := by
  unfold restoreLocalVideo
  cases found : manager._videoPathArray with
  | some array =>
      rw [videoPathArray_of_some files found]
      dsimp only
      rw [restoreLoop_eq files files rfl]
      rfl
  | none =>
      have same := restored_restored files manager
      rw [videoPathArray_of_none files found]
      dsimp only
      rw [restoreLoop_eq files files rfl]
      exact congrArg (fun result => (result, decide (0 < files.length))) same

theorem lastMerge_eq_some {files : List EntryPath} {filePath : NSURL}
    (last : lastMerge files = some filePath) :
    filePath ∈ files ∧ namesMerge filePath = true :=
  List.mem_filter.mp (List.mem_of_getLast? last)

theorem lastMerge_isSome_iff (files : List EntryPath) :
    (lastMerge files).isSome = files.any namesMerge := by
  induction files with
  | nil => rfl
  | cons filePath rest inductionHypothesis =>
      rw [lastMerge_cons, Option.isSome_or, inductionHypothesis, List.any_cons]
      cases namesMerge filePath with
      | true => exact Bool.or_true _
      | false => exact Bool.or_false _

/-! ## What a deletion leaves -/

theorem lookup_of_lookup_removeItemAtURL {failing : List NSURL} {documents : Documents}
    {filePath path : NSURL} {node : Node Content}
    (kept : (removeItemAtURL failing documents filePath).lookup path = some node) :
    documents.lookup path = some node := by
  unfold removeItemAtURL at kept
  by_cases fails : filePath ∈ failing
  · rw [if_pos fails] at kept
    exact kept
  · rw [if_neg fails] at kept
    exact FileTree.lookup_of_lookup_remove kept

/-- Deletions neither add nor change an entry. -/
theorem lookup_of_lookup_removeItems {failing : List NSURL} {array : List NSURL}
    {documents : Documents} {path : NSURL} {node : Node Content}
    (kept : (removeItems failing documents array).lookup path = some node) :
    documents.lookup path = some node := by
  induction array generalizing documents with
  | nil => exact kept
  | cons filePath rest inductionHypothesis =>
      exact lookup_of_lookup_removeItemAtURL (inductionHypothesis kept)

/-- An entry that is not kept lay at or below a listed path that existed
when it was deleted. -/
theorem lookup_removeItems_cases (failing : List NSURL) (array : List NSURL)
    {documents : Documents} {path : NSURL} {node : Node Content}
    (found : documents.lookup path = some node) :
    (removeItems failing documents array).lookup path = some node ∨
      Exists fun filePath => filePath ∈ array ∧ filePath ∉ failing ∧ filePath <+: path := by
  induction array generalizing documents with
  | nil => exact Or.inl found
  | cons filePath rest inductionHypothesis =>
      by_cases fails : filePath ∈ failing
      · have same : removeItemAtURL failing documents filePath = documents := if_pos fails
        change (removeItems failing (removeItemAtURL failing documents filePath) rest).lookup path =
          some node ∨ _
        rw [same]
        rcases inductionHypothesis found with kept | ⟨other, member, succeeds, above⟩
        · exact Or.inl kept
        · exact Or.inr ⟨other, List.mem_cons_of_mem _ member, succeeds, above⟩
      · by_cases above : filePath <+: path
        · exact Or.inr ⟨filePath, List.mem_cons_self, fails, above⟩
        · have next : (removeItemAtURL failing documents filePath).lookup path = some node := by
            rw [removeItemAtURL, if_neg fails, FileTree.lookup_remove_elsewhere above, found]
          rcases inductionHypothesis next with kept | ⟨other, member, succeeds, below⟩
          · exact Or.inl kept
          · exact Or.inr ⟨other, List.mem_cons_of_mem _ member, succeeds, below⟩

/-- A deletion that does not fail leaves nothing at its path. -/
theorem not_mem_removeItems {failing : List NSURL} {array : List NSURL} {documents : Documents}
    {filePath : NSURL} (member : filePath ∈ array) (succeeds : filePath ∉ failing) :
    filePath ∉ (removeItems failing documents array).paths := by
  induction array generalizing documents with
  | nil => cases member
  | cons first rest inductionHypothesis =>
      rcases List.mem_cons.mp member with rfl | later
      · intro kept
        rcases FileTree.mem_paths_iff.mp kept with ⟨node, found⟩
        have earlier : (removeItemAtURL failing documents filePath).lookup filePath = some node :=
          lookup_of_lookup_removeItems found
        rw [removeItemAtURL, if_neg succeeds,
          FileTree.lookup_remove_below (List.prefix_refl filePath)] at earlier
        cases earlier
      · exact inductionHypothesis later

theorem removeItems_of_all_failing {failing : List NSURL} {array : List NSURL}
    (documents : Documents) (fails : forall filePath, filePath ∈ array -> filePath ∈ failing) :
    removeItems failing documents array = documents := by
  induction array with
  | nil => rfl
  | cons filePath rest inductionHypothesis =>
      have same : removeItemAtURL failing documents filePath = documents :=
        if_pos (fails filePath List.mem_cons_self)
      change removeItems failing (removeItemAtURL failing documents filePath) rest = documents
      rw [same]
      exact inductionHypothesis fun other member => fails other (List.mem_cons_of_mem _ member)

theorem compressionSession_outputURL {insertions : Insertions} {random : Fin 1000}
    {documents : Documents} {fileURLs : List NSURL} {exporter : AVAssetExportSession}
    (ok : compressionSession insertions random documents fileURLs = .ok exporter) :
    exporter.outputURL = [finalVideo random] := by
  unfold compressionSession at ok
  cases built : composition insertions (fileURLs.map (assetAt documents)) with
  | error exception =>
      rw [built] at ok
      cases ok
  | ok mixComposition =>
      rw [built] at ok
      cases ok
      rfl

end VideoManagerCenter
end GPUDemo
end HowBigDemo
