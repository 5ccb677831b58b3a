import HowBigDemo.GPUDemo.Documents

namespace HowBigDemo
namespace DataBase

open Library
open GPUDemo

/-!
# `DeviceModel` and its database file

`init` opens the database `test.db` in the Documents directory, which
creates the file, and creates the table `Device` if there is none.
`insertIntoDB` inserts one row.  Which companions the database library keeps
next to the file, and whether an insertion succeeds, is up to the library.
-/

/-- What the database library does for one model object. -/
structure DatabaseWork where
  companions : List DatabaseCompanion
  mid : String
  inserted : Bool

namespace DeviceModel

/-- `createTableAndIndexesOfName:withClass:`, unless the table exists. -/
def createTable : Content -> Content
  | .database none => .database (some [])
  | content => content

/-- `insertObject:into:` on the table `Device`. -/
def insertObject (row : DeviceRow) : Content -> Content
  | .database (some rows) => .database (some (rows ++ [row]))
  | content => content

/-- Create what is missing of the database and its companions. -/
def openDatabase (companions : List DatabaseCompanion) (documents : Documents) : Documents :=
  companions.foldl (fun documents companion =>
    createFile documents [databaseName (some companion)] .companion)
    (createFile documents [databaseName none] (.database none))

def init (companions : List DatabaseCompanion) (documents : Documents) : Documents :=
  (openDatabase companions documents).modify [databaseName none] createTable

/-- `update`, and the user that `insertIntoDB` sets afterwards. -/
def inserted (mid : String) : DeviceRow where
  mid := mid
  user_id := "10098"
  to_id := "10010"
  from_id := "testttt"

/-- The inserted object is a `DeviceModel` too and is initialized first. -/
def insertIntoDB (work : DatabaseWork) (documents : Documents) : Documents :=
  let initialized := init work.companions documents
  if work.inserted then initialized.modify [databaseName none] (insertObject (inserted work.mid))
  else initialized

/-- `init` and `insertIntoDB`, as the main screen calls them. -/
def initAndInsert (work : DatabaseWork) (documents : Documents) : Documents :=
  insertIntoDB work (init work.companions documents)

/-! ## The database is there afterwards, with whatever was there before -/

theorem mem_paths_openDatabase (companions : List DatabaseCompanion) {documents : Documents}
    {path : EntryPath} (member : path ∈ documents.paths ∨ path = [databaseName none]) :
    path ∈ (openDatabase companions documents).paths := by
  unfold openDatabase
  have opened : path ∈ (createFile documents [databaseName none] (.database none)).paths := by
    rcases member with old | rfl
    · exact mem_paths_createFile _ _ old
    · exact FileTree.mem_paths_create_self _ _ _
  revert opened
  generalize createFile documents [databaseName none] (.database none) = first
  induction companions generalizing first with
  | nil => exact id
  | cons companion rest inductionHypothesis =>
      intro opened
      exact inductionHypothesis _ (mem_paths_createFile _ _ opened)

theorem mem_paths_init (companions : List DatabaseCompanion) {documents : Documents}
    {path : EntryPath} (member : path ∈ documents.paths ∨ path = [databaseName none]) :
    path ∈ (init companions documents).paths := by
  unfold init
  rw [FileTree.paths_modify]
  exact mem_paths_openDatabase companions member

theorem mem_paths_initAndInsert (work : DatabaseWork) {documents : Documents} {path : EntryPath}
    (member : path ∈ documents.paths ∨ path = [databaseName none]) :
    path ∈ (initAndInsert work documents).paths := by
  have again := mem_paths_init work.companions (Or.inl (mem_paths_init work.companions member))
  unfold initAndInsert insertIntoDB
  cases work.inserted with
  | false => exact again
  | true =>
      simp only [if_true, FileTree.paths_modify]
      exact again

/-! ## The database only touches its own names -/

/-- Every entry outside the names of the database is the same in both trees. -/
def SameElsewhere (before after : Documents) : Prop :=
  forall path, (forall companion, path ≠ [databaseName companion]) ->
    after.lookup path = before.lookup path

theorem SameElsewhere.trans {first second third : Documents} (earlier : SameElsewhere first second)
    (later : SameElsewhere second third) : SameElsewhere first third :=
  fun path other => (later path other).trans (earlier path other)

theorem createFile_sameElsewhere (documents : Documents) (companion : Option DatabaseCompanion)
    (content : Content) :
    SameElsewhere documents (createFile documents [databaseName companion] content) := by
  intro path other
  exact FileTree.lookup_create_of_ne content (other companion)

theorem modify_sameElsewhere (documents : Documents) (change : Content -> Content) :
    SameElsewhere documents (documents.modify [databaseName none] change) := by
  intro path other
  exact FileTree.lookup_modify_of_ne (other none)

theorem openDatabase_sameElsewhere (companions : List DatabaseCompanion) (documents : Documents) :
    SameElsewhere documents (openDatabase companions documents) := by
  unfold openDatabase
  have first := createFile_sameElsewhere documents none (.database none)
  revert first
  generalize createFile documents [databaseName none] (.database none) = opened
  induction companions generalizing opened with
  | nil =>
      intro first
      exact first
  | cons companion rest inductionHypothesis =>
      intro first
      exact inductionHypothesis _
        (first.trans (createFile_sameElsewhere opened (some companion) .companion))

theorem init_sameElsewhere (companions : List DatabaseCompanion) (documents : Documents) :
    SameElsewhere documents (init companions documents) :=
  (openDatabase_sameElsewhere companions documents).trans (modify_sameElsewhere _ createTable)

theorem insertIntoDB_sameElsewhere (work : DatabaseWork) (documents : Documents) :
    SameElsewhere documents (insertIntoDB work documents) := by
  unfold insertIntoDB
  cases work.inserted with
  | false => exact init_sameElsewhere work.companions documents
  | true =>
      exact (init_sameElsewhere work.companions documents).trans (modify_sameElsewhere _ _)

theorem initAndInsert_sameElsewhere (work : DatabaseWork) (documents : Documents) :
    SameElsewhere documents (initAndInsert work documents) :=
  (init_sameElsewhere work.companions documents).trans (insertIntoDB_sameElsewhere work _)

end DeviceModel
end DataBase
end HowBigDemo
