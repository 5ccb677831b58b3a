import Mathlib
import HowBigDemo.Library.FileTree
import HowBigDemo.GPUDemo.Composition

namespace HowBigDemo
namespace GPUDemo

open Library

/-!
# The Documents directory

The camera, the editor and the database of the app share one directory.
Each picks the names of its files by a format of its own, and none of the
formats begins like another.  A number printed with `%d` is cut to 32 bits
and read with a sign, so names of counts repeat after `2 ^ 32`.

What a file holds records who wrote it.  `WrittenAt` says which contents the
video flow itself writes at which path, and `IsAppVideo` marks the entries
that are clips, merges or exports of the app.
-/

/-- A file URL, as the path below the Documents directory. -/
abbrev NSURL := EntryPath

/-- The name by which `subpathsAtPath:` lists a path. -/
def fileName (path : EntryPath) : String :=
  "/".intercalate path

def containsString (string part : String) : Bool :=
  decide (part.toList <:+: string.toList)

/-- `%d` of an unsigned 64-bit number. -/
def format (count : Nat) : String :=
  Int.repr (BitVec.ofNat 32 count).toInt

/-- `LiveMovied-%d.m4v`, the output of a camera screen. -/
def liveMovied (count : Nat) : String :=
  "LiveMovied-" ++ (format count ++ ".m4v")

/-- `FinalVideo-%d.mp4` with `arc4random() % 1000`. -/
def finalVideo (random : Fin 1000) : String :=
  "FinalVideo-" ++ (format random ++ ".mp4")

/-- `Movie%d.m4v` with the seconds since 1970. -/
def movie (seconds : Int) : String :=
  "Movie" ++ (Int.repr seconds ++ ".m4v")

/-- What the database keeps next to its file. -/
inductive DatabaseCompanion
  | wal
  | journal
  | shm
  | backup
  deriving DecidableEq

/-- The suffix of a companion, nothing for the database itself. -/
def databaseSuffix : Option DatabaseCompanion -> String
  | none => ""
  | some .wal => "-wal"
  | some .journal => "-journal"
  | some .shm => "-shm"
  | some .backup => "-backup"

def databaseName (companion : Option DatabaseCompanion) : String :=
  "test.db" ++ databaseSuffix companion

/-- A row of the table `Device`. -/
structure DeviceRow where
  mid : String
  user_id : String
  to_id : String
  from_id : String
  deriving DecidableEq

/-- What a file holds: output of the video flow, the database with its table
once that exists, a companion of it, or anything else. -/
inductive Content
  | clip (asset : AVURLAsset)
  | merge (composition : AVMutableComposition) (asset : AVURLAsset)
  | movie (asset : AVURLAsset)
  | database (device : Option (List DeviceRow))
  | companion
  | other (asset : AVURLAsset)
  deriving DecidableEq

abbrev Documents := FileTree Content

/-- What cannot be played is an asset without tracks. -/
def unplayable : AVURLAsset :=
  ⟨0, 0, 0, 0⟩

/-- The asset that a file is read as. -/
def Content.asset : Content -> AVURLAsset
  | .clip asset => asset
  | .merge _ asset => asset
  | .movie asset => asset
  | .other asset => asset
  | .database _ => unplayable
  | .companion => unplayable

/-- `initWithURL:` of an asset. -/
def assetAt (documents : Documents) (url : NSURL) : AVURLAsset :=
  match documents.lookup url with
  | some (.file content) => content.asset
  | _ => unplayable

/-- Write a new file.  A writer fails where there is an entry already, and
the app writes to the root of the directory only. -/
def createFile (documents : Documents) (url : NSURL) (content : Content) : Documents :=
  match url with
  | [name] => documents.create name content
  | _ => documents

theorem mem_paths_createFile {documents : Documents} {path : EntryPath} (url : NSURL)
    (content : Content) (member : path ∈ documents.paths) :
    path ∈ (createFile documents url content).paths := by
  unfold createFile
  split
  · exact FileTree.mem_paths_create_of_mem content member
  · exact member

/-- The names under which the video flow writes its files. -/
def IsVideoName (path : EntryPath) : Prop :=
  (Exists fun count => path = [liveMovied count]) ∨
    (Exists fun random => path = [finalVideo random]) ∨
    (Exists fun seconds => path = [movie seconds])

/-- The contents that the video flow writes, each under its names. -/
def WrittenAt (path : EntryPath) : Content -> Prop
  | .clip _ => Exists fun count => path = [liveMovied count]
  | .merge _ _ => Exists fun random => path = [finalVideo random]
  | .movie _ => Exists fun seconds => path = [movie seconds]
  | _ => False

/-- The entry is a video file that the app wrote as a clip, a merge or an
export. -/
def IsAppVideo (path : EntryPath) : Node Content -> Prop
  | .file content => WrittenAt path content
  | .directory => False

theorem IsAppVideo.isVideoName {path : EntryPath} {node : Node Content}
    (video : IsAppVideo path node) : IsVideoName path := by
  cases node with
  | directory => cases video
  | file content =>
      cases content with
      | clip _ => exact Or.inl video
      | merge _ _ => exact Or.inr (Or.inl video)
      | movie _ => exact Or.inr (Or.inr video)
      | database _ => cases video
      | companion => cases video
      | other _ => cases video

/-! ## Names -/

theorem format_injective {first second : Nat} (firstBound : first < 2 ^ 32)
    (secondBound : second < 2 ^ 32) (same : format first = format second) : first = second := by
  have equal := BitVec.toInt_inj.mp (Int.repr_injective same)
  have values := congrArg BitVec.toNat equal
  rw [BitVec.toNat_ofNat, BitVec.toNat_ofNat, Nat.mod_eq_of_lt firstBound,
    Nat.mod_eq_of_lt secondBound] at values
  exact values

theorem format_add_period (count : Nat) : format (count + 2 ^ 32) = format count := by
  have same : BitVec.ofNat 32 (count + 2 ^ 32) = BitVec.ofNat 32 count := by
    apply BitVec.eq_of_toNat_eq
    rw [BitVec.toNat_ofNat, BitVec.toNat_ofNat, Nat.add_mod_right]
  rw [format, same, format]

/-- Screens with fewer than `2 ^ 32` takes do not repeat a name. -/
theorem liveMovied_injective {first second : Nat} (firstBound : first < 2 ^ 32)
    (secondBound : second < 2 ^ 32) (same : liveMovied first = liveMovied second) :
    first = second :=
  format_injective firstBound secondBound
    ((String.append_left_inj _).mp ((String.append_right_inj _).mp same))

theorem liveMovied_add_period (count : Nat) : liveMovied (count + 2 ^ 32) = liveMovied count := by
  unfold liveMovied
  rw [format_add_period]

theorem head?_append {start rest : String} {first : Char} (head : start.toList.head? = some first) :
    (start ++ rest).toList.head? = some first := by
  rw [String.toList_append, List.head?_append, head]
  rfl

@[simp] theorem head?_liveMovied (count : Nat) : (liveMovied count).toList.head? = some 'L' :=
  head?_append (by decide +kernel)

@[simp] theorem head?_finalVideo (random : Fin 1000) :
    (finalVideo random).toList.head? = some 'F' :=
  head?_append (by decide +kernel)

@[simp] theorem head?_movie (seconds : Int) : (movie seconds).toList.head? = some 'M' :=
  head?_append (by decide +kernel)

@[simp] theorem head?_databaseName (companion : Option DatabaseCompanion) :
    (databaseName companion).toList.head? = some 't' :=
  head?_append (by decide +kernel)

/-- Names with different first letters are different paths. -/
theorem singleton_ne_of_head? {name other : String}
    (different : name.toList.head? ≠ other.toList.head?) : [name] ≠ [other] := by
  intro same
  rw [List.singleton_inj.mp same] at different
  exact different rfl

/-- The database does not use a name of the video flow. -/
theorem not_isVideoName_database (companion : Option DatabaseCompanion) :
    ¬ IsVideoName [databaseName companion] := by
  rintro (⟨count, same⟩ | ⟨random, same⟩ | ⟨seconds, same⟩) <;>
    exact singleton_ne_of_head? (by simp) same

/-- A merged file is recognized by its name. -/
theorem containsString_finalVideo (random : Fin 1000) :
    containsString (fileName [finalVideo random]) "FinalVideo" = true := by
  apply decide_eq_true
  change "FinalVideo".toList <:+: (finalVideo random).toList
  unfold finalVideo
  rw [String.toList_append]
  have start : "FinalVideo-".toList = "FinalVideo".toList ++ ['-'] := by decide +kernel
  rw [start, List.append_assoc]
  exact (List.prefix_append _ _).isInfix

end GPUDemo
end HowBigDemo
