import Mathlib.Data.List.Basic

namespace HowBigDemo
namespace GPUDemo

/-!
# Compositions of recorded clips

`compressionSession:completeHandler:` builds one composition from the assets
behind a list of URLs.  It takes the first video track and the first audio
track of each asset, inserts both at the running time, and moves the running
time on by the asset's duration.  Neither the result nor the error of an
insertion is looked at, so whether an insertion succeeds is an argument of
the loop below.

`mergeOf` says what a merge of exactly the given clips in their order is.
The loop builds it exactly when it does not raise and no insertion fails.
-/

/-- Times are exact. -/
abbrev CMTime := Rat

inductive AVMediaType
  | video
  | audio
  deriving DecidableEq

/-- What an asset shows, how long it is and how many tracks it has. -/
structure AVURLAsset where
  footage : Nat
  duration : CMTime
  videoTracks : Nat
  audioTracks : Nat
  deriving DecidableEq

structure AVAssetTrack where
  footage : Nat
  mediaType : AVMediaType
  index : Nat
  deriving DecidableEq

/-- A Foundation exception. -/
inductive NSException
  | rangeException
  deriving DecidableEq

namespace AVURLAsset

def trackCount (asset : AVURLAsset) : AVMediaType -> Nat
  | .video => asset.videoTracks
  | .audio => asset.audioTracks

def tracksWithMediaType (asset : AVURLAsset) (mediaType : AVMediaType) : List AVAssetTrack :=
  (List.range (asset.trackCount mediaType)).map fun index => ⟨asset.footage, mediaType, index⟩

end AVURLAsset

/-- `objectAtIndex:` raises outside the array. -/
def objectAtIndex {Element : Type} (array : List Element) (index : Nat) :
    Except NSException Element :=
  match array[index]? with
  | some element => .ok element
  | none => .error .rangeException

/-- One inserted time range.  It starts at time zero of its track. -/
structure Segment where
  track : AVAssetTrack
  duration : CMTime
  atTime : CMTime
  deriving DecidableEq

@[ext] structure AVMutableComposition where
  audioTrack : List Segment
  videoTrack : List Segment
  deriving DecidableEq

/-- Which insertions succeed, by the number of the clip and the track. -/
abbrev Insertions := Nat -> AVMediaType -> Bool

/-- `insertTimeRange:ofTrack:atTime:error:` with the whole duration. -/
def insertTimeRange (succeeds : Bool) (segments : List Segment) (duration : CMTime)
    (track : AVAssetTrack) (atTime : CMTime) : List Segment :=
  if succeeds then segments ++ [⟨track, duration, atTime⟩] else segments

/-- The `for` loop of `compressionSession:completeHandler:`.  An array never
holds nil, so the test of the audio track always passes. -/
def compositionLoop (insertions : Insertions) :
    Nat -> List AVURLAsset -> CMTime -> AVMutableComposition ->
      Except NSException AVMutableComposition
  | _, [], _, mixComposition => .ok mixComposition
  | i, asset :: rest, lastTime, mixComposition =>
    match objectAtIndex (asset.tracksWithMediaType .video) 0 with
    | .error exception => .error exception
    | .ok assetTrack =>
      match objectAtIndex (asset.tracksWithMediaType .audio) 0 with
      | .error exception => .error exception
      | .ok audioAsset =>
        compositionLoop insertions (i + 1) rest (lastTime + asset.duration)
          { audioTrack := insertTimeRange (insertions i .audio) mixComposition.audioTrack
              asset.duration audioAsset lastTime
            videoTrack := insertTimeRange (insertions i .video) mixComposition.videoTrack
              asset.duration assetTrack lastTime }

/-- The composition built from the assets in their order. -/
def composition (insertions : Insertions) (assets : List AVURLAsset) :
    Except NSException AVMutableComposition :=
  compositionLoop insertions 0 assets 0 ⟨[], []⟩

/-! ## A merge of exactly the given clips -/

/-- The first track of each clip over its whole duration, one clip after
another. -/
def segmentsOf (mediaType : AVMediaType) : CMTime -> List AVURLAsset -> List Segment
  | _, [] => []
  | start, clip :: rest =>
      ⟨⟨clip.footage, mediaType, 0⟩, clip.duration, start⟩ ::
        segmentsOf mediaType (start + clip.duration) rest

def mergeOf (clips : List AVURLAsset) : AVMutableComposition where
  audioTrack := segmentsOf .audio 0 clips
  videoTrack := segmentsOf .video 0 clips

/-- The segments of one track that the loop inserts. -/
def insertedSegments (insertions : Insertions) (mediaType : AVMediaType) :
    Nat -> CMTime -> List AVURLAsset -> List Segment
  | _, _, [] => []
  | i, start, clip :: rest =>
      insertTimeRange (insertions i mediaType) [] clip.duration ⟨clip.footage, mediaType, 0⟩ start ++
        insertedSegments insertions mediaType (i + 1) (start + clip.duration) rest

theorem insertTimeRange_eq_append (succeeds : Bool) (segments : List Segment)
    (duration : CMTime) (track : AVAssetTrack) (atTime : CMTime) :
    insertTimeRange succeeds segments duration track atTime =
      segments ++ insertTimeRange succeeds [] duration track atTime := by
  cases succeeds with
  | false => exact (List.append_nil segments).symm
  | true => rfl

theorem first_track_eq {asset : AVURLAsset} {mediaType : AVMediaType} {track : AVAssetTrack}
    (found : objectAtIndex (asset.tracksWithMediaType mediaType) 0 = .ok track) :
    track = ⟨asset.footage, mediaType, 0⟩ := by
  unfold objectAtIndex AVURLAsset.tracksWithMediaType at found
  cases count : asset.trackCount mediaType with
  | zero =>
      rw [count] at found
      cases found
  | succ more =>
      rw [count, List.range_succ_eq_map] at found
      cases found
      rfl

/-- Where the loop does not raise, it adds to each track the segments whose
insertion succeeds. -/
theorem compositionLoop_eq_ok {insertions : Insertions} {i : Nat} {assets : List AVURLAsset}
    {lastTime : CMTime} {mixComposition built : AVMutableComposition}
    (ok : compositionLoop insertions i assets lastTime mixComposition = .ok built) :
    built = ⟨mixComposition.audioTrack ++ insertedSegments insertions .audio i lastTime assets,
      mixComposition.videoTrack ++ insertedSegments insertions .video i lastTime assets⟩ := by
  induction assets generalizing i lastTime mixComposition with
  | nil =>
      cases ok
      simp only [insertedSegments, List.append_nil]
  | cons asset rest inductionHypothesis =>
      unfold compositionLoop at ok
      cases video : objectAtIndex (asset.tracksWithMediaType .video) 0 with
      | error exception =>
          rw [video] at ok
          cases ok
      | ok assetTrack =>
          cases audio : objectAtIndex (asset.tracksWithMediaType .audio) 0 with
          | error exception =>
              rw [video, audio] at ok
              cases ok
          | ok audioAsset =>
              rw [video, audio] at ok
              rw [inductionHypothesis ok, first_track_eq video, first_track_eq audio,
                insertTimeRange_eq_append _ mixComposition.audioTrack,
                insertTimeRange_eq_append _ mixComposition.videoTrack]
              simp only [insertedSegments, List.append_assoc]

theorem length_insertedSegments_le (insertions : Insertions) (mediaType : AVMediaType) (i : Nat)
    (start : CMTime) (clips : List AVURLAsset) :
    (insertedSegments insertions mediaType i start clips).length ≤ clips.length := by
  induction clips generalizing i start with
  | nil => exact Nat.le_refl 0
  | cons clip rest inductionHypothesis =>
      have later := inductionHypothesis (i + 1) (start + clip.duration)
      unfold insertedSegments insertTimeRange
      rw [List.length_append, List.length_cons]
      cases insertions i mediaType with
      | false => exact Nat.le_trans (Nat.le_of_eq (Nat.zero_add _)) (Nat.le_succ_of_le later)
      | true =>
          rw [if_pos rfl, List.nil_append, List.length_singleton, Nat.add_comm]
          exact Nat.succ_le_succ later

theorem length_segmentsOf (mediaType : AVMediaType) (start : CMTime) (clips : List AVURLAsset) :
    (segmentsOf mediaType start clips).length = clips.length := by
  induction clips generalizing start with
  | nil => rfl
  | cons clip rest inductionHypothesis =>
      exact congrArg Nat.succ (inductionHypothesis (start + clip.duration))

/-- A track holds every clip exactly if none of its insertions failed. -/
theorem insertedSegments_eq_segmentsOf_iff (insertions : Insertions) (mediaType : AVMediaType)
    (i : Nat) (start : CMTime) (clips : List AVURLAsset) :
    insertedSegments insertions mediaType i start clips = segmentsOf mediaType start clips ↔
      forall j, j < clips.length -> insertions (i + j) mediaType = true := by
  induction clips generalizing i start with
  | nil =>
      constructor
      · intro _ j impossible
        cases impossible
      · intro _
        rfl
  | cons clip rest inductionHypothesis =>
      have later := inductionHypothesis (i + 1) (start + clip.duration)
      unfold insertedSegments insertTimeRange segmentsOf
      cases inserted : insertions i mediaType with
      | false =>
          constructor
          · intro same
            have short := length_insertedSegments_le insertions mediaType (i + 1)
              (start + clip.duration) rest
            have long := congrArg List.length same
            simp only [Bool.false_eq_true, if_false, List.nil_append, List.length_cons,
              length_segmentsOf] at long
            omega
          · intro all
            have first := all 0 (Nat.succ_pos _)
            rw [Nat.add_zero, inserted] at first
            cases first
      | true =>
          rw [if_pos rfl, List.nil_append, List.singleton_append, List.cons_inj_right, later]
          constructor
          · intro all j bound
            cases j with
            | zero => exact inserted
            | succ j =>
                rw [← all j (Nat.lt_of_succ_lt_succ bound)]
                congr 1
                omega
          · intro all j bound
            rw [← all (j + 1) (Nat.succ_lt_succ bound)]
            congr 1
            omega

/-- Every insertion of the given number of clips succeeds. -/
def AllInserted (insertions : Insertions) (count : Nat) : Prop :=
  forall i, i < count -> forall mediaType, insertions i mediaType = true

/-- The composition is a merge of exactly its clips if and only if every
insertion succeeded. -/
theorem composition_eq_mergeOf_iff {insertions : Insertions} {clips : List AVURLAsset}
    {built : AVMutableComposition} (ok : composition insertions clips = .ok built) :
    built = mergeOf clips ↔ AllInserted insertions clips.length := by
  rw [compositionLoop_eq_ok ok, mergeOf, AVMutableComposition.mk.injEq, List.nil_append,
    List.nil_append, insertedSegments_eq_segmentsOf_iff, insertedSegments_eq_segmentsOf_iff]
  simp only [Nat.zero_add]
  constructor
  · rintro ⟨audio, video⟩ i bound mediaType
    cases mediaType with
    | video => exact video i bound
    | audio => exact audio i bound
  · intro all
    exact ⟨fun i bound => all i bound .audio, fun i bound => all i bound .video⟩

end GPUDemo
end HowBigDemo
